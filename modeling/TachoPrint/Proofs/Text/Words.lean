import TachoPrint.Text.Blank

/-!
# Words and the blanks around them

A text sets out words: blanks stand between them, and perhaps in front of the first one and
behind the last one.  Which blanks these are, and how many, is all that two texts with the same
words can differ in.

## Main definitions

* `Blanks`, `IsWord` — the two kinds of text that others are made of.
* `Spaced` — a text sets out words.

## Main results

* `words_append_blank` — a blank separates the words in front of it from those behind it.
* `words_eq_iff` — **the words of a text are those that it sets out.**
-/

namespace TachoPrint

/-- Every character is blank. -/
def Blanks (cs : List Char) : Prop := ∀ c ∈ cs, isBlank c

/-- At least one character, and none of them blank. -/
def IsWord (w : List Char) : Prop := w ≠ [] ∧ ∀ c ∈ w, ¬isBlank c

/-- What a word may stop at: nothing, or a blank in front. -/
def StartsBlank (cs : List Char) : Prop := ∀ c ∈ cs.head?, isBlank c

/-- The text sets out the words, with blanks between them and perhaps around them. -/
inductive Spaced : List (List Char) → List Char → Prop
  /-- There is no word. -/
  | blanks {gap : List Char} (hgap : Blanks gap) : Spaced [] gap
  /-- There is a word in front of others. -/
  | word {gap w rest : List Char} {ws : List (List Char)} (hgap : Blanks gap) (hw : IsWord w)
      (hrest : StartsBlank rest) (h : Spaced ws rest) : Spaced (w :: ws) (gap ++ (w ++ rest))

/-! ### One character in front -/

theorem consWord_of_ne_nil {w : List Char} (h : w ≠ []) (ws : List (List Char)) :
    consWord w ws = w :: ws := if_neg h

theorem consWord_append (w : List Char) (us vs : List (List Char)) :
    consWord w (us ++ vs) = consWord w us ++ vs := by
  unfold consWord
  split <;> rfl

theorem words_eq_consWord (cs : List Char) :
    words cs = consWord (cs.foldr wordStep ([], [])).1 (cs.foldr wordStep ([], [])).2 := rfl

@[simp] theorem wordStep_of_blank {c : Char} (hc : isBlank c) (s : List Char × List (List Char)) :
    wordStep c s = ([], consWord s.1 s.2) := if_pos hc

@[simp] theorem wordStep_of_not_blank {c : Char} (hc : ¬isBlank c)
    (s : List Char × List (List Char)) : wordStep c s = (c :: s.1, s.2) := if_neg hc

theorem words_cons_of_blank {c : Char} (hc : isBlank c) (cs : List Char) :
    words (c :: cs) = words cs := by
  rw [words_eq_consWord, List.foldr_cons, wordStep_of_blank hc]
  rfl

/-- What a character that is not blank joins does not depend on the character. -/
theorem exists_words_cons (cs : List Char) :
    ∃ w ws, ∀ c, ¬isBlank c → words (c :: cs) = (c :: w) :: ws := by
  refine ⟨(cs.foldr wordStep ([], [])).1, (cs.foldr wordStep ([], [])).2, ?_⟩
  intro c hc
  rw [words_eq_consWord, List.foldr_cons, wordStep_of_not_blank hc]
  rfl

/-! ### Texts one behind the other -/

/-- Words that are already there stay behind those of a text. -/
theorem foldr_wordStep_words (cs : List Char) (vs : List (List Char)) :
    cs.foldr wordStep ([], vs) =
      ((cs.foldr wordStep ([], [])).1, (cs.foldr wordStep ([], [])).2 ++ vs) := by
  induction cs with
  | nil => rfl
  | cons c cs ih =>
    rw [List.foldr_cons, List.foldr_cons, ih]
    by_cases hc : isBlank c
    · rw [wordStep_of_blank hc, wordStep_of_blank hc]
      simp only [consWord_append]
    · rw [wordStep_of_not_blank hc, wordStep_of_not_blank hc]

/-- **A blank separates the words in front of it from those behind it.** -/
@[simp] theorem words_append_blank (front : List Char) {c : Char} (hc : isBlank c)
    (cs : List Char) : words (front ++ c :: cs) = words front ++ words cs := by
  have hback : (c :: cs).foldr wordStep ([], []) = ([], words cs) := by
    rw [List.foldr_cons, wordStep_of_blank hc]
    rfl
  rw [words_eq_consWord, List.foldr_append, hback, foldr_wordStep_words, consWord_append]
  rfl

theorem words_append_of_getLast? {front : List Char} (h : ∀ c ∈ front.getLast?, isBlank c)
    (cs : List Char) : words (front ++ cs) = words front ++ words cs := by
  obtain rfl | ⟨front, c, rfl⟩ := List.eq_nil_or_concat front
  · rfl
  · rw [List.concat_eq_append] at h ⊢
    have hc : isBlank c := h c List.getLast?_concat
    rw [words_append_blank front hc, List.append_assoc, List.singleton_append,
      words_append_blank front hc, List.append_assoc]
    rfl

@[simp] theorem words_blanks_append {gap : List Char} (hgap : Blanks gap) (cs : List Char) :
    words (gap ++ cs) = words cs := by
  induction gap with
  | nil => rfl
  | cons c gap ih =>
    obtain ⟨hc, hgap⟩ := List.forall_mem_cons.mp hgap
    rw [List.cons_append, words_cons_of_blank hc, ih hgap]

theorem foldr_wordStep_of_startsBlank {cs : List Char} (h : StartsBlank cs) :
    cs.foldr wordStep ([], []) = ([], words cs) := by
  cases cs with
  | nil => rfl
  | cons c cs =>
    have hc : isBlank c := h c rfl
    rw [List.foldr_cons, wordStep_of_blank hc, words_cons_of_blank hc]
    rfl

/-- Characters that are not blank join what comes first. -/
theorem foldr_wordStep_append {w : List Char} (hw : ∀ c ∈ w, ¬isBlank c) (cs : List Char) :
    (w ++ cs).foldr wordStep ([], []) =
      (w ++ (cs.foldr wordStep ([], [])).1, (cs.foldr wordStep ([], [])).2) := by
  induction w with
  | nil => rfl
  | cons c w ih =>
    obtain ⟨hc, hw⟩ := List.forall_mem_cons.mp hw
    rw [List.cons_append, List.foldr_cons, ih hw, wordStep_of_not_blank hc, List.cons_append]

theorem words_word_append {w rest : List Char} (hw : IsWord w) (hrest : StartsBlank rest) :
    words (w ++ rest) = w :: words rest := by
  rw [words_eq_consWord, foldr_wordStep_append hw.2, foldr_wordStep_of_startsBlank hrest]
  simp only [List.append_nil]
  exact consWord_of_ne_nil hw.1 _

/-! ### Every text sets out its words -/

theorem Spaced.cons_blank {ws : List (List Char)} {cs : List Char} {c : Char} (hc : isBlank c)
    (h : Spaced ws cs) : Spaced ws (c :: cs) := by
  cases h with
  | blanks hgap => exact .blanks (List.forall_mem_cons.mpr ⟨hc, hgap⟩)
  | word hgap hw hrest h => exact .word (List.forall_mem_cons.mpr ⟨hc, hgap⟩) hw hrest h

/-- Characters that are not blank, if there are any, are a word in front of what follows. -/
theorem Spaced.consWord_append {w rest : List Char} {ws : List (List Char)}
    (hw : ∀ c ∈ w, ¬isBlank c) (hrest : StartsBlank rest) (h : Spaced ws rest) :
    Spaced (consWord w ws) (w ++ rest) := by
  by_cases hempty : w = []
  · rw [hempty]
    exact h
  · rw [consWord_of_ne_nil hempty]
    have hgap : Blanks [] := List.forall_mem_nil _
    exact .word hgap ⟨hempty, hw⟩ hrest h

/-- The state of the search for words: the characters in front that are not blank, and the words
that the rest sets out. -/
theorem exists_spaced_foldr (cs : List Char) :
    ∃ rest, cs = (cs.foldr wordStep ([], [])).1 ++ rest ∧ StartsBlank rest ∧
      (∀ c ∈ (cs.foldr wordStep ([], [])).1, ¬isBlank c) ∧
      Spaced (cs.foldr wordStep ([], [])).2 rest := by
  induction cs with
  | nil => exact ⟨[], rfl, by simp [StartsBlank], by simp, .blanks (by simp [Blanks])⟩
  | cons c cs ih =>
    rw [List.foldr_cons]
    generalize cs.foldr wordStep ([], []) = s at ih
    obtain ⟨rest, hcs, hstart, hfront, hspaced⟩ := ih
    by_cases hc : isBlank c
    · -- the word in front, if there is one, is complete
      have hwords : Spaced (consWord s.1 s.2) cs := by
        rw [hcs]
        exact hspaced.consWord_append hfront hstart
      rw [wordStep_of_blank hc]
      refine ⟨c :: cs, rfl, ?_, by simp, hwords.cons_blank hc⟩
      intro d hd
      obtain rfl : c = d := Option.some.inj hd
      exact hc
    · rw [wordStep_of_not_blank hc]
      refine ⟨rest, ?_, hstart, List.forall_mem_cons.mpr ⟨hc, hfront⟩, hspaced⟩
      rw [List.cons_append, ← hcs]

theorem spaced_words (cs : List Char) : Spaced (words cs) cs := by
  obtain ⟨rest, hcs, hstart, hfront, hspaced⟩ := exists_spaced_foldr cs
  have h := hspaced.consWord_append hfront hstart
  rwa [← hcs] at h

theorem Spaced.words_eq {ws : List (List Char)} {cs : List Char} (h : Spaced ws cs) :
    words cs = ws := by
  induction h with
  | blanks hgap =>
    have hnone := words_blanks_append hgap []
    rwa [List.append_nil] at hnone
  | word hgap hw hrest h ih => rw [words_blanks_append hgap, words_word_append hw hrest, ih]

/-- **The words of a text are those that it sets out.** -/
theorem words_eq_iff {ws : List (List Char)} {cs : List Char} : words cs = ws ↔ Spaced ws cs :=
  ⟨fun h => h ▸ spaced_words cs, Spaced.words_eq⟩

theorem Spaced.isWord_of_mem {ws : List (List Char)} {cs : List Char} (h : Spaced ws cs)
    {w : List Char} (hmem : w ∈ ws) : IsWord w := by
  induction h with
  | blanks hgap => cases hmem
  | word hgap hw hrest h ih =>
    rcases List.mem_cons.mp hmem with rfl | hmem
    · exact hw
    · exact ih hmem

end TachoPrint
