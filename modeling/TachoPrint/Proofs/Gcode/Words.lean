import TachoPrint.Gcode.Line
import TachoPrint.Proofs.Text.Words

/-!
# The words of a line

A line sets out words in front of a comment.  A word counts by its letter, which may be
written in either case, and by the text behind it.  A line number in front does not count.

## Main definitions

* `Gcode.Word.Begins` — a word begins with a letter, in either case.
* `Gcode.Carries` — the words that a line sets out in front of its comment.
* `Gcode.Instructs` — those words without a line number.

## Main results

* `Gcode.Word.letter_eq_iff` — the letter of a word is the one that it begins with.
* `Gcode.carries_iff` — **the words of a line are those that it sets out.**
* `Gcode.instructs_iff` — so are those without a line number.
-/

namespace TachoPrint

/-! ### Letters in either case -/

@[grind =] theorem isUpper_iff {c : Char} : c.isUpper ↔ 65 ≤ c.toNat ∧ c.toNat ≤ 90 := by
  unfold Char.isUpper
  rw [decide_eq_true_eq]
  exact Iff.rfl

@[grind =] theorem toNat_toUpper (c : Char) :
    c.toUpper.toNat = if 97 ≤ c.toNat ∧ c.toNat ≤ 122 then c.toNat - 32 else c.toNat := by
  unfold Char.toUpper
  split
  · next h =>
    have hrange : 97 ≤ c.toNat ∧ c.toNat ≤ 122 := h
    have hshift : ('A'.val - 'a'.val).toNat = 4294967264 := by decide
    rw [if_pos hrange]
    change (c.val + ('A'.val - 'a'.val)).toNat = c.val.toNat - 32
    change 97 ≤ c.val.toNat ∧ c.val.toNat ≤ 122 at hrange
    rw [UInt32.toNat_add, hshift]
    omega
  · next h => exact (if_neg h).symm

@[grind =] theorem toNat_toLower (c : Char) :
    c.toLower.toNat = if 65 ≤ c.toNat ∧ c.toNat ≤ 90 then c.toNat + 32 else c.toNat := by
  unfold Char.toLower
  split
  · next h =>
    have hrange : 65 ≤ c.toNat ∧ c.toNat ≤ 90 := h
    have hshift : ('a'.val - 'A'.val).toNat = 32 := by decide
    rw [if_pos hrange]
    change (c.val + ('a'.val - 'A'.val)).toNat = c.val.toNat + 32
    change 65 ≤ c.val.toNat ∧ c.val.toNat ≤ 90 at hrange
    rw [UInt32.toNat_add, hshift]
    omega
  · next h => exact (if_neg h).symm

theorem toUpper_eq_iff {c u : Char} (hu : u.isUpper) : c.toUpper = u ↔ c = u ∨ c = u.toLower := by
  rw [← Char.toNat_inj, ← Char.toNat_inj, ← Char.toNat_inj]
  grind

/-- Blanks are not letters. -/
@[simp] theorem isBlank_toUpper (c : Char) : isBlank c.toUpper = isBlank c := by
  unfold isBlank
  rw [toNat_toUpper]
  split
  · next h =>
    rw [Bool.eq_iff_iff]
    simp only [blankRanges, List.any_cons, List.any_nil, Bool.or_eq_true, Bool.and_eq_true,
      decide_eq_true_eq, Bool.false_eq_true, or_false]
    omega
  · rfl

namespace Gcode

/-! ### One word -/

namespace Word

/-- The characters of a word. -/
def chars (w : Word) : List Char := w.first :: w.value

/-- The word begins with a letter, in upper or in lower case. -/
def Begins (w : Word) (letter : Char) : Prop := w.first = letter ∨ w.first = letter.toLower

instance (w : Word) (letter : Char) : Decidable (w.Begins letter) :=
  inferInstanceAs (Decidable (_ ∨ _))

theorem letter_eq_iff {w : Word} {letter : Char} (h : letter.isUpper) :
    w.letter = letter ↔ w.Begins letter := toUpper_eq_iff h

@[simp] theorem ofChars?_chars (w : Word) : ofChars? w.chars = some w := rfl

theorem exists_chars_eq {cs : List Char} (h : cs ≠ []) : ∃ w : Word, w.chars = cs := by
  obtain ⟨c, cs, rfl⟩ := List.exists_cons_of_ne_nil h
  exact ⟨⟨c, cs⟩, rfl⟩

end Word

theorem filterMap_ofChars?_chars (ws : List Word) :
    (ws.map Word.chars).filterMap Word.ofChars? = ws := by
  induction ws with
  | nil => rfl
  | cons w ws ih => simp [ih]

/-- Words that are not empty are those of a line. -/
theorem exists_map_chars {css : List (List Char)} (h : ∀ cs ∈ css, cs ≠ []) :
    ∃ ws : List Word, ws.map Word.chars = css := by
  induction css with
  | nil => exact ⟨[], rfl⟩
  | cons cs css ih =>
    obtain ⟨hcs, hcss⟩ := List.forall_mem_cons.mp h
    obtain ⟨w, rfl⟩ := Word.exists_chars_eq hcs
    obtain ⟨ws, rfl⟩ := ih hcss
    exact ⟨w :: ws, rfl⟩

/-! ### Words in front of a comment -/

/-- The line sets out the words, up to its first semicolon if there is one. -/
inductive Carries (ws : List Word) : List Char → Prop
  /-- The comment is empty, or starts with a semicolon. -/
  | mk {code comment : List Char} (hcode : ';' ∉ code) (hcomment : ∀ c ∈ comment.head?, c = ';')
      (h : Spaced (ws.map Word.chars) code) : Carries ws (code ++ comment)

/-- What is in front of the first semicolon. -/
theorem takeWhile_code {code comment : List Char} (hcode : ';' ∉ code)
    (hcomment : ∀ c ∈ comment.head?, c = ';') :
    (code ++ comment).takeWhile (· != ';') = code := by
  have hall : ∀ c ∈ code, (c != ';') = true := by
    intro c hc
    rw [bne_iff_ne]
    rintro rfl
    exact hcode hc
  rw [List.takeWhile_append_of_pos hall]
  cases comment with
  | nil => rw [List.takeWhile_nil, List.append_nil]
  | cons c comment =>
    obtain rfl : c = ';' := hcomment c rfl
    rw [List.takeWhile_cons_of_neg (by decide), List.append_nil]

theorem wordsOfLine_of_spaced {ws : List (List Char)} {code comment : List Char}
    (hcode : ';' ∉ code) (hcomment : ∀ c ∈ comment.head?, c = ';') (h : Spaced ws code) :
    wordsOfLine (code ++ comment) = ws.filterMap Word.ofChars? := by
  rw [wordsOfLine, takeWhile_code hcode hcomment, h.words_eq]

theorem Carries.wordsOfLine_eq {ws : List Word} {line : List Char} (h : Carries ws line) :
    wordsOfLine line = ws := by
  obtain ⟨hcode, hcomment, h⟩ := h
  rw [wordsOfLine_of_spaced hcode hcomment h, filterMap_ofChars?_chars]

theorem carries_wordsOfLine (line : List Char) : Carries (wordsOfLine line) line := by
  have hspaced := spaced_words (line.takeWhile (· != ';'))
  obtain ⟨ws, hws⟩ := exists_map_chars fun cs hcs => (hspaced.isWord_of_mem hcs).1
  have hline : wordsOfLine line = ws := by rw [wordsOfLine, ← hws, filterMap_ofChars?_chars]
  have hcode : ';' ∉ line.takeWhile (· != ';') := by
    intro hmem
    have hall := List.all_eq_true.mp List.all_takeWhile ';' hmem
    simp at hall
  have hcomment : ∀ c ∈ (line.dropWhile (· != ';')).head?, c = ';' := by
    intro c hc
    have hstop := List.head?_dropWhile_not (· != ';') line
    rw [Option.mem_def.mp hc] at hstop
    simpa using hstop
  have h := Carries.mk hcode hcomment (hws ▸ hspaced)
  rwa [List.takeWhile_append_dropWhile, ← hline] at h

/-- **The words of a line are those that it sets out in front of its comment.** -/
@[grind =] theorem carries_iff {ws : List Word} {line : List Char} :
    Carries ws line ↔ wordsOfLine line = ws :=
  ⟨Carries.wordsOfLine_eq, fun h => h ▸ carries_wordsOfLine line⟩

/-! ### Line numbers -/

/-- The words that the line sets out in front of its comment, without the first one if that
is a line number. -/
inductive Instructs (line : List Char) : List Word → Prop
  /-- There is no line number. -/
  | plain {ws : List Word} (h : Carries ws line) (hfirst : ∀ w ∈ ws.head?, ¬w.Begins 'N') :
      Instructs line ws
  /-- The first word is one. -/
  | numbered {number : Word} {ws : List Word} (h : Carries (number :: ws) line)
      (hnumber : number.Begins 'N') : Instructs line ws

@[simp] theorem dropLineNumber_of_begins {w : Word} (h : w.Begins 'N') (ws : List Word) :
    dropLineNumber (w :: ws) = ws := if_pos ((Word.letter_eq_iff (by decide)).mpr h)

theorem dropLineNumber_of_not_begins {ws : List Word} (h : ∀ w ∈ ws.head?, ¬w.Begins 'N') :
    dropLineNumber ws = ws := by
  cases ws with
  | nil => rfl
  | cons w ws => exact if_neg fun hletter => h w rfl ((Word.letter_eq_iff (by decide)).mp hletter)

/-- The words without a line number are those that the line sets out. -/
@[grind =] theorem instructs_iff {line : List Char} {ws : List Word} :
    Instructs line ws ↔ dropLineNumber (wordsOfLine line) = ws := by
  constructor
  · rintro (⟨h, hfirst⟩ | ⟨h, hnumber⟩)
    · rw [h.wordsOfLine_eq, dropLineNumber_of_not_begins hfirst]
    · rw [h.wordsOfLine_eq, dropLineNumber_of_begins hnumber]
  · rintro rfl
    have hcarries := carries_wordsOfLine line
    cases hwords : wordsOfLine line with
    | nil =>
      rw [hwords] at hcarries
      exact .plain hcarries nofun
    | cons w ws =>
      rw [hwords] at hcarries
      by_cases hw : w.Begins 'N'
      · rw [dropLineNumber_of_begins hw]
        exact .numbered hcarries hw
      · have hfirst : ∀ v ∈ (w :: ws).head?, ¬v.Begins 'N' := by
          rintro v hv
          obtain rfl := Option.some.inj hv
          exact hw
        rw [dropLineNumber_of_not_begins hfirst]
        exact .plain hcarries hfirst

end Gcode

end TachoPrint
