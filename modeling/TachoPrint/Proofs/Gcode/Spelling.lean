import Mathlib.Data.List.Forall2
import Mathlib.Logic.Relation
import TachoPrint.Proofs.Gcode.Table

/-!
# Spellings of a line

A line may be written in more than one way: with a comment behind it, with other blanks
between its words, with letters in the other case, and with a line number.  All of them
come to the same instruction.  Where a line is refused, every spelling of it is refused for
the same reason and for the same word, which the error shows as it is spelled there.

## Main definitions

* `Gcode.Respelled` — one change of the spelling.
* `Gcode.Word.Alike` — two spellings of a word.
* `Gcode.Agree` — what is read from two spellings is the same.

## Main results

* `Gcode.Respelled.forall₂_alike` — one change leaves a line with words that are alike.
* `Gcode.Command.agree_instruction` — commands read the same from words that are alike.
* `Instruction.ofLine?_respelled` — **a line means the same in every spelling.**
-/

namespace TachoPrint

namespace Gcode

/-! ### Spellings -/

/-- One change of the spelling of a line. -/
inductive Respelled : List Char → List Char → Prop
  /-- A comment behind the line. -/
  | comment (line text : List Char) : Respelled line (line ++ ';' :: text)
  /-- Other blanks between the words in front of the comment and around them. -/
  | blanks {ws : List (List Char)} {code code' comment : List Char} (hcode : ';' ∉ code)
      (hcode' : ';' ∉ code') (hcomment : ∀ c ∈ comment.head?, c = ';') (h : Spaced ws code)
      (h' : Spaced ws code') : Respelled (code ++ comment) (code' ++ comment)
  /-- The other case for the first letter of a word. -/
  | letter {front rest : List Char} {c c' : Char} (hfront : ∀ b ∈ front.getLast?, isBlank b)
      (hc : ¬isBlank c) (hcase : c'.toUpper = c.toUpper) :
      Respelled (front ++ c :: rest) (front ++ c' :: rest)
  /-- A line number in front, where there is none. -/
  | number {ws : List Word} {line gap : List Char} {number : Word} (h : Carries ws line)
      (hfirst : ∀ w ∈ ws.head?, ¬w.Begins 'N') (hnumber : number.Begins 'N')
      (hword : IsWord number.chars) (hmark : ';' ∉ number.chars) (hgap : Blanks gap)
      (hne : gap ≠ []) : Respelled line (number.chars ++ (gap ++ line))

/-- Two spellings of a word: only the case of the letter may differ. -/
structure Word.Alike (w w' : Word) : Prop where
  /-- The letter counts in either case. -/
  letter : w'.letter = w.letter
  /-- The text behind it is the same. -/
  value : w'.value = w.value

theorem Word.Alike.refl (w : Word) : w.Alike w := ⟨rfl, rfl⟩

theorem Word.Alike.trans {u v w : Word} (huv : u.Alike v) (hvw : v.Alike w) : u.Alike w :=
  ⟨hvw.letter.trans huv.letter, hvw.value.trans huv.value⟩

theorem forall₂_alike_refl (ws : List Word) : List.Forall₂ Word.Alike ws ws :=
  List.forall₂_same.mpr fun w _ => .refl w

theorem forall₂_alike_trans {us vs ws : List Word} (huv : List.Forall₂ Word.Alike us vs)
    (hvw : List.Forall₂ Word.Alike vs ws) : List.Forall₂ Word.Alike us ws := by
  induction huv generalizing ws with
  | nil => exact hvw
  | cons h _ ih =>
    cases hvw with
    | cons h' hrest => exact .cons (h.trans h') (ih hrest)

/-- A word and its other spelling are both line numbers, or neither is. -/
theorem forall₂_dropLineNumber {ws ws' : List Word} (h : List.Forall₂ Word.Alike ws ws') :
    List.Forall₂ Word.Alike (dropLineNumber ws) (dropLineNumber ws') := by
  cases h with
  | nil => exact .nil
  | @cons w w' ws ws' hw hrest =>
    change List.Forall₂ Word.Alike (if w.letter = 'N' then ws else w :: ws)
      (if w'.letter = 'N' then ws' else w' :: ws')
    rw [hw.letter]
    split
    · exact hrest
    · exact .cons hw hrest

/-! ### One change -/

theorem Carries.append_comment {ws : List Word} {line : List Char} (h : Carries ws line)
    (text : List Char) : Carries ws (line ++ ';' :: text) := by
  cases h with
  | @mk code comment hcode hcomment h =>
    rw [List.append_assoc]
    refine .mk hcode ?_ h
    intro c hc
    cases comment with
    | nil => exact (Option.some.inj hc).symm
    | cons d comment => exact hcomment c hc

/-- A line number in front is one more word. -/
theorem wordsOfLine_number {number : Word} {gap : List Char} (hword : IsWord number.chars)
    (hmark : ';' ∉ number.chars) (hgap : Blanks gap) (hne : gap ≠ []) (line : List Char) :
    wordsOfLine (number.chars ++ (gap ++ line)) = number :: wordsOfLine line := by
  have hclear : ∀ c ∈ number.chars ++ gap, (c != ';') = true := by
    intro c hc
    rw [bne_iff_ne]
    rintro rfl
    rcases List.mem_append.mp hc with hc | hc
    · exact hmark hc
    · exact absurd (hgap ';' hc) (by decide)
  have hstart : ∀ cs, StartsBlank (gap ++ cs) := by
    intro cs c hc
    obtain ⟨b, gap, rfl⟩ := List.exists_cons_of_ne_nil hne
    obtain rfl : b = c := Option.some.inj hc
    exact hgap b List.mem_cons_self
  rw [← List.append_assoc, wordsOfLine, List.takeWhile_append_of_pos hclear, List.append_assoc,
    words_word_append hword (hstart _), words_blanks_append hgap,
    List.filterMap_cons_some number.ofChars?_chars]
  rfl

/-- The first letters of two spellings of a word are semicolons both, or neither is. -/
theorem eq_semicolon_of_toUpper {c c' : Char} (h : c'.toUpper = c.toUpper) (hc : c = ';') :
    c' = ';' := by
  subst hc
  have hnat := congrArg Char.toNat h
  have hmark : (';').toUpper.toNat = 59 := by decide
  rw [toNat_toUpper, hmark] at hnat
  rw [← Char.toNat_inj]
  change c'.toNat = 59
  split at hnat <;> omega

theorem isBlank_of_toUpper {c c' : Char} (h : c'.toUpper = c.toUpper) :
    isBlank c' = isBlank c := by
  rw [← isBlank_toUpper c', h, isBlank_toUpper]

/-- Two spellings of one letter make two spellings of one word. -/
theorem forall₂_words_letter {front : List Char} {c c' : Char}
    (hfront : ∀ b ∈ front.getLast?, isBlank b) (hc : ¬isBlank c)
    (hcase : c'.toUpper = c.toUpper) (rest : List Char) :
    List.Forall₂ Word.Alike ((words (front ++ c :: rest)).filterMap Word.ofChars?)
      ((words (front ++ c' :: rest)).filterMap Word.ofChars?) := by
  have hc' : ¬isBlank c' := by rwa [isBlank_of_toUpper hcase]
  obtain ⟨w, ws, hwords⟩ := exists_words_cons rest
  rw [words_append_of_getLast? hfront, words_append_of_getLast? hfront, hwords c hc, hwords c' hc',
    List.filterMap_append, List.filterMap_append]
  apply List.rel_append (forall₂_alike_refl _)
  exact .cons ⟨hcase, rfl⟩ (forall₂_alike_refl _)

theorem forall₂_wordsOfLine_letter {front rest : List Char} {c c' : Char}
    (hfront : ∀ b ∈ front.getLast?, isBlank b) (hc : ¬isBlank c)
    (hcase : c'.toUpper = c.toUpper) :
    List.Forall₂ Word.Alike (wordsOfLine (front ++ c :: rest))
      (wordsOfLine (front ++ c' :: rest)) := by
  unfold wordsOfLine
  rw [List.takeWhile_append, List.takeWhile_append]
  split
  · by_cases hsemicolon : c = ';'
    · rw [eq_semicolon_of_toUpper hcase hsemicolon, hsemicolon]
      exact forall₂_alike_refl _
    · have hsemicolon' : c' ≠ ';' := fun h => hsemicolon (eq_semicolon_of_toUpper hcase.symm h)
      rw [List.takeWhile_cons_of_pos (by simpa using hsemicolon),
        List.takeWhile_cons_of_pos (by simpa using hsemicolon')]
      exact forall₂_words_letter hfront hc hcase _
  · -- the letter is part of the comment
    exact forall₂_alike_refl _

/-- **One change of the spelling** leaves a line with words that are alike. -/
theorem Respelled.forall₂_alike {line line' : List Char} (h : Respelled line line') :
    List.Forall₂ Word.Alike (dropLineNumber (wordsOfLine line))
      (dropLineNumber (wordsOfLine line')) := by
  cases h with
  | comment _ text =>
    rw [((carries_wordsOfLine line).append_comment text).wordsOfLine_eq]
    exact forall₂_alike_refl _
  | blanks hcode hcode' hcomment h h' =>
    rw [wordsOfLine_of_spaced hcode hcomment h, wordsOfLine_of_spaced hcode' hcomment h']
    exact forall₂_alike_refl _
  | letter hfront hc hcase =>
    exact forall₂_dropLineNumber (forall₂_wordsOfLine_letter hfront hc hcase)
  | number h hfirst hnumber hword hmark hgap hne =>
    rw [wordsOfLine_number hword hmark hgap hne, dropLineNumber_of_begins hnumber,
      h.wordsOfLine_eq, dropLineNumber_of_not_begins hfirst]
    exact forall₂_alike_refl _

/-- Any number of changes leave words that are alike. -/
theorem forall₂_alike_of_respelled {line line' : List Char}
    (h : Relation.ReflTransGen Respelled line line') :
    List.Forall₂ Word.Alike (dropLineNumber (wordsOfLine line))
      (dropLineNumber (wordsOfLine line')) := by
  induction h with
  | refl => exact forall₂_alike_refl _
  | tail _ hstep ih => exact forall₂_alike_trans ih hstep.forall₂_alike

/-! ### Reading words that are alike -/

/-- The error about another word. -/
def WordError.about (word : String) : WordError → WordError
  | .invalidNumber _ => .invalidNumber word
  | .missingValue _ => .missingValue word
  | .negativeDuration _ => .negativeDuration word
  | .durationTooLong _ => .durationTooLong word

/-- What is read from two spellings is the same: one result, or errors of one kind that
blame the words at one place, each in its own spelling. -/
inductive Agree {α : Type} (ws ws' : List Word) : Except WordError α → Except WordError α → Prop
  /-- Both are accepted. -/
  | ok (a : α) : Agree ws ws' (.ok a) (.ok a)
  /-- Both are refused. -/
  | error {place : Nat} {u u' : Word} {e : WordError} (hu : ws[place]? = some u)
      (hu' : ws'[place]? = some u') (he : e.word = u.text) :
      Agree ws ws' (.error e) (.error (e.about u'.text))

theorem Agree.bind_ok {α β : Type} {ws ws' : List Word} {r r' : Except WordError α}
    (h : Agree ws ws' r r') (f : α → β) :
    Agree ws ws' (r >>= fun a => .ok (f a)) (r' >>= fun a => .ok (f a)) := by
  cases h with
  | ok a => exact .ok (f a)
  | error hu hu' he => exact .error hu hu' he

theorem Agree.cons {α : Type} {ws ws' : List Word} {r r' : Except WordError α}
    (h : Agree ws ws' r r') (w w' : Word) : Agree (w :: ws) (w' :: ws') r r' := by
  cases h with
  | ok a => exact .ok a
  | @error place u u' e hu hu' he =>
    have hnext : (w :: ws)[place + 1]? = some u := by rwa [List.getElem?_cons_succ]
    have hnext' : (w' :: ws')[place + 1]? = some u' := by rwa [List.getElem?_cons_succ]
    exact .error hnext hnext' he

/-- Where every step reads the same from two spellings of a word, so does the whole fold. -/
theorem agree_foldlM {β : Type} {step : β → Word → Except WordError β}
    (hstep : ∀ b {w w'}, w.Alike w' → Agree [w] [w'] (step b w) (step b w')) {ws ws' : List Word}
    (h : List.Forall₂ Word.Alike ws ws') (b : β) :
    Agree ws ws' (ws.foldlM step b) (ws'.foldlM step b) := by
  induction h generalizing b with
  | nil => exact .ok b
  | @cons w w' ws ws' hw hrest ih =>
    rw [List.foldlM_cons, List.foldlM_cons]
    have hfirst := hstep b hw
    generalize step b w = r at hfirst
    generalize step b w' = r' at hfirst
    cases hfirst with
    | ok b' => exact (ih b').cons w w'
    | @error place u u' e hu hu' he =>
      -- there is one place only
      cases place with
      | zero =>
        have hhead : (w :: ws)[0]? = some u := hu
        exact .error hhead hu' he
      | succ place => cases hu

theorem agree_error {α : Type} {w : Word} {e : WordError} (w' : Word) (he : e.word = w.text) :
    Agree [w] [w'] (.error e : Except WordError α) (.error (e.about w'.text)) := by
  have hhead : [w][0]? = some w := rfl
  exact .error hhead rfl he

namespace Word.Alike

variable {w w' : Word}

theorem value?_eq (h : w.Alike w') : w'.value? = w.value? := by
  rw [Word.value?, h.value, ← Word.value?]

theorem fault_eq (h : w.Alike w') : w'.fault = w.fault.about w'.text := by
  unfold Word.fault
  rw [h.value]
  split <;> rfl

theorem refuses_eq (h : w.Alike w') (c : Command) : c.refuses w' = c.refuses w := by
  rw [Command.refuses, Command.reads, h.letter, h.value?_eq, ← Command.reads, ← Command.refuses]

/-- A step that looks at the letter and the value alone reads the same from both. -/
theorem agree_ite {β : Type} (h : w.Alike w') (c : Command) (b : β) :
    Agree [w] [w'] (if c.refuses w then .error w.fault else .ok b)
      (if c.refuses w' then .error w'.fault else .ok b) := by
  rw [h.refuses_eq, h.fault_eq]
  split
  · exact agree_error w' w.word_fault
  · exact .ok b

theorem coordinatesNext_eq (h : w.Alike w') (c : Coordinates) :
    coordinatesNext c w' = coordinatesNext c w := by
  unfold coordinatesNext
  rw [h.letter, h.value?_eq]

theorem agree_coordinateStep (h : w.Alike w') (c : Coordinates) :
    Agree [w] [w'] (coordinateStep c w) (coordinateStep c w') := by
  rw [coordinateStep_eq, coordinateStep_eq, h.coordinatesNext_eq]
  exact h.agree_ite .setPosition _

theorem moveNext_eq (h : w.Alike w') (m : Move) : moveNext m w' = moveNext m w := by
  unfold moveNext Word.setsFeed
  rw [h.coordinatesNext_eq, h.letter, h.value?_eq]

theorem agree_moveStep (h : w.Alike w') (m : Move) :
    Agree [w] [w'] (moveStep m w) (moveStep m w') := by
  rw [moveStep_eq, moveStep_eq, h.moveNext_eq]
  exact h.agree_ite .move _

theorem agree_pauseStep (h : w.Alike w') (micros : Binary64) :
    Agree [w] [w'] (pauseStep micros w) (pauseStep micros w') := by
  cases hunit : millisPerUnit? w.letter with
  | none =>
    rw [pauseStep_of_other hunit, pauseStep_of_other (h.letter ▸ hunit)]
    exact .ok micros
  | some unit =>
    have hunit' : millisPerUnit? w'.letter = some unit := by rw [h.letter, hunit]
    cases hvalue : w.value? with
    | none =>
      rw [pauseStep_of_value?_eq_none hunit hvalue,
        pauseStep_of_value?_eq_none hunit' (h.value?_eq.trans hvalue), h.fault_eq]
      exact agree_error w' w.word_fault
    | some v =>
      rw [pauseStep_of_value? hunit hvalue, pauseStep_of_value? hunit' (h.value?_eq.trans hvalue)]
      split
      · exact agree_error (e := .negativeDuration w.text) w' rfl
      · split
        · exact agree_error (e := .durationTooLong w.text) w' rfl
        · exact .ok _

end Word.Alike

theorem axesOf_eq_of_alike {ws ws' : List Word} (h : List.Forall₂ Word.Alike ws ws') :
    axesOf ws' = axesOf ws := by
  have hfold : ∀ axes, ws'.foldl axisStep axes = ws.foldl axisStep axes := by
    intro axes
    induction h generalizing axes with
    | nil => rfl
    | cons hw hrest ih =>
      rw [List.foldl_cons, List.foldl_cons, ih, axisStep_eq, axisStep_eq, hw.letter]
  rw [axesOf, hfold, ← axesOf]

namespace Command

/-- **Commands read the same from words that are alike.** -/
theorem agree_instruction {ws ws' : List Word} (h : List.Forall₂ Word.Alike ws ws')
    (c : Command) : Agree ws ws' (c.instruction ws) (c.instruction ws') := by
  cases c with
  | move => exact (agree_foldlM (fun m _ _ hw => hw.agree_moveStep m) h {}).bind_ok _
  | pause => exact (agree_foldlM (fun micros _ _ hw => hw.agree_pauseStep micros) h 0).bind_ok _
  | setPosition =>
    exact (agree_foldlM (fun c _ _ hw => hw.agree_coordinateStep c) h {}).bind_ok _
  | home =>
    change Agree ws ws' (.ok (Instruction.home (axesOf ws)))
      (.ok (Instruction.home (axesOf ws')))
    rw [axesOf_eq_of_alike h]
    exact .ok _
  | release =>
    change Agree ws ws' (.ok (Instruction.release (axesOf ws)))
      (.ok (Instruction.release (axesOf ws')))
    rw [axesOf_eq_of_alike h]
    exact .ok _
  | absolute => exact .ok _
  | relative => exact .ok _

theorem ofWord?_eq_of_alike {w w' : Word} (h : w.Alike w') : ofWord? w' = ofWord? w := by
  rw [ofWord?, ofWord?, h.letter, h.value]

end Command

end Gcode

namespace Instruction

open Gcode

/-- **A line means the same in every spelling.**  Comments behind it, other blanks, letters
in the other case and a line number, in any combination, leave its words alike.  What is
read from them is the same instruction or none in both, or else the same kind of error for
the words at the same place, each as it is spelled. -/
theorem ofLine?_respelled {line line' : String}
    (h : Relation.ReflTransGen Respelled line.toList line'.toList) :
    ∃ ws ws', Instructs line.toList ws ∧ Instructs line'.toList ws' ∧
      List.Forall₂ Word.Alike ws ws' ∧ Agree ws ws' (ofLine? line) (ofLine? line') := by
  have halike := forall₂_alike_of_respelled h
  refine ⟨_, _, instructs_iff.mpr rfl, instructs_iff.mpr rfl, halike, ?_⟩
  unfold ofLine? instructionOf?
  generalize dropLineNumber (wordsOfLine line.toList) = ws at halike
  generalize dropLineNumber (wordsOfLine line'.toList) = ws' at halike
  cases halike with
  | nil => exact .ok none
  | @cons w w' params params' hw hparams =>
    simp only [Command.ofWord?_eq_of_alike hw]
    cases Command.ofWord? w with
    | none => exact .ok none
    | some c => exact ((c.agree_instruction hparams).cons w w').bind_ok some

/-- A line with a bad number, and the same line with a number, in lower case, with a
tabulator and with a comment. -/
theorem ofLine?_respelled_of_bad_number :
    Relation.ReflTransGen Respelled "G1 Xq".toList "N5 g1\txq ;c".toList ∧
      ofLine? "G1 Xq" = .error (.invalidNumber "Xq") ∧
      ofLine? "N5 g1\txq ;c" = .error (.invalidNumber "xq") ∧
      ∃ ws ws', Instructs "G1 Xq".toList ws ∧ Instructs "N5 g1\txq ;c".toList ws' ∧
        List.Forall₂ Word.Alike ws ws' ∧
        Agree ws ws' (ofLine? "G1 Xq") (ofLine? "N5 g1\txq ;c") := by
  have hcommand : Respelled ([] ++ 'G' :: "1 Xq".toList) ([] ++ 'g' :: "1 Xq".toList) :=
    .letter nofun (by decide) (by decide)
  have hfront : ∀ b ∈ "g1 ".toList.getLast?, isBlank b := by
    intro b hb
    obtain rfl : ' ' = b := Option.some.inj hb
    decide
  have hparam : Respelled ("g1 ".toList ++ 'X' :: ['q']) ("g1 ".toList ++ 'x' :: ['q']) :=
    .letter hfront (by decide) (by decide)
  have hwords : Spaced [['g', '1'], ['x', 'q']] "g1 xq".toList := words_eq_iff.mp (by decide)
  have hwords' : Spaced [['g', '1'], ['x', 'q']] "g1\txq ".toList := words_eq_iff.mp (by decide)
  have hblanks : Respelled ("g1 xq".toList ++ []) ("g1\txq ".toList ++ []) :=
    .blanks (by decide) (by decide) nofun hwords hwords'
  have hcarries : Carries [⟨'g', ['1']⟩, ⟨'x', ['q']⟩] "g1\txq ".toList :=
    carries_iff.mpr (by decide)
  have hword : IsWord (Word.mk 'N' ['5']).chars :=
    ⟨by decide, by simp [Word.chars, isBlank, blankRanges]⟩
  have hgap : Blanks [' '] := by simp [Blanks, isBlank, blankRanges]
  have hnumber :
      Respelled "g1\txq ".toList ((Word.mk 'N' ['5']).chars ++ ([' '] ++ "g1\txq ".toList)) :=
    .number hcarries (by decide) (by decide) hword (by decide) hgap (by decide)
  have hcomment : Respelled "N5 g1\txq ".toList "N5 g1\txq ;c".toList := .comment _ ['c']
  have hchain : Relation.ReflTransGen Respelled "G1 Xq".toList "N5 g1\txq ;c".toList :=
    (((Relation.ReflTransGen.single hcommand).tail hparam).tail hblanks).tail hnumber |>.tail
      hcomment
  exact ⟨hchain, by decide +kernel, by decide +kernel, ofLine?_respelled hchain⟩

end Instruction

end TachoPrint
