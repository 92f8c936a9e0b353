import TachoPrint.Gcode.Program
import TachoPrint.Proofs.Gcode.Numbers
import TachoPrint.Proofs.Gcode.Words

/-!
# Reading line by line

A program is read a line at a time, and what a line holds does not depend on the lines
around it.  So the instructions of two texts, one behind the other, are those of the first
and then those of the second, and the errors of the second count their lines from the end
of the first.

Text is cut into lines before it is decoded: a line feed is never part of the encoding of
another character.

## Main definitions

* `ProgramError.renumber` — an error with its line counted differently.
* `Gcode.EndsLine` — bytes that stop at the end of a line.
* `Gcode.Readable`, `Gcode.Refused` — what reading makes of a line.
* `Gcode.Skipped` — a line that is read without giving an instruction.
* `Gcode.withReturns` — a carriage return in front of every line feed.

## Main results

* `Gcode.splitLines_append` — the lines of two texts, one behind the other.
* `Gcode.ofBytes_append` — **so are the instructions, with the lines of errors counted on.**
* `Gcode.ofBytes_eq_error_iff` — **the error is that of the first line that is refused.**
* `Instruction.ofBytes_linewise` — **reading goes line by line.**
-/

namespace TachoPrint

/-- The error with its line renumbered. -/
def ProgramError.renumber (f : Nat → Nat) : ProgramError → ProgramError
  | closed path cause => closed path cause
  | unreadable line cause => unreadable (f line) cause
  | malformed line cause => malformed (f line) cause

theorem ProgramError.renumber_renumber (f g : Nat → Nat) (e : ProgramError) :
    (e.renumber f).renumber g = e.renumber (g ∘ f) := by
  cases e <;> rfl

/-! ### Pieces -/

section Pieces

variable {α : Type} [DecidableEq α] {mark : α}

@[simp] theorem pieces_nil : pieces mark ([] : List α) = [[]] := rfl

@[simp] theorem pieces_cons_mark (xs : List α) :
    pieces mark (mark :: xs) = [] :: pieces mark xs := by
  simp [pieces, pieceStep]

theorem pieces_cons_of_ne {x : α} {xs p : List α} {ps : List (List α)} (hx : x ≠ mark)
    (hp : pieces mark xs = p :: ps) : pieces mark (x :: xs) = (x :: p) :: ps := by
  obtain ⟨rfl, rfl⟩ := List.cons.inj hp
  simp [pieces, pieceStep, hx]

theorem exists_pieces_eq (mark : α) (xs : List α) : ∃ p ps, pieces mark xs = p :: ps :=
  ⟨_, _, rfl⟩

theorem exists_pieces_eq_concat (mark : α) (xs : List α) :
    ∃ front last, pieces mark xs = front ++ [last] := by
  obtain h | ⟨front, last, h⟩ := List.eq_nil_or_concat (pieces mark xs)
  · exact absurd h (pieces_ne_nil mark xs)
  · exact ⟨front, last, by rw [h, List.concat_eq_append]⟩

/-- A mark separates the pieces in front of it from those behind it. -/
@[simp] theorem pieces_append_mark (xs ys : List α) :
    pieces mark (xs ++ mark :: ys) = pieces mark xs ++ pieces mark ys := by
  induction xs with
  | nil => simp
  | cons x xs ih =>
    rw [List.cons_append]
    obtain ⟨p, ps, hp⟩ := exists_pieces_eq mark xs
    by_cases hx : x = mark
    · subst hx
      simp [ih]
    · rw [pieces_cons_of_ne hx hp,
        pieces_cons_of_ne hx (by rw [ih, hp, List.cons_append]), List.cons_append]

@[simp] theorem length_pieces (xs : List α) : (pieces mark xs).length = xs.count mark + 1 := by
  induction xs with
  | nil => rfl
  | cons x xs ih =>
    obtain ⟨p, ps, hp⟩ := exists_pieces_eq mark xs
    by_cases hx : x = mark
    · subst hx
      simp [ih]
    · rw [pieces_cons_of_ne hx hp, List.count_cons_of_ne hx, ← ih, hp]
      rfl

end Pieces

namespace Gcode

/-! ### Lines of bytes -/

/-- There are no bytes, or the last of them is a line feed. -/
def EndsLine (a : List UInt8) : Prop := a = [] ∨ a.getLast? = some 10

instance (a : List UInt8) : Decidable (EndsLine a) := inferInstanceAs (Decidable (_ ∨ _))

theorem EndsLine.eq {a : List UInt8} (h : EndsLine a) : a = [] ∨ ∃ c, a = c ++ [10] :=
  h.imp_right List.getLast?_eq_some_iff.mp

/-- A line feed ends every piece in front of it. -/
theorem splitLines_concat_lineFeed (c : List UInt8) :
    splitLines (c ++ [10]) = (pieces 10 c).map dropReturn := by
  rw [splitLines, pieces_append_mark, pieces_nil]
  simp

/-- The lines of two texts are those of the first and then those of the second. -/
theorem splitLines_append {a : List UInt8} (ha : EndsLine a) (b : List UInt8) :
    splitLines (a ++ b) = splitLines a ++ splitLines b := by
  obtain rfl | ⟨c, rfl⟩ := ha.eq
  · rfl
  · obtain ⟨front, last, hb⟩ := exists_pieces_eq_concat (10 : UInt8) b
    rw [splitLines_concat_lineFeed, List.append_assoc, List.singleton_append, splitLines,
      pieces_append_mark, splitLines, hb]
    simp [← List.append_assoc]

theorem length_splitLines {a : List UInt8} (ha : EndsLine a) :
    (splitLines a).length = a.count 10 := by
  obtain rfl | ⟨c, rfl⟩ := ha.eq
  · rfl
  · rw [splitLines_concat_lineFeed, List.length_map, length_pieces, List.count_append]
    rfl

/-! ### Lines one after the other -/

theorem instructionOfBytes?_of_none {line : List UInt8} (h : textOfBytes? line = none) (n : Nat) :
    instructionOfBytes? n line = .error (.unreadable n .notText) := by
  rw [instructionOfBytes?, h]

theorem instructionOfBytes?_of_some {line : List UInt8} {text : String}
    (h : textOfBytes? line = some text) (n : Nat) :
    instructionOfBytes? n line = (Instruction.ofLine? text).mapError (.malformed n) := by
  rw [instructionOfBytes?, h]

theorem instructionOfBytes?_add (n k : Nat) (line : List UInt8) :
    instructionOfBytes? (n + k) line =
      (instructionOfBytes? n line).mapError (·.renumber (· + k)) := by
  cases htext : textOfBytes? line with
  | none => rw [instructionOfBytes?_of_none htext, instructionOfBytes?_of_none htext]; rfl
  | some text =>
    rw [instructionOfBytes?_of_some htext, instructionOfBytes?_of_some htext]
    cases Instruction.ofLine? text <;> rfl

/-- Instructions already read come first. -/
theorem instructionsFrom_read (read : List Instruction) (n : Nat) (lines : List (List UInt8)) :
    instructionsFrom read n lines = (instructionsFrom [] n lines).map (read.reverse ++ ·) := by
  induction lines generalizing read n with
  | nil => simp [instructionsFrom, Except.map]
  | cons line lines ih =>
    simp only [instructionsFrom]
    cases instructionOfBytes? n line with
    | error e => rfl
    | ok found =>
      cases found with
      | none => exact ih read (n + 1)
      | some i =>
        simp only
        rw [ih (i :: read), ih [i]]
        cases instructionsFrom [] (n + 1) lines <;> simp [Except.map]

/-- Counting lines from further on changes the errors alone. -/
theorem instructionsFrom_add (read : List Instruction) (n k : Nat) (lines : List (List UInt8)) :
    instructionsFrom read (n + k) lines =
      (instructionsFrom read n lines).mapError (·.renumber (· + k)) := by
  induction lines generalizing read n with
  | nil => rfl
  | cons line lines ih =>
    simp only [instructionsFrom]
    rw [instructionOfBytes?_add, Nat.add_right_comm]
    cases instructionOfBytes? n line with
    | error e => rfl
    | ok found =>
      cases found with
      | none => exact ih read (n + 1)
      | some i => exact ih (i :: read) (n + 1)

theorem instructionsFrom_append (read : List Instruction) (n : Nat)
    (first second : List (List UInt8)) :
    instructionsFrom read n (first ++ second) =
      (instructionsFrom read n first >>= fun p =>
        instructionsFrom p.reverse (n + first.length) second) := by
  induction first generalizing read n with
  | nil => simp [instructionsFrom, bind, Except.bind]
  | cons line first ih =>
    rw [List.cons_append, List.length_cons, Nat.add_comm first.length, ← Nat.add_assoc]
    simp only [instructionsFrom]
    cases instructionOfBytes? n line with
    | error e => rfl
    | ok found =>
      cases found with
      | none => exact ih read (n + 1)
      | some i => exact ih (i :: read) (n + 1)

/-- **Instructions of two texts are those of the first and then those of the second, with
the lines of errors counted on.** -/
theorem ofBytes_append {a : List UInt8} (ha : EndsLine a) (b : List UInt8) :
    Instruction.ofBytes (a ++ b) = (do
      let xs ← Instruction.ofBytes a
      let ys ← (Instruction.ofBytes b).mapError (·.renumber (· + a.count 10))
      return xs ++ ys) := by
  unfold Instruction.ofBytes
  rw [splitLines_append ha, instructionsFrom_append, length_splitLines ha]
  cases instructionsFrom [] 1 (splitLines a) with
  | error e => rfl
  | ok xs =>
    simp only [bind, Except.bind]
    rw [instructionsFrom_read, instructionsFrom_add, List.reverse_reverse]
    cases instructionsFrom [] 1 (splitLines b) <;> rfl

/-! ### The first line that is refused -/

/-- The line is text, and its words parse. -/
def Readable (line : List UInt8) : Prop :=
  ∃ text found, textOfBytes? line = some text ∧ Instruction.ofLine? text = .ok found

/-- The line of that number is refused with an error. -/
inductive Refused (number : Nat) (line : List UInt8) : ProgramError → Prop
  /-- It is no text. -/
  | notText (h : textOfBytes? line = none) : Refused number line (.unreadable number .notText)
  /-- It does not parse. -/
  | malformed {text : String} {cause : WordError} (htext : textOfBytes? line = some text)
      (h : Instruction.ofLine? text = .error cause) : Refused number line (.malformed number cause)

theorem readable_iff {n : Nat} {line : List UInt8} :
    Readable line ↔ ∃ found, instructionOfBytes? n line = .ok found := by
  constructor
  · rintro ⟨text, found, htext, hfound⟩
    refine ⟨found, ?_⟩
    rw [instructionOfBytes?_of_some htext, hfound]
    rfl
  · rintro ⟨found, h⟩
    cases htext : textOfBytes? line with
    | none =>
      rw [instructionOfBytes?_of_none htext] at h
      cases h
    | some text =>
      rw [instructionOfBytes?_of_some htext] at h
      cases hline : Instruction.ofLine? text with
      | error cause =>
        rw [hline] at h
        cases h
      | ok found' => exact ⟨text, found', htext, hline⟩

@[grind =] theorem refused_iff {n : Nat} {line : List UInt8} {e : ProgramError} :
    Refused n line e ↔ instructionOfBytes? n line = .error e := by
  constructor
  · rintro (htext | ⟨htext, h⟩)
    · exact instructionOfBytes?_of_none htext n
    · rw [instructionOfBytes?_of_some htext, h]
      rfl
  · intro h
    cases htext : textOfBytes? line with
    | none =>
      rw [instructionOfBytes?_of_none htext] at h
      obtain rfl := Except.error.inj h
      exact .notText htext
    | some text =>
      rw [instructionOfBytes?_of_some htext] at h
      cases hline : Instruction.ofLine? text with
      | error cause =>
        rw [hline] at h
        obtain rfl := Except.error.inj h
        exact .malformed htext hline
      | ok found =>
        rw [hline] at h
        cases h

/-- Lines give the error of the first one that is refused. -/
theorem instructionsFrom_eq_error_iff {read : List Instruction} {n : Nat}
    {lines : List (List UInt8)} {e : ProgramError} :
    instructionsFrom read n lines = .error e ↔
      ∃ before line after, lines = before ++ line :: after ∧ (∀ l ∈ before, Readable l) ∧
        Refused (n + before.length) line e := by
  constructor
  · intro h
    induction lines generalizing read n with
    | nil => cases h
    | cons line lines ih =>
      simp only [instructionsFrom] at h
      cases hline : instructionOfBytes? n line with
      | error e' =>
        rw [hline] at h
        obtain rfl := Except.error.inj h
        exact ⟨[], line, lines, rfl, List.forall_mem_nil _, refused_iff.mpr hline⟩
      | ok found =>
        have hreadable : Readable line := readable_iff.mpr ⟨found, hline⟩
        have hrest : ∃ read', instructionsFrom read' (n + 1) lines = .error e := by
          rw [hline] at h
          cases found with
          | none => exact ⟨_, h⟩
          | some i => exact ⟨_, h⟩
        obtain ⟨read', hrest⟩ := hrest
        obtain ⟨before, bad, after, rfl, hbefore, hbad⟩ := ih hrest
        refine ⟨line :: before, bad, after, rfl, List.forall_mem_cons.mpr ⟨hreadable, hbefore⟩, ?_⟩
        rwa [List.length_cons, Nat.add_comm before.length, ← Nat.add_assoc]
  · rintro ⟨before, line, after, rfl, hbefore, hline⟩
    induction before generalizing read n with
    | nil =>
      have hstop : instructionOfBytes? n line = .error e := refused_iff.mp hline
      simp only [List.nil_append, instructionsFrom, hstop]
    | cons l before ih =>
      obtain ⟨hl, hbefore⟩ := List.forall_mem_cons.mp hbefore
      obtain ⟨found, hfound⟩ := (readable_iff (n := n)).mp hl
      rw [List.length_cons, Nat.add_comm before.length, ← Nat.add_assoc] at hline
      simp only [List.cons_append, instructionsFrom, hfound]
      cases found with
      | none => exact ih hbefore hline
      | some i => exact ih hbefore hline

/-- **The error of a program is that of the first line that is refused.** -/
theorem ofBytes_eq_error_iff {bytes : List UInt8} {e : ProgramError} :
    Instruction.ofBytes bytes = .error e ↔
      ∃ before line after, splitLines bytes = before ++ line :: after ∧
        (∀ l ∈ before, Readable l) ∧ Refused (before.length + 1) line e := by
  simp only [Instruction.ofBytes, instructionsFrom_eq_error_iff, Nat.add_comm 1]

/-- Errors in bytes that end a line lie on one of their lines. -/
theorem renumber_of_ofBytes_error {a : List UInt8} {e : ProgramError} (ha : EndsLine a)
    (h : Instruction.ofBytes a = .error e) {f : Nat → Nat}
    (hf : ∀ line ≤ a.count 10, f line = line) : e.renumber f = e := by
  obtain ⟨before, line, after, hlines, -, hline⟩ := ofBytes_eq_error_iff.mp h
  have hle : before.length + 1 ≤ a.count 10 := by
    rw [← length_splitLines ha, hlines, List.length_append, List.length_cons]
    omega
  cases hline with
  | notText => simp only [ProgramError.renumber, hf _ hle]
  | malformed => simp only [ProgramError.renumber, hf _ hle]

/-- The first line has number one. -/
theorem renumber_congr_of_ofBytes_error {b : List UInt8} {e : ProgramError}
    (h : Instruction.ofBytes b = .error e) {f g : Nat → Nat}
    (hfg : ∀ line, 0 < line → f line = g line) : e.renumber f = e.renumber g := by
  obtain ⟨before, line, after, -, -, hline⟩ := ofBytes_eq_error_iff.mp h
  have hpos : 0 < before.length + 1 := by omega
  cases hline with
  | notText => simp only [ProgramError.renumber, hfg _ hpos]
  | malformed => simp only [ProgramError.renumber, hfg _ hpos]

/-! ### Lines without an instruction -/

/-- The text of a line that gives no instruction. -/
inductive SkippedText (text : List Char) : Prop
  /-- It is blank. -/
  | blank (h : ∀ c ∈ text, isBlank c)
  /-- It is a comment, possibly behind blanks. -/
  | comment (front rest : List Char) (htext : text = front ++ ';' :: rest)
      (h : ∀ c ∈ front, isBlank c)
  /-- Its command is outside the table. -/
  | unsupported (w : Word) (params : List Word)
      (hwords : dropLineNumber (wordsOfLine text) = w :: params) (h : Command.ofWord? w = none)

/-- A line of text that is blank, a comment or a command outside the table. -/
def Skipped (line : List UInt8) : Prop :=
  ∃ text, textOfBytes? line = some text ∧ SkippedText text.toList

/-- Blanks in front of a comment are no words. -/
theorem wordsOfLine_blanks {front comment : List Char} (h : Blanks front)
    (hcomment : ∀ c ∈ comment.head?, c = ';') : wordsOfLine (front ++ comment) = [] := by
  have hmark : ';' ∉ front := fun hmem => absurd (h ';' hmem) (by decide)
  exact wordsOfLine_of_spaced hmark hcomment (.blanks h)

@[simp] theorem SkippedText.instructionOf? {text : List Char} (h : SkippedText text) :
    instructionOf? (wordsOfLine text) = .ok none := by
  cases h with
  | blank h =>
    have hnone : ∀ c ∈ ([] : List Char).head?, c = ';' := nofun
    rw [← List.append_nil text, wordsOfLine_blanks h hnone]
    rfl
  | comment front rest htext h =>
    have hmark : ∀ c ∈ (';' :: rest).head?, c = ';' := fun c hc => (Option.some.inj hc).symm
    rw [htext, wordsOfLine_blanks h hmark]
    rfl
  | unsupported w params hwords h =>
    unfold Gcode.instructionOf?
    rw [hwords]
    simp only [h]
    rfl

@[simp] theorem Skipped.instructionOfBytes? {line : List UInt8} (h : Skipped line) (n : Nat) :
    instructionOfBytes? n line = .ok none := by
  obtain ⟨text, htext, hskipped⟩ := h
  rw [instructionOfBytes?_of_some htext, Instruction.ofLine?, hskipped.instructionOf?]
  rfl

theorem instructionsFrom_of_skipped {lines : List (List UInt8)} (h : ∀ l ∈ lines, Skipped l)
    (read : List Instruction) (n : Nat) : instructionsFrom read n lines = .ok read.reverse := by
  induction lines generalizing n with
  | nil => rfl
  | cons line lines ih =>
    obtain ⟨hline, hlines⟩ := List.forall_mem_cons.mp h
    simp only [instructionsFrom, hline.instructionOfBytes? n]
    exact ih hlines (n + 1)

/-- **Lines without an instruction only move the lines behind them.** -/
theorem ofBytes_insert {a s : List UInt8} (ha : EndsLine a) (hs : EndsLine s)
    (hskipped : ∀ l ∈ splitLines s, Skipped l) (b : List UInt8) :
    Instruction.ofBytes (a ++ s ++ b) =
      (Instruction.ofBytes (a ++ b)).mapError
        (·.renumber fun line => if line ≤ a.count 10 then line else line + s.count 10) := by
  have hnone : Instruction.ofBytes s = .ok [] := instructionsFrom_of_skipped hskipped [] 1
  rw [List.append_assoc, ofBytes_append ha, ofBytes_append ha, ofBytes_append hs, hnone]
  cases hxs : Instruction.ofBytes a with
  | error e =>
    have hstay := renumber_of_ofBytes_error ha hxs
      (f := fun line => if line ≤ a.count 10 then line else line + s.count 10)
      fun line hle => if_pos hle
    simp only [bind, Except.bind, Except.mapError, hstay]
  | ok xs =>
    cases hys : Instruction.ofBytes b with
    | error e =>
      simp only [bind, Except.bind, Except.mapError, ProgramError.renumber_renumber]
      refine congrArg Except.error (renumber_congr_of_ofBytes_error hys ?_)
      intro line hpos
      simp only [Function.comp_apply]
      rw [if_neg (by omega)]
      omega
    | ok ys => rfl

/-! ### Carriage returns and the last line -/

/-- A text is read from its encoding and from nothing else. -/
theorem textOfBytes?_eq_some_iff {bytes : List UInt8} {text : String} :
    textOfBytes? bytes = some text ↔ text.toList.flatMap String.utf8EncodeChar = bytes := by
  have hencode : text.toByteArray = (text.toList.flatMap String.utf8EncodeChar).toByteArray := by
    conv => lhs; rw [← String.ofList_toList (s := text), String.toByteArray_ofList]
    rfl
  have hbytes : text.toByteArray = ⟨bytes.toArray⟩ ↔
      text.toList.flatMap String.utf8EncodeChar = bytes := by
    rw [hencode, ByteArray.ext_iff, List.data_toByteArray]
    simp
  rw [← hbytes, textOfBytes?, String.fromUTF8?]
  split
  · rw [Option.some.injEq, ← String.toByteArray_inj, eq_comm]
    rfl
  · next hinvalid => exact ⟨nofun, fun h => absurd (h ▸ text.isValidUTF8) hinvalid⟩

/-- Only the first byte of an encoded character is below 128. -/
theorem utf8EncodeChar_eq_concat_return {c : Char} {front : List UInt8}
    (h : String.utf8EncodeChar c = front ++ [13]) : front = [] := by
  have hlt : front.length < (String.utf8EncodeChar c).length := by simp [h]
  have hlast : (String.utf8EncodeChar c)[front.length] = 13 := by simp [h]
  have hfirst : (String.utf8EncodeChar c)[front.length].IsUTF8FirstByte := by
    rw [hlast]
    decide
  exact List.eq_nil_of_length_eq_zero (UInt8.isUTF8FirstByte_getElem_utf8EncodeChar.mp hfirst)

theorem exists_text_of_concat_return {line : List UInt8} {text : String}
    (h : textOfBytes? (line ++ [13]) = some text) :
    ∃ front, textOfBytes? line = some front := by
  rw [textOfBytes?_eq_some_iff] at h
  obtain hnil | ⟨cs, c, hcs⟩ := List.eq_nil_or_concat text.toList
  · rw [hnil] at h
    simp at h
  · obtain hc | ⟨bs, b, hb⟩ := List.eq_nil_or_concat (String.utf8EncodeChar c)
    · exact absurd hc String.utf8EncodeChar_ne_nil
    · rw [List.concat_eq_append] at hcs hb
      rw [hcs, List.flatMap_append, List.flatMap_singleton, hb, ← List.append_assoc] at h
      obtain ⟨hline, hb13⟩ := List.append_inj' h rfl
      obtain rfl := List.singleton_inj.mp hb13
      rw [utf8EncodeChar_eq_concat_return hb, List.append_nil] at hline
      exact ⟨String.ofList cs, textOfBytes?_eq_some_iff.mpr (by rwa [String.toList_ofList])⟩

/-- A carriage return behind a line stands for itself. -/
@[simp] theorem textOfBytes?_concat_return (line : List UInt8) :
    textOfBytes? (line ++ [13]) = (textOfBytes? line).map (· ++ "\r") := by
  cases h : textOfBytes? line with
  | none =>
    cases hreturn : textOfBytes? (line ++ [13]) with
    | none => rfl
    | some text =>
      obtain ⟨front, hfront⟩ := exists_text_of_concat_return hreturn
      rw [h] at hfront
      cases hfront
  | some text =>
    rw [Option.map_some, textOfBytes?_eq_some_iff, String.toList_append, List.flatMap_append,
      textOfBytes?_eq_some_iff.mp h]
    rfl

/-- A blank at the end of a line separates no words. -/
theorem wordsOfLine_concat_blank (cs : List Char) {c : Char} (hc : isBlank c) (hmark : c ≠ ';') :
    wordsOfLine (cs ++ [c]) = wordsOfLine cs := by
  unfold wordsOfLine
  rw [List.takeWhile_append]
  split
  · next hall =>
    rw [List.takeWhile_cons_of_pos (by simpa using hmark), List.takeWhile_nil,
      words_append_blank cs hc [], (List.takeWhile_prefix _).eq_of_length hall]
    exact congrArg _ (List.append_nil _)
  · rfl

@[simp] theorem instructionOfBytes?_concat_return (n : Nat) (line : List UInt8) :
    instructionOfBytes? n (line ++ [13]) = instructionOfBytes? n line := by
  unfold instructionOfBytes?
  rw [textOfBytes?_concat_return]
  cases textOfBytes? line with
  | none => rfl
  | some text =>
    have hwords : wordsOfLine (text ++ "\r").toList = wordsOfLine text.toList := by
      rw [String.toList_append]
      exact wordsOfLine_concat_blank _ (by decide) (by decide)
    simp only [Option.map_some, Instruction.ofLine?, hwords]

@[simp] theorem instructionOfBytes?_dropReturn (n : Nat) (line : List UInt8) :
    instructionOfBytes? n (dropReturn line) = instructionOfBytes? n line := by
  unfold dropReturn
  split
  · next h =>
    obtain ⟨front, rfl⟩ := List.getLast?_eq_some_iff.mp h
    rw [List.dropLast_concat, instructionOfBytes?_concat_return]
  · rfl

/-- Lines may be replaced by lines that give the same. -/
theorem instructionsFrom_map {f : List UInt8 → List UInt8}
    (hf : ∀ n line, instructionOfBytes? n (f line) = instructionOfBytes? n line)
    (read : List Instruction) (n : Nat) (lines : List (List UInt8)) :
    instructionsFrom read n (lines.map f) = instructionsFrom read n lines := by
  induction lines generalizing read n with
  | nil => rfl
  | cons line lines ih => simp only [List.map_cons, instructionsFrom, hf, ih]

@[simp] theorem instructionsFrom_concat_nil (read : List Instruction) (n : Nat)
    (lines : List (List UInt8)) :
    instructionsFrom read n (lines ++ [[]]) = instructionsFrom read n lines := by
  have hblank : ∀ l ∈ [([] : List UInt8)], Skipped l := by
    intro l hl
    obtain rfl := List.mem_singleton.mp hl
    exact ⟨"", textOfBytes?_eq_some_iff.mpr rfl, .blank nofun⟩
  rw [instructionsFrom_append]
  cases instructionsFrom read n lines with
  | error e => rfl
  | ok p =>
    simp only [bind, Except.bind]
    rw [instructionsFrom_of_skipped hblank, List.reverse_reverse]

/-- The pieces between line feeds are read like lines. -/
theorem ofBytes_eq_pieces (bytes : List UInt8) :
    Instruction.ofBytes bytes = instructionsFrom [] 1 (pieces 10 bytes) := by
  obtain ⟨front, last, hpieces⟩ := exists_pieces_eq_concat (10 : UInt8) bytes
  rw [Instruction.ofBytes, splitLines, hpieces, List.dropLast_concat, List.getLast?_concat]
  by_cases hlast : last = []
  · have hdropped : (some last).toList.filter (· ≠ []) = [] := by simp [hlast]
    rw [hdropped, List.append_nil, hlast, instructionsFrom_concat_nil,
      instructionsFrom_map instructionOfBytes?_dropReturn]
  · have hkept : (some last).toList.filter (· ≠ []) = [last] := by simp [hlast]
    rw [hkept, instructionsFrom_append, instructionsFrom_append, List.length_map,
      instructionsFrom_map instructionOfBytes?_dropReturn]

/-- Every line feed with a carriage return in front. -/
def withReturns (bytes : List UInt8) : List UInt8 :=
  bytes.flatMap fun c => if c = 10 then [13, 10] else [c]

/-- A carriage return in front of a line feed ends the piece in front of both. -/
theorem pieces_withReturns {bytes last : List UInt8} {front : List (List UInt8)}
    (h : pieces 10 bytes = front ++ [last]) :
    pieces 10 (withReturns bytes) = front.map (· ++ [13]) ++ [last] := by
  induction bytes generalizing front last with
  | nil =>
    obtain ⟨rfl, hlast⟩ := List.append_inj' ((List.nil_append _).trans h) rfl
    obtain rfl := List.singleton_inj.mp hlast
    rfl
  | cons c bytes ih =>
    obtain ⟨front', last', hb⟩ := exists_pieces_eq_concat (10 : UInt8) bytes
    have hrest := ih hb
    by_cases hc : c = 10
    · subst hc
      rw [pieces_cons_mark, hb, ← List.cons_append] at h
      obtain ⟨rfl, hlast⟩ := List.append_inj' h rfl
      obtain rfl := List.singleton_inj.mp hlast
      exact pieces_cons_of_ne (by decide) ((pieces_cons_mark _).trans (congrArg _ hrest))
    · have hstep : withReturns (c :: bytes) = c :: withReturns bytes := by
        simp [withReturns, hc]
      rw [hstep]
      -- the first piece takes the byte: the last piece, if it is the only one
      cases front' with
      | nil =>
        rw [pieces_cons_of_ne hc hb] at h
        obtain ⟨rfl, hlast⟩ := List.append_inj' ((List.nil_append _).trans h) rfl
        obtain rfl := List.singleton_inj.mp hlast
        exact pieces_cons_of_ne hc hrest
      | cons p ps =>
        rw [List.cons_append] at hb
        rw [pieces_cons_of_ne hc hb, ← List.cons_append] at h
        obtain ⟨rfl, hlast⟩ := List.append_inj' h rfl
        obtain rfl := List.singleton_inj.mp hlast
        exact pieces_cons_of_ne hc hrest

/-- Carriage returns in front of line feeds change nothing. -/
theorem ofBytes_withReturns (bytes : List UInt8) :
    Instruction.ofBytes (withReturns bytes) = Instruction.ofBytes bytes := by
  obtain ⟨front, last, hpieces⟩ := exists_pieces_eq_concat (10 : UInt8) bytes
  rw [ofBytes_eq_pieces, ofBytes_eq_pieces, pieces_withReturns hpieces, hpieces,
    instructionsFrom_append, instructionsFrom_append, List.length_map,
    instructionsFrom_map instructionOfBytes?_concat_return]

end Gcode

namespace Instruction

open Gcode

/-- **Reading goes line by line.**  Behind whole lines, other bytes are read as on their own,
with their lines counted on.  The error is that of the first line that is refused, whatever
comes after it.  Lines without an instruction only move the lines behind them, and carriage
returns in front of line feeds change nothing. -/
theorem ofBytes_linewise :
    (∀ a b, EndsLine a →
      ofBytes (a ++ b) = do
        let xs ← ofBytes a
        let ys ← (ofBytes b).mapError (·.renumber (· + a.count 10))
        return xs ++ ys) ∧
    (∀ bytes e, ofBytes bytes = .error e ↔
      ∃ before line after, splitLines bytes = before ++ line :: after ∧
        (∀ l ∈ before, Readable l) ∧ Refused (before.length + 1) line e) ∧
    (∀ a b e, EndsLine a → ofBytes a = .error e → ofBytes (a ++ b) = .error e) ∧
    (∀ a s b, EndsLine a → EndsLine s → (∀ l ∈ splitLines s, Skipped l) →
      ofBytes (a ++ s ++ b) =
        (ofBytes (a ++ b)).mapError
          (·.renumber fun line => if line ≤ a.count 10 then line else line + s.count 10)) ∧
    ∀ bytes, ofBytes (withReturns bytes) = ofBytes bytes := by
  refine ⟨fun a b ha => ofBytes_append ha b, fun _ _ => ofBytes_eq_error_iff, ?_,
    fun a s b ha hs hskipped => ofBytes_insert ha hs hskipped b, ofBytes_withReturns⟩
  intro a b e ha h
  rw [ofBytes_append ha, h]
  rfl

/-- A comment and a command outside the table move a bad number from line two to line
four. -/
theorem ofBytes_linewise_of_bad_number :
    EndsLine "G1 X1\n".toUTF8.toList ∧ EndsLine ";\nM117\n".toUTF8.toList ∧
      (∀ l ∈ splitLines ";\nM117\n".toUTF8.toList, Skipped l) ∧
      ofBytes "G1 X1\nG1 Xq".toUTF8.toList = .error (.malformed 2 (.invalidNumber "Xq")) ∧
      ofBytes ("G1 X1\n".toUTF8.toList ++ ";\nM117\n".toUTF8.toList ++ "G1 Xq".toUTF8.toList) =
        .error (.malformed 4 (.invalidNumber "Xq")) := by
  have hfirst : EndsLine "G1 X1\n".toUTF8.toList := by decide +kernel
  have hsecond : EndsLine ";\nM117\n".toUTF8.toList := by decide +kernel
  have hlines :
      splitLines ";\nM117\n".toUTF8.toList = [";".toUTF8.toList, "M117".toUTF8.toList] := by
    decide +kernel
  have hskipped : ∀ l ∈ splitLines ";\nM117\n".toUTF8.toList, Skipped l := by
    rw [hlines]
    intro l hl
    obtain rfl | hl := List.mem_cons.mp hl
    · exact ⟨";", by decide +kernel, .comment [] [] rfl nofun⟩
    · obtain rfl := List.mem_singleton.mp hl
      exact ⟨"M117", by decide +kernel, .unsupported ⟨'M', ['1', '1', '7']⟩ []
        (by decide +kernel) (by decide +kernel)⟩
  have hbad : ofBytes ("G1 X1\n".toUTF8.toList ++ "G1 Xq".toUTF8.toList) =
      .error (.malformed 2 (.invalidNumber "Xq")) := by decide +kernel
  refine ⟨hfirst, hsecond, hskipped, by decide +kernel, ?_⟩
  rw [ofBytes_linewise.2.2.2.1 _ _ _ hfirst hsecond hskipped, hbad]
  decide +kernel

end Instruction

end TachoPrint
