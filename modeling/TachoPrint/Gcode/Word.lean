import TachoPrint.Decimal.Basic
import TachoPrint.Text.Blank

/-!
# Words of a line

A G-code line is a list of words, each a letter with a value behind it.

## Main definitions

* `Gcode.Word` — a letter in either case, and its value as text.
* `Gcode.WordError` — why a word is refused.
* `Gcode.Word.number` — the value of a word as a finite number.
* `Gcode.wordsOfLine` — the words before the comment.
-/

namespace TachoPrint.Gcode

/-- A word: its first character and the text behind it. -/
structure Word where
  /-- The first character as written. -/
  first : Char
  /-- The text behind it. -/
  value : List Char
  deriving DecidableEq, Inhabited

/-- Why a word is refused; each cause carries the word as written. -/
inductive WordError where
  /-- The value is no finite number. -/
  | invalidNumber (word : String)
  /-- There is no value. -/
  | missingValue (word : String)
  /-- A pause below zero. -/
  | negativeDuration (word : String)
  /-- A pause longer than a pause may be. -/
  | durationTooLong (word : String)
  deriving DecidableEq, Repr

/-- The wording of a refusal. -/
def WordError.message : WordError → String
  | .invalidNumber w => "invalid number in \x60" ++ w ++ "\x60"
  | .missingValue w => "missing value for \x60" ++ w ++ "\x60"
  | .negativeDuration w => "negative duration in \x60" ++ w ++ "\x60"
  | .durationTooLong w => "duration too long in \x60" ++ w ++ "\x60"

namespace Word

/-- The letter of a word: lower case counts as upper case. -/
def letter (w : Word) : Char := w.first.toUpper

/-- The word as written. -/
def text (w : Word) : String := String.ofList (w.first :: w.value)

/-- A word has at least one character. -/
def ofChars? : List Char → Option Word
  | [] => none
  | c :: cs => some ⟨c, cs⟩

/-- The value of a word, which has to be a finite number. -/
def number (w : Word) : Except WordError Binary64 :=
  if w.value = [] then .error (.missingValue w.text)
  else match Binary64.ofText? w.value with
    | some v => if v.isFinite then .ok v else .error (.invalidNumber w.text)
    | none => .error (.invalidNumber w.text)

end Word

/-- The words of a line, up to the semicolon that starts a comment. -/
def wordsOfLine (line : List Char) : List Word :=
  (words (line.takeWhile (· != ';'))).filterMap Word.ofChars?

end TachoPrint.Gcode
