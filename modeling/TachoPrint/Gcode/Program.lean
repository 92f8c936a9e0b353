import TachoPrint.File.Basic
import TachoPrint.Gcode.Line
import TachoPrint.Text.Pieces

/-!
# Programs

A program is a file of lines.  Lines end at a line feed; a carriage return right
before it belongs to the line end.  Reading stops at the first line that is not
text or does not parse.

## Main definitions

* `ProgramError` — why a program is refused.
* `Gcode.splitLines` — the lines of a file, as bytes.
* `Instruction.ofBytes` — the instructions of a file's content.
* `Instruction.ofFile` — the instructions of the file at a path.
-/

namespace TachoPrint

/-- Why a program is refused. -/
inductive ProgramError where
  /-- The file cannot be opened. -/
  | closed (path : String) (cause : FileError)
  /-- A line cannot be read. -/
  | unreadable (line : Nat) (cause : FileError)
  /-- A line does not parse. -/
  | malformed (line : Nat) (cause : Gcode.WordError)
  deriving DecidableEq, Repr

namespace ProgramError

/-- The wording of a refusal. -/
def message : ProgramError → String
  | closed path _ => "unable to read " ++ path
  | unreadable line _ => "cannot read line " ++ toString line
  | malformed line cause => "line " ++ toString line ++ ": " ++ cause.message

/-- The failed read behind a refusal, if there is one. -/
def fileError? : ProgramError → Option FileError
  | closed _ cause => some cause
  | unreadable _ cause => some cause
  | malformed _ _ => none

end ProgramError

namespace Gcode

/-- A line without the carriage return before its line feed. -/
def dropReturn (line : List UInt8) : List UInt8 :=
  if line.getLast? = some 13 then line.dropLast else line

/-- The lines of a file: every piece but the last was ended by a line feed, and the
last is a line only if it holds anything. -/
def splitLines (bytes : List UInt8) : List (List UInt8) :=
  let all := pieces 10 bytes
  all.dropLast.map dropReturn ++ all.getLast?.toList.filter (· ≠ [])

/-- The instruction of a line of bytes that has the given number. -/
def instructionOfBytes? (number : Nat) (line : List UInt8) :
    Except ProgramError (Option Instruction) :=
  match textOfBytes? line with
  | none => .error (.unreadable number .notText)
  | some text => (Instruction.ofLine? text).mapError (.malformed number)

/-- The instructions of lines that are numbered from `number` on, behind those
already `read`, last first. -/
def instructionsFrom (read : List Instruction) (number : Nat) :
    List (List UInt8) → Except ProgramError (List Instruction)
  | [] => .ok read.reverse
  | line :: lines =>
      match instructionOfBytes? number line with
      | .error e => .error e
      | .ok none => instructionsFrom read (number + 1) lines
      | .ok (some i) => instructionsFrom (i :: read) (number + 1) lines

end Gcode

/-- The instructions of a file's content. -/
def Instruction.ofBytes (bytes : List UInt8) : Except ProgramError (List Instruction) :=
  Gcode.instructionsFrom [] 1 (Gcode.splitLines bytes)

/-- The instructions of the file at a path.  A directory opens like a file, but its
first line cannot be read. -/
def Instruction.ofFile (path : String) : FileContent → Except ProgramError (List Instruction)
  | .ok bytes => ofBytes bytes
  | .error .directory => .error (.unreadable 1 .directory)
  | .error cause => .error (.closed path cause)

end TachoPrint
