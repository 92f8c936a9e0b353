import TachoPrint.Binary64.Integer
import TachoPrint.Gcode.Instruction
import TachoPrint.Gcode.Word

/-!
# Lines

A line holds at most one instruction: a command word with parameter words behind
it.

| Command     | Meaning                                              |
|-------------|------------------------------------------------------|
| G0, G1      | linear move, X Y Z E and F in millimetres a minute   |
| G4          | pause, P in milliseconds or S in seconds             |
| G28         | home the axes named by X Y Z, or all                 |
| G90, G91    | coordinates are places, coordinates are steps        |
| G92         | new coordinates for the current place, or all zero   |
| M18, M84    | release the axes named by X Y Z, or all              |

A word that starts with N in front of the command is a line number.  Other commands
are skipped.

## Main definitions

* `Gcode.Command` — the commands of the table.
* `Gcode.Command.ofWord?` — the command that a word names.
* `Gcode.Command.instruction` — a command with its parameters.
* `Instruction.ofLine?` — the instruction of a line.
-/

namespace TachoPrint

namespace Gcode

/-- The commands of the table. -/
inductive Command where
  | move
  | pause
  | home
  | absolute
  | relative
  | setPosition
  | release
  deriving DecidableEq, Repr, Inhabited

/-- The command that a letter and a number name. -/
def Command.named? (letter : Char) (number : Nat) : Option Command :=
  match letter, number with
  | 'G', 0 => some .move
  | 'G', 1 => some .move
  | 'G', 4 => some .pause
  | 'G', 28 => some .home
  | 'G', 90 => some .absolute
  | 'G', 91 => some .relative
  | 'G', 92 => some .setPosition
  | 'M', 18 => some .release
  | 'M', 84 => some .release
  | _, _ => none

/-- The command that a word names: its value is a whole number, padded or not. -/
def Command.ofWord? (w : Word) : Option Command :=
  (wordNumber? w.value).bind (Command.named? w.letter)

/-! ### Parameters -/

/-- Coordinates with the value of one more word; other letters change nothing. -/
def coordinateStep (c : Coordinates) (w : Word) : Except WordError Coordinates :=
  match w.letter with
  | 'X' => return { c with x := some (← w.number) }
  | 'Y' => return { c with y := some (← w.number) }
  | 'Z' => return { c with z := some (← w.number) }
  | 'E' => return { c with e := some (← w.number) }
  | _ => return c

/-- A move with one more word.  The feed rate is given for a minute and kept for a
second; a feed rate of zero changes nothing. -/
def moveStep (m : Move) (w : Word) : Except WordError Move :=
  match w.letter with
  | 'F' => do
      let perMinute ← w.number
      if perMinute.equals 0 then return m else return { m with feed := some (perMinute / 60) }
  | _ => return { m with goal := ← coordinateStep m.goal w }

/-- How many milliseconds the value of a pause word counts. -/
def millisPerUnit? : Char → Option Binary64
  | 'P' => some 1
  | 'S' => some 1000
  | _ => none

/-- The longest pause in milliseconds. -/
def maxPauseMillis : Binary64 := 4294967295

/-- The microseconds of a pause after one more word. -/
def pauseStep (micros : Binary64) (w : Word) : Except WordError Binary64 :=
  match millisPerUnit? w.letter with
  | none => return micros
  | some unit => do
      let value ← w.number
      if value.less 0 then throw (.negativeDuration w.text)
      let millis := value * unit
      if maxPauseMillis.less millis then throw (.durationTooLong w.text)
      return millis * 1000

/-- A choice of axes with one more word; only the letter counts. -/
def axisStep (axes : AxisSet) (w : Word) : AxisSet :=
  match w.letter with
  | 'X' => { axes with x := true }
  | 'Y' => { axes with y := true }
  | 'Z' => { axes with z := true }
  | _ => axes

/-- The axes that parameter words name, or all axes when they name none. -/
def axesOf (ws : List Word) : AxisSet :=
  let named := ws.foldl axisStep .empty
  if named.isEmpty then .all else named

/-- Every coordinate at zero. -/
def zeroCoordinates : Coordinates := ⟨some 0, some 0, some 0, some 0⟩

/-- A command with its parameters, read from left to right up to the first word
that is refused. -/
def Command.instruction (ws : List Word) : Command → Except WordError Instruction
  | .move => return .move (← ws.foldlM moveStep {})
  | .pause => return .pause (← ws.foldlM pauseStep 0).toUInt64
  | .home => return .home (axesOf ws)
  | .absolute => return .setPositioning .absolute
  | .relative => return .setPositioning .relative
  | .setPosition => do
      let c ← ws.foldlM coordinateStep {}
      return .setPosition (if c.isEmpty then zeroCoordinates else c)
  | .release => return .release (axesOf ws)

/-- The words without a line number in front. -/
def dropLineNumber : List Word → List Word
  | [] => []
  | w :: ws => if w.letter = 'N' then ws else w :: ws

/-- The instruction that the words of a line spell, if there is a command among the
table's. -/
def instructionOf? (ws : List Word) : Except WordError (Option Instruction) :=
  match dropLineNumber ws with
  | [] => return none
  | w :: params =>
      match Command.ofWord? w with
      | none => return none
      | some command => return some (← command.instruction params)

end Gcode

/-- The instruction of a line.  Blank lines, comments and commands outside the table
have none. -/
def Instruction.ofLine? (line : String) : Except Gcode.WordError (Option Instruction) :=
  Gcode.instructionOf? (Gcode.wordsOfLine line.toList)

end TachoPrint
