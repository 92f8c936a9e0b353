import TachoPrint.Decimal.Layout
import TachoPrint.Gcode.Instruction
import TachoPrint.Json.Reader

/-!
# Instructions as JSON

An instruction is written as one object whose first member `op` names it; the other
members hold its parameters in a fixed order.  Reading is more liberal: the members
may come in any order and unknown ones are ignored, and an array may stand for the
object, its first item in place of `op` and the others in the order of the members.

## Main definitions

* `Layout.json` — the layout of numbers.
* `Instruction.json` — the text of an instruction.
* `Instruction.ofJson?` — the instruction that a value spells.
* `Instruction.ofJsonText?` — the instruction that a text spells.
-/

namespace TachoPrint

/-- Numbers between a hundred thousandth and ten quadrillion are written without an
exponent, and whole ones end in `.0`. -/
def Layout.json : Layout where
  tie := .even
  isPlain leading := -5 ≤ leading && leading < 16
  wholeMark := ['.', '0']
  nanName := ['n', 'a', 'n']
  infName := ['i', 'n', 'f']

namespace Gcode

/-! ### Writing -/

/-- A number, or `null` where JSON has none. -/
def numberJson (a : Binary64) : String := if a.isFinite then Layout.json.text a else "null"

/-- A number, or `null` in its absence. -/
def optionJson : Option Binary64 → String
  | some a => numberJson a
  | none => "null"

/-- A truth value. -/
def boolJson (b : Bool) : String := if b then "true" else "false"

/-- A text without characters that need an escape. -/
def nameJson (s : String) : String := "\"" ++ s ++ "\""

/-- An object with the given members, whose values are already written. -/
def objectJson (members : List (String × String)) : String :=
  "\x7b" ++ ",".intercalate (members.map fun (name, v) => nameJson name ++ ":" ++ v) ++ "\x7d"

/-- The name of a way to read coordinates. -/
def modeName : Positioning → String
  | .absolute => "absolute"
  | .relative => "relative"

/-- The members of a choice of axes. -/
def axesMembers (axes : AxisSet) : List (String × String) :=
  [("x", boolJson axes.x), ("y", boolJson axes.y), ("z", boolJson axes.z)]

/-- The members of an instruction behind its name. -/
def parameterMembers : Instruction → List (String × String)
  | .move m =>
      [("x", optionJson m.goal.x), ("y", optionJson m.goal.y), ("z", optionJson m.goal.z),
        ("extruded", optionJson m.goal.e), ("feed_rate", optionJson m.feed)]
  | .pause micros => [("micros", toString micros.toNat)]
  | .setPositioning mode => [("mode", nameJson (modeName mode))]
  | .setPosition c =>
      [("x", optionJson c.x), ("y", optionJson c.y), ("z", optionJson c.z), ("e", optionJson c.e)]
  | .home axes => axesMembers axes
  | .release axes => axesMembers axes

/-- The name of an instruction. -/
def opName : Instruction → String
  | .move _ => "linear_move"
  | .pause _ => "pause"
  | .setPositioning _ => "set_positioning"
  | .setPosition _ => "set_position"
  | .home _ => "home"
  | .release _ => "release"

/-! ### Reading -/

/-- The parameters of an instruction: members by name, or items by place. -/
inductive Parameters where
  | named (members : List (String × Json))
  | placed (items : List Json)

namespace Parameters

/-- The values of the parameters with the given names, as far as they are there.
No name may be given twice, and places have to match the names one to one. -/
def values? (names : List String) : Parameters → Option (List (Option Json))
  | named members =>
      names.mapM fun name =>
        match members.filter (·.1 = name) with
        | [] => some none
        | [(_, v)] => some (some v)
        | _ => none
  | placed items => if items.length = names.length then some (items.map some) else none

end Parameters

/-- A number, possibly written as an integer. -/
def number? : Json → Option Binary64
  | .integer i => some (.ofInt i)
  | .number a => some a
  | _ => none

/-- An optional number: absent, `null` or a number. -/
def optionNumber? : Option Json → Option (Option Binary64)
  | none => some none
  | some .null => some none
  | some v => (number? v).map some

/-- A truth value, which has to be there. -/
def bool? : Option Json → Option Bool
  | some (.boolean b) => some b
  | _ => none

/-- A whole number of 64 bits, which has to be there. -/
def micros? : Option Json → Option UInt64
  | some (.integer i) => if 0 ≤ i then some (UInt64.ofNat i.toNat) else none
  | _ => none

/-- A way to read coordinates with the given name. -/
def modeNamed? (s : String) : Option Positioning :=
  if s = "absolute" then some .absolute
  else if s = "relative" then some .relative
  else none

/-- A way to read coordinates, which has to be there: its name, or an object whose one
member has that name and no content. -/
def mode? : Option Json → Option Positioning
  | some (.text s) => modeNamed? s
  | some (.object [(s, .null)]) => modeNamed? s
  | some (.object [(s, .object [])]) => modeNamed? s
  | _ => none

/-- A choice of axes. -/
def axes? (ps : Parameters) : Option AxisSet := do
  match ← ps.values? ["x", "y", "z"] with
  | [x, y, z] => return ⟨← bool? x, ← bool? y, ← bool? z⟩
  | _ => none

/-- A move. -/
def move? (ps : Parameters) : Option Move := do
  match ← ps.values? ["x", "y", "z", "extruded", "feed_rate"] with
  | [x, y, z, e, f] =>
      return ⟨⟨← optionNumber? x, ← optionNumber? y, ← optionNumber? z, ← optionNumber? e⟩,
        ← optionNumber? f⟩
  | _ => none

/-- Coordinates. -/
def coordinates? (ps : Parameters) : Option Coordinates := do
  match ← ps.values? ["x", "y", "z", "e"] with
  | [x, y, z, e] =>
      return ⟨← optionNumber? x, ← optionNumber? y, ← optionNumber? z, ← optionNumber? e⟩
  | _ => none

/-- The instruction with a name and parameters. -/
def instructionNamed? (op : String) (ps : Parameters) : Option Instruction :=
  if op = "linear_move" then (move? ps).map .move
  else if op = "pause" then do
    match ← ps.values? ["micros"] with
    | [micros] => return .pause (← micros? micros)
    | _ => none
  else if op = "set_positioning" then do
    match ← ps.values? ["mode"] with
    | [mode] => return .setPositioning (← mode? mode)
    | _ => none
  else if op = "set_position" then (coordinates? ps).map .setPosition
  else if op = "home" then (axes? ps).map .home
  else if op = "release" then (axes? ps).map .release
  else none

end Gcode

namespace Instruction

/-- The JSON text of an instruction. -/
def json (i : Instruction) : String :=
  Gcode.objectJson (("op", Gcode.nameJson (Gcode.opName i)) :: Gcode.parameterMembers i)

/-- The instruction that a JSON value spells. -/
def ofJson? : Json → Option Instruction
  | .object members =>
      match members.filter (·.1 = "op") with
      | [(_, .text op)] => Gcode.instructionNamed? op (.named (members.filter (·.1 ≠ "op")))
      | _ => none
  | .array (.text op :: items) => Gcode.instructionNamed? op (.placed items)
  | _ => none

/-- The instruction that a JSON text spells, with numbers read by `read`. -/
def ofJsonText? (read : Json.NumberReader) (text : String) : Option Instruction :=
  (Json.ofText? read text).bind ofJson?

end Instruction

end TachoPrint
