import TachoPrint.Setup.Validity
import TachoPrint.Toml.Document

/-!
# Reading a setup

A setup is a TOML document.  What it leaves out is as in the standard printer, except
that an axis that is mentioned at all has to name its ports and its ratio.  Keys that
mean nothing are ignored.

A group of parameters may be a table, or an array that lists them in their order and
may stop before those that have a default.  A date in place of a group counts as a table
in which nothing is set.

## Main definitions

* `Setup.Fields` — the parameters of a group as they stand in a document.
* `Setup.axis?`, `Setup.extruder?`, `Setup.printer?` — the groups.
* `PrinterSetup.ofToml` — the setup that a text spells, checked.
* `PrinterSetup.ofFile` — the setup of a file.
-/

namespace TachoPrint

namespace Setup

open Toml (Item Entries)

/-- The parameters of a group as they stand in a document. -/
inductive Fields where
  | named (entries : Entries)
  | placed (items : List Item)

namespace Fields

/-- The parameters of a group. -/
def ofItem? : Item → Option Fields
  | .table _ entries => some (.named entries)
  | .array items => some (.placed items)
  | .tables elements => some (.placed (elements.map (.table .header)))
  | .instant => some (.named [])
  | _ => none

/-- The item of a parameter, which has a name and a place. -/
def item? (fs : Fields) (name : String) (place : Nat) : Option Item :=
  match fs with
  | named entries => Toml.lookup? entries name
  | placed items => items[place]?

/-- The value of a parameter that has to be there. -/
def required {α : Type} (fs : Fields) (name : String) (place : Nat) (read : Item → Option α) :
    Option α :=
  (fs.item? name place).bind read

/-- The value of a parameter, or its default. -/
def optional {α : Type} (fs : Fields) (name : String) (place : Nat) (read : Item → Option α)
    (default : α) : Option α :=
  match fs.item? name place with
  | some item => read item
  | none => some default

end Fields

/-! ### Values -/

/-- A number, possibly written as an integer. -/
def number? : Item → Option Binary64
  | .number a => some a
  | .integer i => some (.ofInt i)
  | _ => none

/-- A truth value. -/
def bool? : Item → Option Bool
  | .boolean b => some b
  | _ => none

/-- A whole number below a bound. -/
def below? (bound : Nat) : Item → Option Nat
  | .integer i => if 0 ≤ i ∧ i < bound then some i.toNat else none
  | _ => none

/-- An item with nothing in it. -/
def isVoid : Item → Bool
  | .table _ [] => true
  | .array [] => true
  | .tables [] => true
  | _ => false

/-- The name of one of several choices: a text, or a table whose only key is the name
and has nothing in it. -/
def choice? : Item → Option String
  | .text s => some s
  | .table _ [(s, item)] => if isVoid item then some s else none
  | _ => none

/-- A motor socket. -/
def motorPort? (item : Item) : Option MotorPort := (choice? item).bind MotorPort.ofText?

/-- A sensor socket. -/
def sensorPort? (item : Item) : Option SensorPort := (choice? item).bind SensorPort.ofText?

/-! ### Groups -/

/-- How an axis is homed. -/
def homing? (item : Item) : Option HomingSetup := do
  let fs ← Fields.ofItem? item
  let standard : HomingSetup := {}
  return {
    offset := ← fs.optional "offset" 0 number? standard.offset
    invertMotor := ← fs.optional "invert_motor" 1 bool? standard.invertMotor
    invertSensor := ← fs.optional "invert_sensor" 2 bool? standard.invertSensor
    speed := ← fs.optional "speed" 3 number? standard.speed }

/-- An axis. -/
def axis? (item : Item) : Option AxisSetup := do
  let fs ← Fields.ofItem? item
  return {
    motorPort := ← fs.required "motor_port" 0 motorPort?
    sensorPort := ← fs.required "sensor_port" 1 sensorPort?
    speed := ← fs.optional "default_speed" 2 number? 20
    degreesPerMm := ← fs.required "deg_mm_ratio" 3 number?
    touchSensor := ← fs.optional "ev3_touch_sensor" 4 bool? true
    inverted := ← fs.optional "inverted" 5 bool? false
    homing := ← fs.optional "calibration" 6 homing? {} }

/-- An extruder. -/
def extruder? (item : Item) : Option ExtruderSetup := do
  let fs ← Fields.ofItem? item
  return {
    motorPort := ← fs.required "motor_port" 0 motorPort?
    degreesPerMm := ← fs.required "deg_mm_ratio" 1 number? }

/-- A whole printer. -/
def printer? (document : Entries) : Option PrinterSetup := do
  let fs := Fields.named document
  let standard := PrinterSetup.standard
  return {
    velocity := ← fs.optional "velocity" 0 number? standard.velocity
    travelLimit := ← fs.optional "travel_limit" 1 number? standard.travelLimit
    maxHeight := ← fs.optional "max_height" 2 number? standard.maxHeight
    endstopTimeout := ←
      fs.optional "endstop_timeout_ms" 3 (fun i => (below? 18446744073709551616 i).map UInt64.ofNat)
        standard.endstopTimeout
    pollInterval := ←
      fs.optional "poll_interval_ms" 4 (fun i => (below? 4294967296 i).map UInt32.ofNat)
        standard.pollInterval
    x := ← fs.optional "x" 5 axis? standard.x
    y := ← fs.optional "y" 6 axis? standard.y
    z := ← fs.optional "z" 7 axis? standard.z
    extruder := ← fs.optional "extruder" 8 (fun i => (extruder? i).map some) none }

end Setup

namespace PrinterSetup

/-- The setup that a text spells.  It has to be usable. -/
def ofToml (text : String) : Except SetupError PrinterSetup :=
  match (Toml.ofText? text).bind Setup.printer? with
  | none => .error .syntactic
  | some p => p.checked

/-- The setup of the file at a path. -/
def ofFile (path : String) : FileContent → Except SetupError PrinterSetup
  | .error cause => .error (.unreadable path cause)
  | .ok bytes =>
      match textOfBytes? bytes with
      | none => .error (.unreadable path .notText)
      | some text => ofToml text

end PrinterSetup

end TachoPrint
