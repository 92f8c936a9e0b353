import TachoPrint.Decimal.Layout
import TachoPrint.Setup.Validity

/-!
# Writing a setup

A setup is written as a TOML document with every parameter in it: first those of the
printer itself, then a table for each axis with one for its homing, and a table for the
extruder, with an empty line before each table.

## Main definitions

* `Layout.toml` — the layout of numbers.
* `PrinterSetup.toml?` — the text of a setup.
-/

namespace TachoPrint

/-- Numbers in a document have a point and no exponent. -/
def Layout.toml : Layout where
  tie := .away
  isPlain _ := true
  wholeMark := ['.', '0']
  nanName := ['n', 'a', 'n']
  infName := ['i', 'n', 'f']

namespace Setup

/-- A line that sets a parameter. -/
def setLine (key value : String) : String := key ++ " = " ++ value ++ "\n"

/-- The line above the parameters of a table, behind an empty line. -/
def headerLine (path : String) : String := "\n[" ++ path ++ "]\n"

/-- A truth value. -/
def boolText (b : Bool) : String := if b then "true" else "false"

/-- A name in quotes. -/
def quoted (s : String) : String := "\"" ++ s ++ "\""

/-- The tables of an axis. -/
def axisText (name : AxisName) (a : AxisSetup) : String :=
  headerLine name.text ++
  setLine "motor_port" (quoted a.motorPort.text) ++
  setLine "sensor_port" (quoted a.sensorPort.text) ++
  setLine "default_speed" (Layout.toml.text a.speed) ++
  setLine "deg_mm_ratio" (Layout.toml.text a.degreesPerMm) ++
  setLine "ev3_touch_sensor" (boolText a.touchSensor) ++
  setLine "inverted" (boolText a.inverted) ++
  headerLine (name.text ++ ".calibration") ++
  setLine "offset" (Layout.toml.text a.homing.offset) ++
  setLine "invert_motor" (boolText a.homing.invertMotor) ++
  setLine "invert_sensor" (boolText a.homing.invertSensor) ++
  setLine "speed" (Layout.toml.text a.homing.speed)

/-- The table of an extruder, if there is one. -/
def extruderText : Option ExtruderSetup → String
  | none => ""
  | some e =>
      headerLine "extruder" ++
      setLine "motor_port" (quoted e.motorPort.text) ++
      setLine "deg_mm_ratio" (Layout.toml.text e.degreesPerMm)

end Setup

open Setup in
/-- The text of a setup.  TOML has signed integers of 64 bits, so a longer timeout cannot
be written. -/
def PrinterSetup.toml? (p : PrinterSetup) : Except SetupError String :=
  if 9223372036854775807 < p.endstopTimeout.toNat then .error .unwritable
  else .ok <|
    setLine "velocity" (Layout.toml.text p.velocity) ++
    setLine "travel_limit" (Layout.toml.text p.travelLimit) ++
    setLine "max_height" (Layout.toml.text p.maxHeight) ++
    setLine "endstop_timeout_ms" (toString p.endstopTimeout.toNat) ++
    setLine "poll_interval_ms" (toString p.pollInterval.toNat) ++
    axisText .x p.x ++ axisText .y p.y ++ axisText .z p.z ++ extruderText p.extruder

end TachoPrint
