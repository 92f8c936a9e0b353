import TachoPrint.File.Basic
import TachoPrint.Setup.Basic

/-!
# Usable setups

A setup can be read and still not describe a printer that works.

## Main definitions

* `SetupFault` — what makes a setup unusable.
* `PrinterSetup.fault?` — the first fault of a setup.
* `SetupError` — why a setup is refused, faults included.
-/

namespace TachoPrint

/-- What makes a setup unusable. -/
inductive SetupFault where
  /-- The ratio of an axis is zero, infinite or not a number. -/
  | axisRatio (axis : AxisName)
  /-- The travel speed of an axis is not positive and finite. -/
  | axisSpeed (axis : AxisName)
  /-- The homing speed of an axis is not positive and finite. -/
  | homingSpeed (axis : AxisName)
  /-- The ratio of the extruder is zero, infinite or not a number. -/
  | extruderRatio
  /-- The head speed is not positive and finite. -/
  | velocity
  /-- The travel limit is not positive and finite. -/
  | travelLimit
  /-- The highest place is not positive and finite. -/
  | maxHeight
  /-- Endstops would be polled without a break. -/
  | pollInterval
  deriving DecidableEq, Repr

/-- The wording of a fault. -/
def SetupFault.message : SetupFault → String
  | .axisRatio a => a.text ++ ": deg_mm_ratio must be finite and non-zero"
  | .axisSpeed a => a.text ++ ": default_speed must be positive"
  | .homingSpeed a => a.text ++ ": calibration speed must be positive"
  | .extruderRatio => "extruder: deg_mm_ratio must be finite and non-zero"
  | .velocity => "velocity must be positive"
  | .travelLimit => "travel_limit must be positive"
  | .maxHeight => "max_height must be positive"
  | .pollInterval => "poll_interval_ms must be at least 1"

/-- A ratio that turns travel into motor degrees and back. -/
def Binary64.isRatio (a : Binary64) : Bool := a.isFinite && !a.equals 0

/-- A condition that has to hold, or the fault it leaves. -/
def orFault (holds : Bool) (fault : SetupFault) : Option SetupFault :=
  if holds then none else some fault

/-- The first fault of an axis. -/
def AxisSetup.fault? (name : AxisName) (a : AxisSetup) : Option SetupFault :=
  (orFault a.degreesPerMm.isRatio (.axisRatio name)).or <|
    (orFault a.speed.isPositive (.axisSpeed name)).or <|
      orFault a.homing.speed.isPositive (.homingSpeed name)

/-- The first fault of an extruder, if there is one at all. -/
def extruderFault? : Option ExtruderSetup → Option SetupFault
  | none => none
  | some e => orFault e.degreesPerMm.isRatio .extruderRatio

/-- The first fault of a setup: the axes in order, the extruder, and then the limits. -/
def PrinterSetup.fault? (p : PrinterSetup) : Option SetupFault :=
  [p.x.fault? .x, p.y.fault? .y, p.z.fault? .z, extruderFault? p.extruder,
    orFault p.velocity.isPositive .velocity,
    orFault p.travelLimit.isPositive .travelLimit,
    orFault p.maxHeight.isPositive .maxHeight,
    orFault (p.pollInterval != 0) .pollInterval].findSome? id

/-- Why a setup is refused. -/
inductive SetupError where
  /-- Its file cannot be read. -/
  | unreadable (path : String) (cause : FileError)
  /-- Its text is no setup. -/
  | syntactic
  /-- It cannot be written. -/
  | unwritable
  /-- It is unusable. -/
  | unusable (fault : SetupFault)
  deriving DecidableEq, Repr

namespace SetupError

/-- The wording of a refusal. -/
def message : SetupError → String
  | unreadable path _ => "unable to read config file " ++ path
  | syntactic => "invalid config syntax"
  | unwritable => "unable to serialize config"
  | unusable fault => "invalid config: " ++ fault.message

/-- The failed read behind a refusal, if there is one. -/
def fileError? : SetupError → Option FileError
  | unreadable _ cause => some cause
  | _ => none

end SetupError

/-- A setup without a fault, or the refusal of it. -/
def PrinterSetup.checked (p : PrinterSetup) : Except SetupError PrinterSetup :=
  match p.fault? with
  | none => .ok p
  | some fault => .error (.unusable fault)

end TachoPrint
