import TachoPrint.Machine.Axis

/-!
# The extruder

## Main definitions

* `Extruder` — the filament motor.
* `Extruder.assemble` — an extruder from its parts.
* `Extruder.runAt`, `Extruder.stop`, `Extruder.release` — drive the motor.
-/

namespace TachoPrint

/-- The filament motor. -/
structure Extruder where
  /-- How the extruder is built. -/
  setup : ExtruderSetup
  /-- Its motor. -/
  motor : Motor
  /-- The encoder counts of a full turn, as the motor told them. -/
  countsPerTurn : Int32

namespace Extruder

/-- Prepare a motor for an extruder: its resolution, and that it brakes when
stopped. -/
def prepare : Action DeviceEvent Motor DeviceError Int32 := do
  let countsPerTurn ← Motor.resolution
  Motor.issue (.stopAction .brake)
  return countsPerTurn

/-- An extruder from its parts. -/
def assemble (setup : ExtruderSetup) (motor : Motor) :
    Action DeviceEvent Unit DeviceError Extruder := do
  let (countsPerTurn, motor) ← Action.apart id prepare motor
  return ⟨setup, motor, countsPerTurn⟩

/-- Millimetres of filament, or millimetres per second, to counts. -/
def toCounts (e : Extruder) (mm : Binary64) : Int32 :=
  Gearing.toCounts ⟨e.setup.degreesPerMm, e.countsPerTurn⟩ mm

/-- Actions on an extruder. -/
abbrev Act (α : Type) : Type := Action DeviceEvent Extruder DeviceError α

/-- Give the motor one command. -/
def command (c : MotorCommand) : Act Unit :=
  Action.within (·.motor) (fun e m => { e with motor := m }) id (Motor.issue c)

/-- Stop. -/
def stop : Act Unit := command .stop

/-- Feed filament at a speed in millimetres per second until stopped; a negative
speed draws it back and a speed of no counts stops. -/
def runAt (velocity : Binary64) : Act Unit := do
  let speed := (← Action.get).toCounts velocity
  if speed = 0 then
    stop
  else
    command (.speed speed)
    command .run

/-- Let the motor turn freely. -/
def release : Act Unit := do
  command (.stopAction .coast)
  stop

end Extruder

end TachoPrint
