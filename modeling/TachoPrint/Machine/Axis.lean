import TachoPrint.Machine.Endstop
import TachoPrint.Machine.Motor
import TachoPrint.Motion.Gearing
import TachoPrint.Setup.Basic

/-!
# Axes

An axis is a motor whose turning moves the head along one direction, with an
endstop or without one.  Homing drives the axis into its endstop, backs off until the
switch is released, moves on by an offset and calls that place zero.

## Main definitions

* `Axis` — setup, motor, endstop and logical position.
* `Axis.assemble` — an axis from its parts.
* `Axis.moveTo`, `Axis.runAt`, `Axis.stop`, `Axis.release` — drive the motor.
* `Axis.awaitEndstop` — poll the endstop.
* `Axis.seek`, `Axis.home` — homing.
* `Axis.moveToHeight` — a move of the vertical axis within its range.
-/

namespace TachoPrint

/-- One axis of the machine. -/
structure Axis where
  /-- How the axis is built. -/
  setup : AxisSetup
  /-- Its motor. -/
  motor : Motor
  /-- Its endstop, if one is used. -/
  endstop : Option Endstop
  /-- The encoder counts of a full turn, as the motor told them. -/
  countsPerTurn : Int32
  /-- The logical position in millimetres. -/
  position : Binary64

namespace Axis

/-- The polarity of a motor. -/
def polarityOf (setup : AxisSetup) : Polarity := if setup.inverted then .inversed else .normal

/-- Prepare a motor for an axis: its resolution, its polarity, and that it holds its
place when stopped. -/
def prepare (setup : AxisSetup) : Action DeviceEvent Motor DeviceError Int32 := do
  let countsPerTurn ← Motor.resolution
  Motor.issue (.polarity (polarityOf setup))
  Motor.issue (.stopAction .hold)
  return countsPerTurn

/-- An axis from its parts.  The endstop is used only where the setup has one. -/
def assemble (setup : AxisSetup) (motor : Motor) (endstop : Option Endstop) :
    Action DeviceEvent Unit DeviceError Axis := do
  let (countsPerTurn, motor) ← Action.apart id (prepare setup) motor
  return {
    setup := setup
    motor := motor
    endstop := if setup.touchSensor then endstop else none
    countsPerTurn := countsPerTurn
    position := 0 }

/-- The ratios of the axis. -/
def gearing (a : Axis) : Gearing := ⟨a.setup.degreesPerMm, a.countsPerTurn⟩

/-- Millimetres, or millimetres per second, to counts. -/
def toCounts (a : Axis) (mm : Binary64) : Int32 := a.gearing.toCounts mm

/-- Actions on an axis. -/
abbrev Act (α : Type) : Type := Action DeviceEvent Axis DeviceError α

/-- Give the motor one command. -/
def command (c : MotorCommand) : Act Unit :=
  Action.within (·.motor) (fun a m => { a with motor := m }) id (Motor.issue c)

/-- Give the place another logical position. -/
def setPosition (position : Binary64) : Act Unit :=
  Action.modify fun a => { a with position := position }

/-- Run by a number of counts at a speed and wait for the end; no counts, no run. -/
def turn (speed counts : Int32) : Act Unit := do
  if counts ≠ 0 then
    command (.speed speed)
    command (.turn counts)
    command .await

/-- Move to a logical position and wait for the end. -/
def moveTo (target speed : Binary64) : Act Unit := do
  match checkVelocity speed with
  | .error e => Action.fail (.motion e)
  | .ok speed =>
      let a ← Action.get
      turn (a.toCounts speed) (a.toCounts (target - a.position))
      setPosition target

/-- Stop. -/
def stop : Act Unit := command .stop

/-- Run at a speed in millimetres per second until stopped; a speed of no counts
stops. -/
def runAt (velocity : Binary64) : Act Unit := do
  let speed := (← Action.get).toCounts velocity
  if speed = 0 then
    stop
  else
    command (.speed speed)
    command .run

/-- Set what stopping means. -/
def setStopAction (action : StopAction) : Act Unit := command (.stopAction action)

/-- Let the axis turn freely. -/
def release : Act Unit := do
  setStopAction .coast
  stop

/-! ### Homing -/

/-- Poll the endstop until it is pressed, or until it is released when `inverted`. -/
def awaitEndstop (inverted : Bool) (polling : Polling) : Act Unit := fun a =>
  match a.endstop with
  | none => ⟨[], a, .failed .noEndstop⟩
  | some e =>
      let (ending, last) := Endstop.pollFrom e.readings inverted polling.step.toNat
        polling.timeout.toNat polling.step_pos e.reads 0
      ⟨Endstop.pollEvents e.readings polling.step e.reads last,
        { a with endstop := some { e with reads := last + 1 } },
        match ending with
        | .met => .done ()
        | .broken => .failed .endstop
        | .timedOut => .failed (.endstopTimeout polling.timeout)
        | .overflowed => .crashed⟩

/-- The homing speed in counts per second, in the direction of the endstop. -/
def seekSpeed? (a : Axis) : Option Int32 :=
  let speed := a.toCounts a.setup.homing.speed
  if a.setup.homing.invertMotor then negCounts? speed else some speed

/-- Drive into the endstop and back off until it is released. -/
def seek (polling : Polling) : Act Unit := do
  let a ← Action.get
  let inverted := a.setup.homing.invertSensor
  let speed ← Action.finish (.orCrash a.seekSpeed?)
  command (.speed speed)
  command .run
  awaitEndstop inverted polling
  let back ← Action.finish (.orCrash (negCounts? speed))
  command (.speed back)
  command .run
  awaitEndstop (!inverted) polling
  stop

/-- Move on by the homing offset. -/
def applyOffset : Act Unit := do
  let a ← Action.get
  turn (a.toCounts a.setup.homing.speed.abs) (a.toCounts a.setup.homing.offset)

/-- Home the axis and call the place zero.  Without an endstop the current place
simply becomes zero.  When the endstop is not found the motor is stopped. -/
def home (polling : Polling) : Act Unit := do
  let a ← Action.get
  if a.endstop.isSome then
    match ← Action.attempt (seek polling) with
    | .error e =>
        let _ ← Action.attempt stop
        Action.fail e
    | .ok () =>
        applyOffset
        setPosition 0
  else
    setPosition 0

/-! ### The vertical axis -/

/-- Move to a height at the axis' own speed.  A height below the bed or above the
highest place is refused before the motor is told anything. -/
def moveToHeight (height highest : Binary64) : Act Unit := do
  if !height.isFinite || height.less 0 || highest.less height then
    Action.fail (.outOfRange height highest)
  else
    moveTo height (← Action.get).setup.speed

end Axis

end TachoPrint
