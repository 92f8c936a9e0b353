import TachoPrint.Gcode.Instruction
import TachoPrint.Machine.Extruder

/-!
# The print head

The head is moved by the three axes and the extruder.  A move in the plane is open
loop: each motor runs at a constant speed for the planned time and is then stopped.
A change of height comes first, before anything moves in the plane.

## Main definitions

* `Joint`, `Event` — the devices of the head, and what happens at them.
* `Head` — the axes, the limits and the logical state.
* `Head.linearMove` — a move.
* `Head.pause` — a delay in chunks of 32 bits.
* `Head.home`, `Head.release`, `Head.stopAll` — several devices in order.
* `Head.execute` — one instruction.
* `Head.runProgram` — instructions up to the first that is refused.
-/

namespace TachoPrint

/-- The devices of the head. -/
inductive Joint where
  | axis (name : AxisName)
  | extruder
  deriving DecidableEq, Repr

/-- What happens while the head works. -/
inductive Event where
  /-- Something at a device. -/
  | device (joint : Joint) (event : DeviceEvent)
  /-- A delay of the head itself, in microseconds. -/
  | slept (micros : UInt32)
  deriving DecidableEq, Repr

/-- The limits of a head, and how it starts. -/
structure HeadLimits where
  /-- The speed until a feed rate changes it, in millimetres per second. -/
  velocity : Binary64
  /-- How far the plane axes may be driven to either side. -/
  travel : Binary64
  /-- How high the head may be lifted. -/
  height : Binary64
  /-- How endstops are polled. -/
  polling : Polling
  deriving DecidableEq

/-- The limits that a printer setup states. -/
def PrinterSetup.limits (p : PrinterSetup) : HeadLimits :=
  ⟨p.velocity, p.travelLimit, p.maxHeight, ⟨p.pollInterval, p.endstopTimeout⟩⟩

/-- The print head. -/
structure Head where
  x : Axis
  y : Axis
  z : Axis
  e : Option Extruder
  /-- Its limits. -/
  limits : HeadLimits
  /-- The current speed in millimetres per second. -/
  velocity : Binary64
  /-- How coordinates are read. -/
  mode : Positioning
  /-- The logical position of the filament. -/
  extruded : Binary64

namespace Head

/-- A head from its parts. -/
def ofParts (x y z : Axis) (e : Option Extruder) (limits : HeadLimits) : Head :=
  ⟨x, y, z, e, limits, limits.velocity, .absolute, 0⟩

/-- The logical position. -/
def position (h : Head) : Position := ⟨h.x.position, h.y.position, h.z.position, h.extruded⟩

/-- Actions of the head. -/
abbrev Act (α : Type) : Type := Action Event Head DeviceError α

/-- An axis by its name. -/
def axis (h : Head) : AxisName → Axis
  | .x => h.x
  | .y => h.y
  | .z => h.z

/-- The head with another axis of a name. -/
def withAxis (h : Head) : AxisName → Axis → Head
  | .x, a => { h with x := a }
  | .y, a => { h with y := a }
  | .z, a => { h with z := a }

/-- An action of one axis. -/
def onAxis {α : Type} (name : AxisName) (act : Axis.Act α) : Act α :=
  Action.within (·.axis name) (·.withAxis name ·) (.device (.axis name)) act

/-- An action of the extruder; without one nothing happens. -/
def onExtruder (act : Extruder.Act Unit) : Act Unit := fun h =>
  match h.e with
  | none => ⟨[], h, .done ()⟩
  | some e =>
      let run := act e
      ⟨run.trace.map (.device .extruder), { h with e := some run.state }, run.ending⟩

/-! ### Logical state -/

/-- Change the speed, which has to be positive and finite. -/
def setVelocity (velocity : Binary64) : Act Unit :=
  match checkVelocity velocity with
  | .error e => Action.fail (.motion e)
  | .ok v => Action.modify fun h => { h with velocity := v }

/-- Choose how coordinates are read. -/
def setMode (mode : Positioning) : Act Unit := Action.modify fun h => { h with mode := mode }

/-- Give the place new coordinates without moving. -/
def setPosition (c : Coordinates) : Act Unit := Action.modify fun h =>
  { h with
    x := { h.x with position := c.x.getD h.x.position }
    y := { h.y with position := c.y.getD h.y.position }
    z := { h.z with position := c.z.getD h.z.position }
    extruded := c.e.getD h.extruded }

/-! ### Delays -/

/-- The longest single delay in microseconds. -/
def maxChunk : Nat := 4294967295

/-- The single delays that make up a delay: as many of the longest as fit, and the
rest. -/
def chunks (micros : Nat) : List UInt32 :=
  List.replicate (micros / maxChunk) (UInt32.ofNat maxChunk) ++
    if micros % maxChunk = 0 then [] else [UInt32.ofNat (micros % maxChunk)]

/-- Wait for a number of microseconds. -/
def pause (micros : UInt64) : Act Unit := Action.emit ((chunks micros.toNat).map Event.slept)

/-! ### Moves -/

/-- Stop every motor, even after a failure; the first failure is reported. -/
def stopAll : Act Unit := do
  let x ← Action.attempt (onAxis .x Axis.stop)
  let y ← Action.attempt (onAxis .y Axis.stop)
  let z ← Action.attempt (onAxis .z Axis.stop)
  let e ← Action.attempt (onExtruder Extruder.stop)
  Action.finish (.ofExcept (x >>= fun _ => y >>= fun _ => z >>= fun _ => e))

/-- Start the motors of a planned move, up to the first that fails. -/
def start (plan : Plan) : Act Unit := do
  onAxis .x (Axis.runAt plan.vx)
  onAxis .y (Axis.runAt plan.vy)
  onExtruder (Extruder.runAt plan.ve)

/-- The whole microseconds of a planned move. -/
def planMicros (plan : Plan) : UInt64 := (plan.duration * 1000000).toUInt64

/-- Carry out a planned move: start, wait unless starting failed, and stop whatever
happened.  The head is at the target only if everything succeeded. -/
def runTimed (plan : Plan) : Act Unit := do
  let started ← Action.attempt (start plan)
  if started.isOk then
    pause (planMicros plan)
  let stopped ← Action.attempt stopAll
  Action.finish (.ofExcept (started >>= fun _ => stopped))
  Action.modify fun h =>
    { h with
      x := { h.x with position := plan.target.x }
      y := { h.y with position := plan.target.y }
      extruded := plan.target.e }

/-- Carry out a plan: first the height, then the plane and the filament. -/
def carryOut (plan : Plan) : Act Unit := do
  let h ← Action.get
  if !plan.target.z.equals h.position.z then
    onAxis .z (Axis.moveToHeight plan.target.z h.limits.height)
  if !plan.isIdle then
    runTimed plan

/-- A linear move.  A feed rate stays in force even if the rest of the move is
refused; a move without coordinates is nothing else. -/
def linearMove (m : Move) : Act Unit := do
  match m.feed with
  | some feed => setVelocity feed
  | none => pure ()
  if !m.goal.isEmpty then
    let h ← Action.get
    let plan ← Action.finish
      ((h.position.plan m.goal h.mode h.velocity h.limits.travel).mapError DeviceError.motion)
    carryOut plan

/-! ### Homing and releasing -/

/-- Home one of the plane axes, which brakes from then on. -/
def homePlane (name : AxisName) : Act Unit := do
  let h ← Action.get
  onAxis name (Axis.setStopAction .brake)
  onAxis name (Axis.home h.limits.polling)

/-- Home the vertical axis. -/
def homeHeight : Act Unit := do
  let h ← Action.get
  onAxis .z (Axis.home h.limits.polling)

/-- Home the chosen axes in order, up to the first that fails. -/
def home (axes : AxisSet) : Act Unit := do
  if axes.x then homePlane .x
  if axes.y then homePlane .y
  if axes.z then homeHeight

/-- Home every axis. -/
def calibrate : Act Unit := home .all

/-- Let the chosen axes turn freely; releasing every axis releases the extruder
too. -/
def release (axes : AxisSet) : Act Unit := do
  if axes.x then onAxis .x Axis.release
  if axes.y then onAxis .y Axis.release
  if axes.z then onAxis .z Axis.release
  if axes.isAll then onExtruder Extruder.release

/-! ### Instructions -/

/-- Execute one instruction. -/
def execute : Instruction → Act Unit
  | .move m => linearMove m
  | .pause micros => pause micros
  | .setPositioning mode => setMode mode
  | .setPosition c => setPosition c
  | .home axes => home axes
  | .release axes => release axes

/-- Stop every motor, whatever that gives, and refuse for a cause. -/
def stopAndFail (e : DeviceError) : Act Unit := do
  let _ ← Action.attempt stopAll
  Action.fail e

/-- Execute instructions; `past` holds the traces of those already done, last first.
When one is refused every motor is stopped. -/
def runFrom (past : List (List Event)) : List Instruction → Act Unit
  | [], h => ⟨past.reverse.flatten, h, .done ()⟩
  | i :: rest, h =>
      let run := execute i h
      match run.ending with
      | .done _ => runFrom (run.trace :: past) rest run.state
      | .failed e =>
          let last := stopAndFail e run.state
          ⟨(last.trace :: run.trace :: past).reverse.flatten, last.state, last.ending⟩
      | .crashed => ⟨(run.trace :: past).reverse.flatten, run.state, .crashed⟩

/-- Execute instructions in order, up to the first that is refused. -/
def runProgram (program : List Instruction) : Act Unit := runFrom [] program

/-! ### Assembly -/

/-- The hardware of a head: a motor for every joint, and the endstops. -/
structure Hardware where
  motor : Joint → Motor
  endstop : AxisName → Option Endstop

/-- Put one axis together. -/
def assembleAxis (hw : Hardware) (name : AxisName) (setup : AxisSetup) :
    Action Event Unit DeviceError Axis := do
  let (a, _) ← Action.apart (.device (.axis name))
    (Axis.assemble setup (hw.motor (.axis name)) (hw.endstop name)) ()
  return a

/-- Put the extruder together, if the setup has one. -/
def assembleExtruder (hw : Hardware) :
    Option ExtruderSetup → Action Event Unit DeviceError (Option Extruder)
  | none => pure none
  | some setup => do
      let (e, _) ←
        Action.apart (.device .extruder) (Extruder.assemble setup (hw.motor .extruder)) ()
      return some e

/-- A head from its setup and hardware, device by device. -/
def assemble (setup : PrinterSetup) (hw : Hardware) : Action Event Unit DeviceError Head := do
  let x ← assembleAxis hw .x setup.x
  let y ← assembleAxis hw .y setup.y
  let z ← assembleAxis hw .z setup.z
  let e ← assembleExtruder hw setup.extruder
  return ofParts x y z e setup.limits

/-- Simulated hardware: motors of 360 counts that never fail, and endstops that change
at every look. -/
def simulated : Hardware where
  motor _ := { countsPerTurn := 360 }
  endstop _ := some .toggling

end Head

end TachoPrint
