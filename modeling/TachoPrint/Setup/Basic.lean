import TachoPrint.Binary64.Arith

/-!
# The setup of a printer

How the printer is built: which motor and sensor is plugged into which socket, how far a turn
moves an axis, how the axes are homed, and the limits of the head.

## Main definitions

* `MotorPort`, `SensorPort` — the sockets of the controller.
* `HomingSetup` — how an axis is driven to its endstop.
* `AxisSetup`, `ExtruderSetup` — one motor each.
* `PrinterSetup` — the whole printer.
* `PrinterSetup.standard` — the standard printer.
* `PrinterSetup.agrees` — numerical equality of two setups.
-/

namespace TachoPrint

/-- The names of the three axes. -/
inductive AxisName where
  | x
  | y
  | z
  deriving DecidableEq, Repr, Inhabited

/-- The letter of an axis. -/
def AxisName.text : AxisName → String
  | .x => "x"
  | .y => "y"
  | .z => "z"

/-- A motor socket. -/
inductive MotorPort where
  | outA
  | outB
  | outC
  | outD
  deriving DecidableEq, Repr, Inhabited

namespace MotorPort

/-- The name of a motor socket. -/
def text : MotorPort → String
  | outA => "OutA"
  | outB => "OutB"
  | outC => "OutC"
  | outD => "OutD"

/-- The motor socket with a name. -/
def ofText? (s : String) : Option MotorPort :=
  [outA, outB, outC, outD].find? fun p => p.text = s

end MotorPort

/-- A sensor socket. -/
inductive SensorPort where
  | in1
  | in2
  | in3
  | in4
  deriving DecidableEq, Repr, Inhabited

namespace SensorPort

/-- The name of a sensor socket. -/
def text : SensorPort → String
  | in1 => "In1"
  | in2 => "In2"
  | in3 => "In3"
  | in4 => "In4"

/-- The sensor socket with a name. -/
def ofText? (s : String) : Option SensorPort :=
  [in1, in2, in3, in4].find? fun p => p.text = s

end SensorPort

/-- How an axis is driven to its endstop. -/
structure HomingSetup where
  /-- The way back from the endstop in millimetres. -/
  offset : Binary64 := 0
  /-- The endstop lies in the negative direction. -/
  invertMotor : Bool := false
  /-- The endstop reads high when it is released. -/
  invertSensor : Bool := false
  /-- The homing speed in millimetres per second. -/
  speed : Binary64 := 10
  deriving DecidableEq, Inhabited

/-- One axis of the printer. -/
structure AxisSetup where
  /-- Where the motor is plugged in. -/
  motorPort : MotorPort
  /-- Where the endstop is plugged in. -/
  sensorPort : SensorPort
  /-- The travel speed in millimetres per second. -/
  speed : Binary64 := 20
  /-- Motor degrees per millimetre of travel. -/
  degreesPerMm : Binary64
  /-- An endstop is fitted. -/
  touchSensor : Bool := true
  /-- The motor turns the other way round. -/
  inverted : Bool := false
  /-- How the axis is homed. -/
  homing : HomingSetup := {}
  deriving DecidableEq, Inhabited

/-- The filament motor. -/
structure ExtruderSetup where
  /-- Where the motor is plugged in. -/
  motorPort : MotorPort
  /-- Motor degrees per millimetre of filament. -/
  degreesPerMm : Binary64
  deriving DecidableEq, Inhabited

/-- The whole printer. -/
structure PrinterSetup where
  /-- The head speed in millimetres per second until a move changes it. -/
  velocity : Binary64
  /-- How far the plane axes may be driven to either side, in millimetres. -/
  travelLimit : Binary64
  /-- How high the head may be lifted, in millimetres. -/
  maxHeight : Binary64
  /-- How long an endstop is waited for, in milliseconds. -/
  endstopTimeout : UInt64
  /-- The time between two looks at an endstop, in milliseconds. -/
  pollInterval : UInt32
  /-- The axis across the bed. -/
  x : AxisSetup
  /-- The axis along the bed. -/
  y : AxisSetup
  /-- The axis above the bed. -/
  z : AxisSetup
  /-- The filament motor, if there is one. -/
  extruder : Option ExtruderSetup
  deriving DecidableEq, Inhabited

/-- The standard printer. -/
def PrinterSetup.standard : PrinterSetup where
  velocity := 20
  travelLimit := 100
  maxHeight := 150
  endstopTimeout := 30000
  pollInterval := 1
  x :=
    { motorPort := .outA
      sensorPort := .in1
      degreesPerMm := 5
      homing := { invertMotor := true } }
  y :=
    { motorPort := .outB
      sensorPort := .in2
      degreesPerMm := 14.0625
      homing := { offset := -20.4, invertMotor := true, invertSensor := true } }
  z :=
    { motorPort := .outC
      sensorPort := .in3
      speed := 2
      degreesPerMm := 240
      touchSensor := false }
  extruder := none

/-! ### Numerical equality

Two setups that hold the same values need not agree: NaN differs from itself.  And
two that agree need not be the same, since zeros of both signs are equal. -/

/-- Numerical equality of homing parameters. -/
def HomingSetup.agrees (a b : HomingSetup) : Bool :=
  a.offset.equals b.offset && a.invertMotor == b.invertMotor &&
    a.invertSensor == b.invertSensor && a.speed.equals b.speed

/-- Numerical equality of axes. -/
def AxisSetup.agrees (a b : AxisSetup) : Bool :=
  a.motorPort == b.motorPort && a.sensorPort == b.sensorPort && a.speed.equals b.speed &&
    a.degreesPerMm.equals b.degreesPerMm && a.touchSensor == b.touchSensor &&
      a.inverted == b.inverted && a.homing.agrees b.homing

/-- Numerical equality of filament motors. -/
def ExtruderSetup.agrees (a b : ExtruderSetup) : Bool :=
  a.motorPort == b.motorPort && a.degreesPerMm.equals b.degreesPerMm

/-- Numerical equality of printers. -/
def PrinterSetup.agrees (a b : PrinterSetup) : Bool :=
  a.velocity.equals b.velocity && a.travelLimit.equals b.travelLimit &&
    a.maxHeight.equals b.maxHeight && a.endstopTimeout == b.endstopTimeout &&
      a.pollInterval == b.pollInterval && a.x.agrees b.x && a.y.agrees b.y && a.z.agrees b.z &&
        match a.extruder, b.extruder with
        | some e, some f => e.agrees f
        | none, none => true
        | _, _ => false

end TachoPrint
