import TachoPrint.Motion.Plan

/-!
# Devices

The events and failures of the hardware.

## Main definitions

* `StopAction`, `Polarity` — motor parameters.
* `MotorCommand`, `MotorCall` — what a motor is told, and which kind of call that is.
* `Reading` — what an endstop shows.
* `MotorFault` — what the driver of a motor reports when a command fails.
* `DeviceEvent` — what happens at one device.
* `DeviceError` — why an action of the machine is refused.
-/

namespace TachoPrint

/-- What a motor does once it is told to stop. -/
inductive StopAction where
  /-- Spin down without power. -/
  | coast
  /-- Brake passively. -/
  | brake
  /-- Hold the place actively. -/
  | hold
  deriving DecidableEq, Repr, Inhabited

/-- Which way round a motor turns at a positive speed. -/
inductive Polarity where
  | normal
  | inversed
  deriving DecidableEq, Repr, Inhabited

/-- What a motor can be told.  Speeds are in encoder counts per second. -/
inductive MotorCommand where
  /-- Tell the encoder counts of a full turn. -/
  | resolution
  /-- Set the speed of the next run. -/
  | speed (counts : Int32)
  /-- Run until stopped. -/
  | run
  /-- Run by a number of counts. -/
  | turn (counts : Int32)
  /-- Stop. -/
  | stop
  /-- Set what stopping means. -/
  | stopAction (action : StopAction)
  /-- Set which way round to turn. -/
  | polarity (polarity : Polarity)
  /-- Forget every parameter and zero the encoder. -/
  | reset
  /-- Return once the motor stands still. -/
  | await
  deriving DecidableEq, Repr, Inhabited

/-- The kinds of motor commands. -/
inductive MotorCall where
  | resolution
  | speed
  | run
  | turn
  | stop
  | stopAction
  | polarity
  | reset
  | await
  deriving DecidableEq, Repr, Inhabited

/-- The kind of a command. -/
def MotorCommand.call : MotorCommand → MotorCall
  | .resolution => .resolution
  | .speed _ => .speed
  | .run => .run
  | .turn _ => .turn
  | .stop => .stop
  | .stopAction _ => .stopAction
  | .polarity _ => .polarity
  | .reset => .reset
  | .await => .await

/-- What an endstop shows. -/
inductive Reading where
  | high
  | low
  /-- It cannot be read. -/
  | broken
  deriving DecidableEq, Repr, Inhabited

/-- What the driver of a motor reports when a command fails.  Drivers have errors of their own;
all that is known of one is how it words itself. -/
structure MotorFault where
  /-- The wording. -/
  text : String
  deriving DecidableEq, Repr, Inhabited

/-- What happens at one device. -/
inductive DeviceEvent where
  /-- The motor was told something and did it. -/
  | obeyed (command : MotorCommand)
  /-- The motor was told something and failed with a fault. -/
  | refused (command : MotorCommand) (fault : MotorFault)
  /-- The endstop was read. -/
  | read (reading : Reading)
  /-- A delay between two reads. -/
  | waited (millis : UInt32)
  deriving DecidableEq, Repr, Inhabited

/-- The command of an event at a motor, obeyed or not. -/
def DeviceEvent.command? : DeviceEvent → Option MotorCommand
  | .obeyed c => some c
  | .refused c _ => some c
  | _ => none

/-- Why an action of the machine is refused. -/
inductive DeviceError where
  /-- A motor failed, and this is what its driver reported. -/
  | motor (fault : MotorFault)
  /-- An endstop could not be read. -/
  | endstop
  /-- An endstop did not change in time. -/
  | endstopTimeout (millis : UInt64)
  /-- The axis has no endstop. -/
  | noEndstop
  /-- A height outside the range from the bed to the highest place. -/
  | outOfRange (target highest : Binary64)
  /-- The move itself is refused. -/
  | motion (cause : MotionError)
  deriving DecidableEq

/-- The wording of a refusal. -/
def DeviceError.message : DeviceError → String
  | .motor fault => "motor driver error: " ++ fault.text
  | .endstop => "endstop read failed: Other"
  | .endstopTimeout millis =>
      "endstop did not change state within " ++ toString millis.toNat ++ " ms"
  | .noEndstop => "axis has no endstop"
  | .outOfRange target highest =>
      "target " ++ Layout.message.text target ++ " mm outside [0, " ++
        Layout.message.text highest ++ "]"
  | .motion cause => cause.message

end TachoPrint
