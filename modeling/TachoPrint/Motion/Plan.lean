import TachoPrint.Decimal.Layout
import TachoPrint.Motion.Move
import TachoPrint.Outcome

/-!
# Planning timed moves

The printer has no trajectory control: a move in the plane runs every motor
involved at a constant speed for a fixed time.  Planning turns the coordinates of a
move into that time and those speeds.

## Main definitions

* `MotionError` — why a move is refused.
* `checkVelocity` — a head speed is positive and finite.
* `Plan` — where a timed move leads, for how long and how fast.
* `Position.plan` — the plan of a move from a position.
-/

namespace TachoPrint

/-- Why a move is refused. -/
inductive MotionError where
  /-- The head speed is not positive and finite. -/
  | badVelocity (velocity : Binary64)
  /-- The move would take longer than a timed move may. -/
  | tooLong (seconds : Binary64)
  deriving DecidableEq

/-- The wording of a refusal. -/
def MotionError.message : MotionError → String
  | .badVelocity v => "velocity must be positive and finite, got " ++ Layout.message.text v
  | .tooLong t => "move would take " ++ Layout.message.text t ++ " s"

/-- A head speed must be positive and finite. -/
def checkVelocity (velocity : Binary64) : Except MotionError Binary64 :=
  if velocity.isPositive then .ok velocity else .error (.badVelocity velocity)

/-- A way in the plane, or a length of filament, of at most this is no motion. -/
def minTravel : Binary64 := 1e-9

/-- The longest timed move in seconds: `2 ^ 32 - 1` milliseconds. -/
def maxSeconds : Binary64 := Binary64.div 4294967295 1000

/-- A planned move. -/
structure Plan where
  /-- The logical position at the end. -/
  target : Position
  /-- How long the motors run, in seconds; zero without motion. -/
  duration : Binary64
  /-- The speed along `x` in millimetres per second. -/
  vx : Binary64
  /-- The speed along `y`. -/
  vy : Binary64
  /-- The speed of the filament. -/
  ve : Binary64
  deriving DecidableEq

/-- True when neither the plane axes nor the extruder have to run. -/
def Plan.isIdle (p : Plan) : Bool := p.duration.atMost 0

/-- How long a displacement takes: the way in the plane at the given speed, and
without one the filament at that speed. -/
def travelTime (dx dy de velocity : Binary64) : Binary64 :=
  let distance := Binary64.hypot dx dy
  if minTravel.less distance then distance / velocity
  else if minTravel.less de.abs then de.abs / velocity
  else 0

/-- Where a move leads.  The plane coordinates are held within the travel limit on
either side, which has no answer for a limit that is not a number. -/
def Position.target? (current : Position) (goal : Coordinates) (mode : Positioning)
    (limit : Binary64) : Option Position := do
  let high := limit.abs
  let x ← (mode.resolve current.x goal.x).clamp? (-high) high
  let y ← (mode.resolve current.y goal.y).clamp? (-high) high
  return ⟨x, y, mode.resolve current.z goal.z, mode.resolve current.e goal.e⟩

/-- The timed move between two positions. -/
def Position.planTo (current target : Position) (velocity : Binary64) : Except MotionError Plan :=
  let dx := target.x - current.x
  let dy := target.y - current.y
  let de := target.e - current.e
  let duration := travelTime dx dy de velocity
  if duration.isNaN || maxSeconds.less duration then .error (.tooLong duration)
  else if duration.atMost 0 then .ok ⟨target, 0, 0, 0, 0⟩
  else .ok ⟨target, duration, dx / duration, dy / duration, de / duration⟩

/-- The plan of a move.  The plane is crossed at the head speed and the extruder
finishes at the same time.  The height is resolved but not timed: it is reached
before the plane is crossed. -/
def Position.plan (current : Position) (goal : Coordinates) (mode : Positioning)
    (velocity limit : Binary64) : Outcome MotionError Plan := do
  let velocity ← .ofExcept (checkVelocity velocity)
  let target ← .orCrash (current.target? goal mode limit)
  .ofExcept (current.planTo target velocity)

end TachoPrint
