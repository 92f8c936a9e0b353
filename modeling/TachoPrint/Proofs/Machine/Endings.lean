import TachoPrint.Proofs.Machine.Obedience
import TachoPrint.Proofs.Machine.Program
import TachoPrint.Proofs.Motion.Plan

/-!
# How moves end

With motors that obey, how a move ends can be told from the head alone: a feed rate, a
plan or a height may be refused, and a change of height may be too much for the encoder.

## Main definitions

* `Head.planEnding`, `Head.moveEnding` — how a plan and a move end.
* `Head.heightTurn` — the counts by which a move turns the vertical motor.

## Main results

* `Head.carryOut_ending`, `Head.linearMove_ending` — the endings are the predicted ones.
* `Head.execute_crashed_iff` — what crashes, apart from homing, is a change of height.
-/

namespace TachoPrint

open TachoPrint.Action

/-- True of the instructions that drive axes to their endstops. -/
def Instruction.homes : Instruction → Bool
  | .home _ => true
  | _ => false

namespace Axis

instance (height highest : Binary64) : Decidable (AllowedHeight height highest) :=
  inferInstanceAs (Decidable (_ = _))

end Axis

namespace Head

/-- How a plan ends: the height may be refused or too much for the encoder, and nothing
else may happen. -/
def planEnding (h : Head) (plan : Plan) : Outcome DeviceError Unit :=
  if plan.target.z.equals h.position.z then .done ()
  else if Axis.AllowedHeight plan.target.z h.limits.height then
    if h.z.HasRoom (h.z.heightCounts plan.target.z) then .done () else .crashed
  else .failed (.outOfRange plan.target.z h.limits.height)

/-- How the part of a move after its feed rate ends. -/
def goalEnding (h : Head) (goal : Coordinates) : Outcome DeviceError Unit :=
  if goal.isEmpty then .done ()
  else match h.position.plan goal h.mode h.velocity h.limits.travel with
    | .done plan => h.planEnding plan
    | .failed e => .failed (.motion e)
    | .crashed => .crashed

/-- The counts by which a plan turns the vertical motor, unless it is refused. -/
def planTurn (h : Head) (plan : Plan) : Option Int32 :=
  if plan.target.z.equals h.position.z then none
  else if Axis.AllowedHeight plan.target.z h.limits.height then
    some (h.z.heightCounts plan.target.z)
  else none

/-- The counts by which the part of a move after its feed rate turns the vertical motor. -/
def goalTurn (h : Head) (goal : Coordinates) : Option Int32 :=
  if goal.isEmpty then none
  else match h.position.plan goal h.mode h.velocity h.limits.travel with
    | .done plan => h.planTurn plan
    | _ => none

/-- The counts by which a move turns the vertical motor, unless something before that is
refused. -/
def heightTurn (h : Head) (m : Move) : Option Int32 :=
  { h with velocity := m.feed.getD h.velocity }.goalTurn m.goal

/-- How a move ends. -/
def moveEnding (h : Head) (m : Move) : Outcome DeviceError Unit :=
  match m.feed with
  | none => h.goalEnding m.goal
  | some feed =>
    if feed.isPositive then { h with velocity := feed }.goalEnding m.goal
    else .failed (.motion (.badVelocity feed))

variable {h : Head}

/-- **How a plan is carried out is told from the head alone.** -/
theorem carryOut_ending (hh : h.Obeys) (hspeed : h.z.setup.speed.isPositive) (plan : Plan) :
    (carryOut plan h).ending = h.planEnding plan := by
  have hplane : ∀ h' : Head, h'.Obeys →
      ((if !plan.isIdle then runTimed plan else pure ()) h').ending = .done () := by
    intro h' hh'
    split
    · exact (runTimed_of_obeys hh' plan).1
    · rfl
  rw [carryOut_eq, get_bind_apply]
  unfold planEnding
  cases hz : plan.target.z.equals h.position.z with
  | true => exact hplane h hh
  | false =>
    simp only [Bool.not_false, Bool.false_eq_true, if_true, if_false]
    -- the vertical axis decides, and what is left after it always succeeds
    by_cases hallowed : Axis.AllowedHeight plan.target.z h.limits.height
    · rw [if_pos hallowed]
      obtain ⟨hroom, hnone⟩ := Axis.moveToHeight_of_obeys (hh.axis .z) hspeed hallowed
      by_cases hr : h.z.HasRoom (h.z.heightCounts plan.target.z)
      · rw [if_pos hr]
        have hdone : (onAxis .z (Axis.moveToHeight plan.target.z h.limits.height) h).ending =
            .done () := (hroom hr).1
        rw [bind_of_done hdone]
        have hobeys : (Axis.moveToHeight plan.target.z h.limits.height h.z).state.motor.Obeys :=
          Axis.steady_obeys.moveToHeight (fun _ => trivial) h.z (hh.axis .z)
        exact hplane _ (hh.withAxis .z hobeys)
      · rw [if_neg hr]
        have hcrash : (onAxis .z (Axis.moveToHeight plan.target.z h.limits.height) h).ending =
            .crashed := (hnone hr).1
        rw [bind_of_crashed hcrash]
    · rw [if_neg hallowed]
      have hfail : (onAxis .z (Axis.moveToHeight plan.target.z h.limits.height) h).ending =
          .failed (.outOfRange plan.target.z h.limits.height) :=
        congrArg Run.ending (Axis.moveToHeight_of_refused hallowed)
      rw [bind_of_failed hfail]

theorem follow_ending (hh : h.Obeys) (hspeed : h.z.setup.speed.isPositive) (goal : Coordinates) :
    ((if !goal.isEmpty then follow goal else pure ()) h).ending = h.goalEnding goal := by
  unfold goalEnding
  cases goal.isEmpty with
  | true => rfl
  | false =>
    simp only [Bool.not_false, Bool.false_eq_true, if_true, if_false]
    unfold follow
    rw [get_bind_apply]
    cases hp : h.position.plan goal h.mode h.velocity h.limits.travel with
    | done plan => exact carryOut_ending hh hspeed plan
    | failed e => rfl
    | crashed => rfl

/-- **How a move ends is told from the head alone.** -/
theorem linearMove_ending (hh : h.Obeys) (hspeed : h.z.setup.speed.isPositive) (m : Move) :
    (linearMove m h).ending = h.moveEnding m := by
  rw [linearMove_eq]
  unfold moveEnding
  cases m.feed with
  | none => exact follow_ending hh hspeed m.goal
  | some feed =>
    dsimp only
    cases hf : feed.isPositive with
    | true =>
      have hset := setVelocity_of_isPositive hf h
      rw [bind_of_done (congrArg Run.ending hset), hset]
      exact follow_ending (hh.withVelocity feed) hspeed m.goal
    | false =>
      rw [bind_of_failed (congrArg Run.ending (setVelocity_of_not_isPositive hf h))]
      rfl

/-! ### Crashes -/

theorem planEnding_crashed_iff (plan : Plan) :
    h.planEnding plan = .crashed ↔ ∃ n, h.planTurn plan = some n ∧ ¬h.z.HasRoom n := by
  unfold planEnding planTurn
  cases hz : plan.target.z.equals h.position.z with
  | true => simp
  | false =>
    by_cases ha : Axis.AllowedHeight plan.target.z h.limits.height
    · by_cases hr : h.z.HasRoom (h.z.heightCounts plan.target.z)
      · simp [ha, hr]
      · simp [ha, hr]
    · simp [ha]

theorem goalEnding_crashed_iff (hlimit : h.limits.travel.isPositive) (goal : Coordinates) :
    h.goalEnding goal = .crashed ↔ ∃ n, h.goalTurn goal = some n ∧ ¬h.z.HasRoom n := by
  unfold goalEnding goalTurn
  cases goal.isEmpty with
  | true => simp
  | false =>
    cases hp : h.position.plan goal h.mode h.velocity h.limits.travel with
    | done plan => exact planEnding_crashed_iff plan
    | failed e => simp
    | crashed => exact absurd hp (Position.plan_ne_crashed
      (Binary64.isNaN_of_isFinite (Binary64.isFinite_of_isPositive hlimit)))

/-- A move crashes exactly when its change of height is too much for the encoder. -/
theorem moveEnding_crashed_iff (hlimit : h.limits.travel.isPositive) (m : Move) :
    h.moveEnding m = .crashed ↔ ∃ n, h.heightTurn m = some n ∧ ¬h.z.HasRoom n := by
  unfold moveEnding heightTurn
  cases hm : m.feed with
  | none => exact goalEnding_crashed_iff hlimit m.goal
  | some feed =>
    dsimp only [Option.getD_some]
    by_cases hf : feed.isPositive
    · rw [if_pos hf]
      have hfast : { h with velocity := feed }.limits.travel.isPositive := hlimit
      exact goalEnding_crashed_iff hfast m.goal
    · -- nothing is planned at a speed that is refused
      rw [if_neg hf]
      simp [goalTurn, Position.plan_of_not_isPositive ((Bool.not_eq_true _).mp hf)]

/-- **What crashes, apart from homing, is a change of height** that is too much for the
encoder. -/
theorem execute_crashed_iff (hh : h.Obeys) (hspeed : h.z.setup.speed.isPositive)
    (hlimit : h.limits.travel.isPositive) {i : Instruction} (hi : i.homes = false) :
    (execute i h).ending = .crashed ↔
      ∃ m n, i = .move m ∧ h.heightTurn m = some n ∧ ¬h.z.HasRoom n := by
  cases i with
  | move m =>
    change (linearMove m h).ending = _ ↔ _
    rw [linearMove_ending hh hspeed, moveEnding_crashed_iff hlimit]
    simp
  | home axes => cases hi
  | release axes =>
    have hdone : (execute (.release axes) h).ending = .done () :=
      (drives_release axes).ending_eq hh
    simp [hdone]
  | pause micros => simp [execute, pause, emit]
  | setPositioning mode => simp [execute, setMode, Action.modify]
  | setPosition c => simp [execute, setPosition, Action.modify]

end Head

end TachoPrint
