import TachoPrint.Proofs.Machine.Endings
import TachoPrint.Proofs.Machine.MoveEffect

/-!
# Refused moves

A move can be refused for its feed rate, for the time that it would take, for its height and for
the speed of the vertical axis.  Each of these is checked before any motor is told anything: a
move that is refused leaves no event behind, and changes nothing but the speed of the head, if
its own feed rate was accepted.  What fails later is a motor.

## Main definitions

* `DeviceError.isRefusal` — a cause that lies in the move, and not in the hardware.
* `Action.Checked` — an action that is refused at once or else fails only for a motor.
* `Head.refusal?` — why a move is refused, told from the head alone.

## Main results

* `Action.Checked.bind` — a sequence is checked as its first part is.
* `Head.linearMove_checked` — a move is refused at once or fails only for a motor.
* `Head.linearMove_refused` — **a move that is refused touches nothing.**
-/

namespace TachoPrint

open TachoPrint.Action

/-- The cause lies in the move, and not in the hardware. -/
def DeviceError.isRefusal : DeviceError → Bool
  | .outOfRange _ _ => true
  | .motion _ => true
  | _ => false

/-! ### Actions that are refused at once -/

namespace Action

variable {ω σ α β : Type} {x : Action ω σ DeviceError α} {f : α → Action ω σ DeviceError β} {s : σ}
  {refusal? : Option DeviceError}

/-- If there is a refusal, the action ends with it at once; otherwise only a motor can fail. -/
def Checked (refusal? : Option DeviceError) (x : Action ω σ DeviceError α) (s : σ) : Prop :=
  match refusal? with
  | some cause => x s = ⟨[], s, .failed cause⟩
  | none => ∀ cause, (x s).ending = .failed cause → cause.IsMotor

/-- A sequence is checked as its first part is, if only motors fail in the others. -/
theorem Checked.bind (hx : Checked refusal? x s) (hf : ∀ a, Refuses DeviceError.IsMotor (f a)) :
    Checked refusal? (x >>= f) s := by
  cases refusal? with
  | some cause =>
    have hfirst : x s = ⟨[], s, .failed cause⟩ := hx
    change (x >>= f) s = _
    rw [bind_of_failed (congrArg Run.ending hfirst), hfirst]
  | none =>
    intro cause h
    rcases failed_of_bind_failed h with hfirst | ⟨a, -, hsecond⟩
    · exact hx cause hfirst
    · exact hf a _ cause hsecond

end Action

namespace Axis

/-- Why a change of height is refused: for the height, or else for the speed of the axis. -/
def heightRefusal? (a : Axis) (height highest : Binary64) : Option DeviceError :=
  if AllowedHeight height highest then
    if a.setup.speed.isPositive then none else some (.motion (.badVelocity a.setup.speed))
  else some (.outOfRange height highest)

theorem checked_moveToHeight (a : Axis) (height highest : Binary64) :
    Checked (a.heightRefusal? height highest) (moveToHeight height highest) a := by
  unfold heightRefusal?
  by_cases hallowed : AllowedHeight height highest
  · rw [if_pos hallowed]
    cases hspeed : a.setup.speed.isPositive with
    | true =>
      intro cause h
      rw [moveToHeight_eq hspeed hallowed] at h
      refine Refuses.bind (refuses_turn _ _) ?_ a cause h
      intro _ _ _
      exact fun _ _ h => nomatch h
    | false => exact moveToHeight_of_not_isPositive hspeed hallowed
  · rw [if_neg hallowed]
    exact moveToHeight_of_refused hallowed

end Axis

namespace Head

variable {h : Head} {m : Move}

/-! ### Why a move is refused -/

/-- Why a plan is refused: for its height, if that is another one. -/
def planRefusal? (h : Head) (plan : Plan) : Option DeviceError :=
  if plan.target.z.equals h.position.z then none
  else h.z.heightRefusal? plan.target.z h.limits.height

/-- Why the part of a move after its feed rate is refused. -/
def goalRefusal? (h : Head) (goal : Coordinates) : Option DeviceError :=
  if goal.isEmpty then none
  else match h.position.plan goal h.mode h.velocity h.limits.travel with
    | .done plan => h.planRefusal? plan
    | .failed cause => some (.motion cause)
    | .crashed => none

/-- Why a move is refused: for its feed rate, or else for its goal at that speed. -/
def refusal? (h : Head) (m : Move) : Option DeviceError :=
  match m.feed with
  | none => h.goalRefusal? m.goal
  | some feed =>
    if feed.isPositive then { h with velocity := feed }.goalRefusal? m.goal
    else some (.motion (.badVelocity feed))

/-- The speed of the head after the feed rate of a move: that rate, unless it is refused. -/
def acceptedSpeed (h : Head) (m : Move) : Binary64 :=
  match m.feed with
  | none => h.velocity
  | some feed => if feed.isPositive then feed else h.velocity

/-! ### Moves are refused at once -/

theorem checked_onAxis {n : AxisName} {act : Axis.Act Unit} {refusal? : Option DeviceError}
    (hact : Checked refusal? act (h.axis n)) : Checked refusal? (onAxis n act) h := by
  cases refusal? with
  | some cause =>
    have hrun : act (h.axis n) = ⟨[], h.axis n, .failed cause⟩ := hact
    change onAxis n act h = _
    unfold onAxis within
    rw [hrun]
    cases n <;> rfl
  | none =>
    intro cause hend
    exact hact cause hend

theorem checked_raise (h : Head) (plan : Plan) : Checked (h.planRefusal? plan) (raise plan) h := by
  have hraise : raise plan h = (if !plan.target.z.equals h.position.z then
      onAxis .z (Axis.moveToHeight plan.target.z h.limits.height) else pure ()) h := rfl
  unfold planRefusal? Checked
  rw [hraise]
  cases plan.target.z.equals h.position.z with
  | true => exact fun _ hend => nomatch hend
  | false => exact checked_onAxis (h.z.checked_moveToHeight _ _)

theorem checked_carryOut (h : Head) (plan : Plan) :
    Checked (h.planRefusal? plan) (carryOut plan) h := by
  rw [carryOut_eq_raise]
  apply (checked_raise h plan).bind
  intro _
  split
  · exact fun _ _ hend => nomatch hend
  · exact refuses_runTimed plan

theorem checked_follow {goal : Coordinates} (hgoal : goal.isEmpty = false) (h : Head) :
    Checked (h.goalRefusal? goal) (follow goal) h := by
  unfold goalRefusal?
  rw [if_neg (by rw [hgoal]; exact Bool.false_ne_true)]
  cases hplan : h.position.plan goal h.mode h.velocity h.limits.travel with
  | done plan =>
    dsimp only
    unfold Checked
    rw [follow_of_plan hplan]
    exact checked_carryOut h plan
  | failed cause =>
    change follow goal h = _
    unfold follow
    rw [get_bind_apply, hplan]
    rfl
  | crashed =>
    intro cause hend
    unfold follow at hend
    rw [get_bind_apply, hplan] at hend
    cases hend

/-- The part of a move after its feed rate. -/
theorem checked_goal (h : Head) (goal : Coordinates) :
    Checked (h.goalRefusal? goal) (if !goal.isEmpty then follow goal else pure ()) h := by
  cases hgoal : goal.isEmpty with
  | true =>
    unfold goalRefusal?
    rw [hgoal]
    exact fun _ hend => nomatch hend
  | false => exact checked_follow hgoal h

/-- **A move is refused at once, or else only a motor can fail.** -/
theorem linearMove_checked (m : Move) (h : Head) :
    match h.refusal? m with
    | some cause => linearMove m h = ⟨[], { h with velocity := h.acceptedSpeed m }, .failed cause⟩
    | none => ∀ cause, (linearMove m h).ending = .failed cause → cause.IsMotor := by
  unfold refusal? acceptedSpeed
  rw [linearMove_eq]
  cases hm : m.feed with
  | none => exact checked_goal h m.goal
  | some feed =>
    dsimp only
    cases hfeed : feed.isPositive with
    | true =>
      have hset := setVelocity_of_isPositive hfeed h
      have hgoal := checked_goal { h with velocity := feed } m.goal
      rw [bind_of_done (congrArg Run.ending hset), hset]
      simp only [if_true, List.nil_append]
      exact hgoal
    | false =>
      have hset := setVelocity_of_not_isPositive hfeed h
      rw [bind_of_failed (congrArg Run.ending hset), hset]
      rfl

/-- **A move that is refused touches nothing.**  It is refused exactly for what the checks of its
feed rate, its plan and its height give.  Then no event happened at any device, nothing was waited
for, and the head is as it was but for its speed, which is the feed rate of the move if that was
accepted. -/
theorem linearMove_refused {cause : DeviceError} (hcause : cause.isRefusal) (m : Move) (h : Head) :
    ((linearMove m h).ending = .failed cause ↔ h.refusal? m = some cause) ∧
      ((linearMove m h).ending = .failed cause →
        linearMove m h = ⟨[], { h with velocity := h.acceptedSpeed m }, .failed cause⟩) := by
  have hchecked := linearMove_checked m h
  cases hrefusal : h.refusal? m with
  | some cause' =>
    rw [hrefusal] at hchecked
    dsimp only at hchecked
    rw [hchecked]
    constructor
    · simp
    · intro hend
      obtain rfl := Outcome.failed.inj hend
      rfl
  | none =>
    rw [hrefusal] at hchecked
    have hnot : (linearMove m h).ending ≠ .failed cause := by
      intro hend
      obtain ⟨fault, rfl⟩ := hchecked cause hend
      cases hcause
    exact ⟨iff_of_false hnot nofun, fun hend => absurd hend hnot⟩

/-- A way across the bed at a speed of 25, up to a height of 500. -/
def tooHighAndAcross : Move := ⟨{ x := some 30, z := some 500 }, some 25⟩

/-- A head of which every motor fails at everything. -/
def dead : Head := standard fun _ _ _ => some ⟨"Unplugged"⟩

/-- No motor is told anything: the height is refused, and the feed rate is in force. -/
theorem linearMove_refused_tooHighAndAcross :
    (DeviceError.outOfRange 500 150).isRefusal = true ∧
      dead.refusal? tooHighAndAcross = some (.outOfRange 500 150) ∧
      linearMove tooHighAndAcross dead =
        ⟨[], { dead with velocity := 25 }, .failed (.outOfRange 500 150)⟩ := by
  have hrefusal : dead.refusal? tooHighAndAcross = some (.outOfRange 500 150) := by
    decide +kernel
  have hspeed : dead.acceptedSpeed tooHighAndAcross = 25 := by decide +kernel
  have hcause : (DeviceError.outOfRange 500 150).isRefusal = true := rfl
  obtain ⟨hiff, hrun⟩ := linearMove_refused hcause tooHighAndAcross dead
  refine ⟨hcause, hrefusal, ?_⟩
  rw [hrun (hiff.mpr hrefusal), hspeed]

end Head

end TachoPrint
