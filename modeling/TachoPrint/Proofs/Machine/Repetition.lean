import TachoPrint.Proofs.Machine.MoveEffect
import TachoPrint.Proofs.Machine.RelativeMoves
import TachoPrint.Proofs.Machine.Rest
import TachoPrint.Proofs.Motion.Contract

/-!
# Moves made again

An absolute move that has succeeded has nothing left to do.  Which part of it ran does not
matter: a timed move ends at the target, from where there is no way to go, and a way too short
to be timed is still too short the second time.  The height is reached in both cases.

## Main definitions

* `Position.Satisfies` — a position from which a plan has nothing left to do.

## Main results

* `Position.exists_idle_plan` — the plan from such a position is idle and needs no other height.
* `Head.satisfies_carryOut` — a plan that is carried out has nothing left to do.
* `Head.linearMove_again` — **making an absolute move again does nothing.**
-/

namespace TachoPrint

/-! ### Plans with nothing left to do -/

namespace Position

variable {current target next : Position} {goal : Coordinates} {velocity limit : Binary64}
  {plan : Plan}

/-- The position is one from which the plan has nothing left to do: its height is that of the
plan, and the rest is that of the target, or what it was if that was too near to be timed. -/
structure Satisfies (next current : Position) (plan : Plan) : Prop where
  place : next = { if plan.isIdle then current else plan.target with z := next.z }
  height : plan.target.z.equals next.z = true

/-- An absolute coordinate that was reached resolves to itself. -/
theorem resolve_of_reached {a b : Binary64} {given : Option Binary64}
    (h : Positioning.absolute.resolve a given = b) : Positioning.absolute.resolve b given = b := by
  subst h
  cases given <;> rfl

/-- The same for a coordinate that is held between bounds. -/
theorem clamp?_of_reached {a b low high : Binary64} {given : Option Binary64}
    (h : (Positioning.absolute.resolve a given).clamp? low high = some b) :
    (Positioning.absolute.resolve b given).clamp? low high = some b := by
  cases given with
  | none => exact Binary64.clamp?_clamp? h
  | some p => exact h

/-- Heights are not timed: another height at either end changes the target only. -/
theorem planTo_of_heights (h : current.planTo target velocity = .ok plan) (z z' : Binary64) :
    { current with z := z }.planTo { target with z := z' } velocity =
      .ok { plan with target := { target with z := z' } } := by
  unfold planTo at h ⊢
  dsimp only at h ⊢
  split at h
  · cases h
  · next hshort =>
    rw [if_neg hshort]
    split at h
    · next hidle =>
      obtain rfl := Except.ok.inj h
      rw [if_pos hidle]
    · next hidle =>
      obtain rfl := Except.ok.inj h
      rw [if_neg hidle]

/-- There is no way from a place to itself, whatever the heights are. -/
theorem planTo_self (p : Position) (z : Binary64) (velocity : Binary64) :
    p.planTo { p with z := z } velocity = .ok ⟨{ p with z := z }, 0, 0, 0, 0⟩ := by
  apply planTo_of_not_travels
  exact not_travels_of_vanishes (Binary64.vanishes_sub_self p.x) (Binary64.vanishes_sub_self p.y)
    (Binary64.vanishes_sub_self p.e)

/-- **From where a plan to places has nothing left to do, the next plan to these places is idle**
and needs no other height. -/
theorem exists_idle_plan (h : current.plan goal .absolute velocity limit = .done plan)
    (hnext : next.Satisfies current plan) :
    ∃ again, next.plan goal .absolute velocity limit = .done again ∧ again.isIdle = true ∧
      again.target.z.equals next.z = true := by
  obtain ⟨hv, htarget, hto⟩ := exists_planTo_of_plan h
  obtain ⟨hx, hy, hz, he⟩ := exists_clamp?_of_target? htarget
  have hheight : (Positioning.absolute.resolve next.z goal.z).equals next.z = true := by
    cases hg : goal.z with
    | none => exact Binary64.equals_self (Binary64.isNaN_of_equals hnext.height)
    | some p =>
      rw [hg] at hz
      have hsame := hnext.height
      rwa [hz] at hsame
  have hplace := hnext.place
  -- the plane and the filament are planned to where they were planned before
  have hplane : (Positioning.absolute.resolve next.x goal.x).clamp? (-limit.abs) limit.abs =
        some plan.target.x ∧
      (Positioning.absolute.resolve next.y goal.y).clamp? (-limit.abs) limit.abs =
        some plan.target.y ∧
      Positioning.absolute.resolve next.e goal.e = plan.target.e ∧
      ∃ again, next.planTo { plan.target with z := Positioning.absolute.resolve next.z goal.z }
        velocity = .ok again ∧ again.isIdle = true := by
    cases hidle : plan.isIdle with
    | true =>
      rw [hidle, if_pos rfl] at hplace
      rw [hplace]
      exact ⟨hx, hy, he.symm, _, planTo_of_heights hto _ _, hidle⟩
    | false =>
      have hzero : (0 : Binary64).atMost 0 = true := by decide +kernel
      rw [hidle, if_neg Bool.false_ne_true] at hplace
      have hself := planTo_self next (Positioning.absolute.resolve next.z goal.z) velocity
      rw [hplace] at hself ⊢
      exact ⟨clamp?_of_reached hx, clamp?_of_reached hy, resolve_of_reached he.symm, _, hself,
        hzero⟩
  obtain ⟨hx', hy', he', again, hagain, hidle⟩ := hplane
  have htarget' : next.target? goal .absolute limit =
      some { plan.target with z := Positioning.absolute.resolve next.z goal.z } := by
    simp only [target?, hx', hy', he', Option.bind_eq_bind, Option.bind_some, pure]
  refine ⟨again, ?_, hidle, ?_⟩
  · rw [plan_eq hv, htarget']
    dsimp only
    rw [hagain]
    rfl
  · rw [planTo_target hagain]
    exact hheight

end Position

open TachoPrint.Action

namespace Axis

variable {a : Axis}

/-- An axis that has moved is where it was sent. -/
theorem position_of_moveTo {target speed : Binary64}
    (hdone : (moveTo target speed a).ending = .done ()) :
    (moveTo target speed a).state.position = target := by
  unfold moveTo at hdone ⊢
  cases hspeed : checkVelocity speed with
  | error e =>
    rw [hspeed] at hdone
    cases hdone
  | ok v =>
    rw [hspeed] at hdone
    dsimp only at hdone ⊢
    rw [get_bind_apply] at hdone ⊢
    obtain ⟨_, hturn, -⟩ := exists_of_bind_done hdone
    rw [bind_of_done hturn]
    rfl

/-- A height that was reached is a number. -/
theorem equals_of_moveToHeight {height highest : Binary64}
    (hdone : (moveToHeight height highest a).ending = .done ()) :
    height.equals (moveToHeight height highest a).state.position = true := by
  unfold moveToHeight at hdone ⊢
  split at hdone
  · cases hdone
  · next hallowed =>
    have hfinite := AllowedHeight.isFinite ((Bool.not_eq_true _).mp hallowed)
    rw [if_neg hallowed]
    rw [get_bind_apply] at hdone ⊢
    rw [position_of_moveTo hdone]
    exact Binary64.equals_self (Binary64.isNaN_of_isFinite hfinite)

end Axis

namespace Head

variable {h : Head} {m : Move} {plan : Plan}

/-! ### What a plan leaves when it is carried out -/

/-- A timed move changes neither the height nor the speed. -/
theorem height_runTimed (plan : Plan) (h : Head) :
    (runTimed plan h).state.z.position = h.z.position ∧
      (runTimed plan h).state.velocity = h.velocity := by
  have hlogical := logical_timed h plan
  have harrived : (if h.timedSucceeds plan then h.arrived plan else h).z.position = h.z.position ∧
      (if h.timedSucceeds plan then h.arrived plan else h).velocity = h.velocity := by
    split <;> exact ⟨rfl, rfl⟩
  rw [runTimed_run]
  exact ⟨(congrArg (fun l => l.1.z) hlogical).trans harrived.1,
    (congrArg (fun l => l.2.1) hlogical).trans harrived.2⟩

/-- A change of height changes neither the plane nor the speed, and leads to the height of the
plan if it succeeds. -/
theorem height_raise (hdone : (raise plan h).ending = .done ()) :
    (raise plan h).state.AtPlace h.position ∧ (raise plan h).state.velocity = h.velocity ∧
      plan.target.z.equals (raise plan h).state.z.position = true := by
  unfold raise at hdone ⊢
  rw [get_bind_apply] at hdone ⊢
  cases hz : plan.target.z.equals h.position.z with
  | true => exact ⟨h.atPlace_position, rfl, hz⟩
  | false =>
    rw [hz] at hdone
    exact ⟨stays_onAxis_z _ h, rfl, Axis.equals_of_moveToHeight (a := h.z) hdone⟩

theorem AtPlace.position_eq {p : Position} (hp : h.AtPlace p) :
    h.position = { p with z := h.position.z } := by
  unfold position
  rw [hp.x, hp.y, hp.e]

/-- **A plan that is carried out has nothing left to do.** -/
theorem satisfies_carryOut (hdone : (carryOut plan h).ending = .done ()) :
    (carryOut plan h).state.position.Satisfies h.position plan ∧
      (carryOut plan h).state.velocity = h.velocity := by
  rw [carryOut_eq_raise] at hdone ⊢
  obtain ⟨_, hraise, hrest⟩ := exists_of_bind_done hdone
  obtain ⟨hstays, hvelocity, hz⟩ := height_raise hraise
  rw [bind_of_done hraise]
  dsimp only
  cases hidle : plan.isIdle with
  | true =>
    refine ⟨⟨?_, hz⟩, hvelocity⟩
    rw [hidle, if_pos rfl]
    exact hstays.position_eq
  | false =>
    rw [hidle, if_neg Bool.false_ne_true] at hrest
    rw [if_neg Bool.false_ne_true]
    have hplace := lands_runTimed plan (raise plan h).state
    unfold Lands at hplace
    rw [if_pos hrest] at hplace
    obtain ⟨hheight, hspeed⟩ := height_runTimed plan (raise plan h).state
    rw [← hheight] at hz
    refine ⟨⟨?_, hz⟩, hspeed.trans hvelocity⟩
    rw [hidle, if_neg Bool.false_ne_true]
    exact hplace.position_eq

/-- A plan that is idle and needs no other height is nothing to carry out. -/
theorem carryOut_of_idle (hidle : plan.isIdle = true)
    (hz : plan.target.z.equals h.position.z = true) : carryOut plan h = ⟨[], h, .done ()⟩ := by
  rw [carryOut_eq, get_bind_apply, hidle, hz]
  rfl

/-! ### The move made again -/

/-- The feed rate of a move that succeeds is accepted. -/
theorem isPositive_of_linearMove (hdone : (linearMove m h).ending = .done ()) :
    ∀ v ∈ m.feed, v.isPositive = true := by
  intro v hv
  rw [linearMove_eq, Option.mem_def.mp hv] at hdone
  cases hpos : v.isPositive with
  | true => rfl
  | false =>
    rw [bind_of_failed (congrArg Run.ending (setVelocity_of_not_isPositive hpos h))] at hdone
    cases hdone

/-- A move with a goal that succeeds has carried out a plan. -/
theorem exists_plan_of_linearMove (hgoal : m.goal.isEmpty = false)
    (hdone : (linearMove m h).ending = .done ()) : ∃ plan,
    h.position.plan m.goal h.mode (m.feed.getD h.velocity) h.limits.travel = .done plan ∧
      linearMove m h = carryOut plan (h.atSpeedOf m) := by
  have hfollow := linearMove_atSpeedOf (isPositive_of_linearMove hdone) hgoal h
  rw [hfollow] at hdone ⊢
  cases hplan : (h.atSpeedOf m).position.plan m.goal (h.atSpeedOf m).mode
      (h.atSpeedOf m).velocity (h.atSpeedOf m).limits.travel with
  | done plan => exact ⟨plan, hplan, follow_of_plan hplan⟩
  | failed e =>
    unfold follow at hdone
    rw [get_bind_apply, hplan] at hdone
    cases hdone
  | crashed =>
    unfold follow at hdone
    rw [get_bind_apply, hplan] at hdone
    cases hdone

/-- **Making an absolute move again does nothing.**  If it succeeded it has carried out its plan,
and the head takes it once more as a success, and neither asks anything of a motor nor waits nor
changes. -/
theorem linearMove_again (hmode : h.mode = .absolute) (hgoal : m.goal.isEmpty = false)
    (hdone : (linearMove m h).ending = .done ()) :
    (∃ plan,
      h.position.plan m.goal .absolute (m.feed.getD h.velocity) h.limits.travel = .done plan ∧
      (linearMove m h).state.position.Satisfies h.position plan) ∧
    linearMove m (linearMove m h).state = ⟨[], (linearMove m h).state, .done ()⟩ := by
  have hmode' := (mode_linearMove m h).trans hmode
  have hlimits : (linearMove m h).state.limits = h.limits :=
    (keeps_execute steady_told (.move m) h).limits
  have hfeed := isPositive_of_linearMove hdone
  obtain ⟨plan, hplan, hcarry⟩ := exists_plan_of_linearMove hgoal hdone
  rw [hmode] at hplan
  rw [hcarry] at hdone
  obtain ⟨hsatisfies, hvelocity⟩ := satisfies_carryOut hdone
  rw [← hcarry] at hsatisfies hvelocity
  refine ⟨⟨plan, hplan, hsatisfies⟩, ?_⟩
  obtain ⟨again, hagain, hidle, hz⟩ := Position.exists_idle_plan hplan hsatisfies
  generalize (linearMove m h).state = h' at *
  -- the head has the speed of the move already
  have hspeed : h'.atSpeedOf m = h' := by
    unfold atSpeedOf
    have hsame : m.feed.getD h'.velocity = h'.velocity := by
      rw [hvelocity]
      unfold atSpeedOf
      cases m.feed <;> rfl
    rw [hsame]
  rw [linearMove_atSpeedOf hfeed hgoal, hspeed]
  have hplan' : h'.position.plan m.goal h'.mode h'.velocity h'.limits.travel = .done again := by
    rw [hmode', hlimits, hvelocity]
    exact hagain
  rw [follow_of_plan hplan', carryOut_of_idle hidle hz]

/-- A lift and a way beyond the travel limit, which ends at the limit. -/
def liftAndLeave : Move := ⟨{ x := some 500, z := some 5 }, some 10⟩

/-- The first time there is a trace and the head ends elsewhere, the second time there is
neither. -/
theorem linearMove_again_liftAndLeave :
    let h := standard fun _ _ _ => none
    let first := linearMove liftAndLeave h
    first.ending = .done () ∧ first.trace.length = 10 ∧ first.state.position = ⟨100, 0, 5, 0⟩ ∧
      linearMove liftAndLeave first.state = ⟨[], first.state, .done ()⟩ := by
  intro h first
  have hdone : first.ending = .done () := by decide +kernel
  exact ⟨hdone, by decide +kernel, by decide +kernel, (linearMove_again rfl rfl hdone).2⟩

end Head

end TachoPrint
