import TachoPrint.Motion.Plan
import TachoPrint.Proofs.Binary64.Order

/-!
# Where planned moves lead

A plan leads to the coordinates that the move resolves to, held within the travel
limit.  Sums of coordinates may well be infinite, but as long as the head is somewhere
and the coordinates are finite they are numbers, and clamped numbers are in bounds.

## Main definitions

* `Coordinates.Finite` — every coordinate given is finite.

## Main results

* `Position.target?_of_plan` — a plan keeps the target that was resolved.
* `Position.between_of_target?` — **the target is within the travel limit.**
* `Position.plan_ne_badVelocity` — a positive speed is not refused.
* `Position.plan_ne_crashed` — within a travel limit that is a number there is an answer.
-/

namespace TachoPrint

/-- Every coordinate that is given is finite. -/
def Coordinates.Finite (c : Coordinates) : Prop :=
  (∀ p ∈ c.x, p.isFinite) ∧ (∀ p ∈ c.y, p.isFinite) ∧ (∀ p ∈ c.z, p.isFinite) ∧
    ∀ p ∈ c.e, p.isFinite

instance (c : Coordinates) : Decidable c.Finite := inferInstanceAs (Decidable (_ ∧ _))

/-- A finite coordinate resolves to a number. -/
theorem Positioning.isNaN_resolve (mode : Positioning) {current : Binary64}
    {given : Option Binary64} (hc : current.isNaN = false) (hg : ∀ p ∈ given, p.isFinite) :
    (mode.resolve current given).isNaN = false := by
  unfold resolve
  cases mode with
  | absolute =>
    cases given with
    | none => exact hc
    | some p => exact Binary64.isNaN_of_isFinite (hg p rfl)
  | relative =>
    cases given with
    | none => exact Binary64.isNaN_add hc Binary64.isFinite_zero
    | some p => exact Binary64.isNaN_add hc (hg p rfl)

@[simp] theorem isFinite_maxSeconds : maxSeconds.isFinite = true := by decide +kernel

namespace Position

variable {current target : Position} {goal : Coordinates} {mode : Positioning}
  {velocity limit : Binary64}

/-- The coordinates of a target, one by one. -/
theorem exists_clamp?_of_target? (h : current.target? goal mode limit = some target) :
    (mode.resolve current.x goal.x).clamp? (-limit.abs) limit.abs = some target.x ∧
      (mode.resolve current.y goal.y).clamp? (-limit.abs) limit.abs = some target.y ∧
        target.z = mode.resolve current.z goal.z ∧ target.e = mode.resolve current.e goal.e := by
  simp only [target?, Option.bind_eq_bind, Option.bind_eq_some_iff, pure,
    Option.some.injEq] at h
  obtain ⟨x, hx, y, hy, rfl⟩ := h
  exact ⟨hx, hy, rfl, rfl⟩

/-- **The target of a move is within the travel limit**, also when a step is so long that
its end is infinite. -/
theorem between_of_target? (hx : current.x.isNaN = false) (hy : current.y.isNaN = false)
    (hgoal : goal.Finite) (h : current.target? goal mode limit = some target) :
    target.x.Between (-limit.abs) limit.abs ∧ target.y.Between (-limit.abs) limit.abs := by
  obtain ⟨hgx, hgy, -, -⟩ := hgoal
  obtain ⟨htx, hty, -, -⟩ := exists_clamp?_of_target? h
  exact ⟨Binary64.between_clamp? (mode.isNaN_resolve hx hgx) htx,
    Binary64.between_clamp? (mode.isNaN_resolve hy hgy) hty⟩

theorem planTo_target {plan : Plan} (h : current.planTo target velocity = .ok plan) :
    plan.target = target := by
  unfold planTo at h
  dsimp only at h
  split at h
  · cases h
  · split at h
    · obtain rfl := Except.ok.inj h
      rfl
    · obtain rfl := Except.ok.inj h
      rfl

/-- A plan for a speed that is positive is the timed move to the resolved target. -/
theorem plan_eq (hv : velocity.isPositive = true) :
    current.plan goal mode velocity limit =
      match current.target? goal mode limit with
      | none => .crashed
      | some target => .ofExcept (current.planTo target velocity) := by
  unfold plan checkVelocity
  rw [if_pos hv]
  simp only [bind, Outcome.bind, Outcome.ofExcept]
  cases current.target? goal mode limit with
  | none => rfl
  | some target => simp only [Outcome.orCrash]

@[simp] theorem plan_of_not_isPositive (hv : velocity.isPositive = false) :
    current.plan goal mode velocity limit = .failed (.badVelocity velocity) := by
  unfold plan checkVelocity
  rw [if_neg (by rw [hv]; decide)]
  rfl

/-- A plan is made for a positive speed, and to the target that the move resolves to. -/
theorem exists_planTo_of_plan {plan : Plan}
    (h : current.plan goal mode velocity limit = .done plan) :
    velocity.isPositive = true ∧ current.target? goal mode limit = some plan.target ∧
      current.planTo plan.target velocity = .ok plan := by
  cases hv : velocity.isPositive with
  | false =>
    rw [plan_of_not_isPositive hv] at h
    cases h
  | true =>
    rw [plan_eq hv] at h
    cases ht : current.target? goal mode limit with
    | none =>
      rw [ht] at h
      cases h
    | some target =>
      rw [ht] at h
      dsimp only at h
      cases hp : current.planTo target velocity with
      | error e =>
        rw [hp] at h
        cases h
      | ok found =>
        rw [hp] at h
        obtain rfl := Outcome.done.inj h
        rw [planTo_target hp]
        exact ⟨rfl, rfl, hp⟩

/-- A plan leads to the target that the move resolves to. -/
theorem target?_of_plan {plan : Plan} (h : current.plan goal mode velocity limit = .done plan) :
    current.target? goal mode limit = some plan.target := (exists_planTo_of_plan h).2.1

/-- The speeds along the plane are the way along each axis by the time that both take. -/
theorem speeds_of_planTo {plan : Plan} (h : current.planTo target velocity = .ok plan)
    (hidle : plan.isIdle = false) :
    plan.vx = (target.x - current.x) / plan.duration ∧
      plan.vy = (target.y - current.y) / plan.duration := by
  unfold planTo at h
  dsimp only at h
  split at h
  · cases h
  · split at h
    · obtain rfl := Except.ok.inj h
      have hzero := Binary64.atMost_refl (Binary64.isNaN_of_isFinite Binary64.isFinite_zero)
      rw [Plan.isIdle, hzero] at hidle
      cases hidle
    · cases h
      simp only [and_self]

/-- The time of a move that is not idle is a number and not too long. -/
theorem duration_of_planTo {plan : Plan} (h : current.planTo target velocity = .ok plan)
    (hidle : plan.isIdle = false) :
    plan.duration.isNaN = false ∧ maxSeconds.less plan.duration = false := by
  unfold planTo at h
  dsimp only at h
  generalize travelTime _ _ _ _ = time at h
  split at h
  · cases h
  · next hshort =>
    rw [Bool.or_eq_true, not_or, Bool.not_eq_true, Bool.not_eq_true] at hshort
    split at h
    · obtain rfl := Except.ok.inj h
      have hzero := Binary64.atMost_refl (Binary64.isNaN_of_isFinite Binary64.isFinite_zero)
      rw [Plan.isIdle, hzero] at hidle
      cases hidle
    · have hduration : time = plan.duration := congrArg Plan.duration (Except.ok.inj h)
      rw [← hduration]
      exact hshort

/-- A timed move that is not idle takes a positive and finite time. -/
theorem isPositive_duration_of_planTo {plan : Plan} (h : current.planTo target velocity = .ok plan)
    (hidle : plan.isIdle = false) : plan.duration.isPositive = true := by
  obtain ⟨hnumber, hshort⟩ := duration_of_planTo h hidle
  exact Binary64.isPositive_of_not_atMost hnumber isFinite_maxSeconds hidle hshort

/-- A positive speed is not what a plan is refused for. -/
theorem plan_ne_badVelocity (hv : velocity.isPositive = true) (v : Binary64) :
    current.plan goal mode velocity limit ≠ .failed (.badVelocity v) := by
  intro h
  rw [plan_eq hv] at h
  cases ht : current.target? goal mode limit with
  | none =>
    rw [ht] at h
    cases h
  | some target =>
    rw [ht] at h
    dsimp only [planTo] at h
    split at h
    · cases h
    · split at h <;> cases h

/-- Within a travel limit that is a number there is a target to plan for. -/
theorem exists_target? (hlimit : limit.isNaN = false) :
    ∃ target, current.target? goal mode limit = some target := by
  have hclamp : ∀ a : Binary64, ∃ b, a.clamp? (-limit.abs) limit.abs = some b := by
    intro a
    unfold Binary64.clamp?
    rw [if_pos (Binary64.neg_abs_atMost_abs hlimit)]
    exact ⟨_, rfl⟩
  obtain ⟨x, hx⟩ := hclamp (mode.resolve current.x goal.x)
  obtain ⟨y, hy⟩ := hclamp (mode.resolve current.y goal.y)
  simp only [target?, hx, hy]
  exact ⟨_, rfl⟩

/-- A plan within a travel limit that is a number does not crash. -/
theorem plan_ne_crashed (hlimit : limit.isNaN = false) :
    current.plan goal mode velocity limit ≠ .crashed := by
  obtain ⟨target, htarget⟩ := exists_target? hlimit
  cases hv : velocity.isPositive with
  | false =>
    rw [plan_of_not_isPositive hv]
    nofun
  | true =>
    rw [plan_eq hv, htarget]
    dsimp only
    cases current.planTo target velocity <;> nofun

end Position

end TachoPrint
