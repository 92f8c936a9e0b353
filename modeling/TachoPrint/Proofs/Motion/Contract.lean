import TachoPrint.Proofs.Binary64.Directions
import TachoPrint.Proofs.Motion.Plan

/-!
# The contract of planning

For a finite position, finite coordinates and a travel limit that is a number, planning always
has an answer.  It refuses a speed that is not positive and finite, and for any other speed it
either finds the move too long or gives a plan whose numbers can all be driven: the target is
within the travel limit, the time is finite, and each speed leads towards the target.

## Main definitions

* `Position.Finite` — all four coordinates are finite.
* `Held` — a coordinate that is held within the travel limit.
* `Travels` — the way is long enough to be timed.
* `Overlong` — a time that is longer than a timed move may take.
* `Plan.Timed`, `Plan.Meets` — what a plan promises of its time and speeds, and of its target.

## Main results

* `maxSeconds_less_iff` — what exceeds the longest time exceeds `2 ^ 32 - 1` milliseconds exactly.
* `travelTime_pos`, `travelTime_eq_zero` — a move takes time if it travels.
* `Position.planTo_contract` — the timed move between two positions.
* `Position.plan_contract` — **the contract of planning.**
-/

namespace TachoPrint

open TachoPrint.Binary64

/-! ### The longest time -/

/-- Above a number of 53 bits the next one is a whole gap away. -/
theorem succ_mul_two_pow_le {e k n : Nat} (hk : 2 ^ 52 ≤ k) (hn : Representable n)
    (h : k * 2 ^ e < n) : (k + 1) * 2 ^ e ≤ n := by
  have hlarge : 2 ^ (e + 52) ≤ n := by
    calc 2 ^ (e + 52) = 2 ^ 52 * 2 ^ e := by rw [Nat.pow_add, Nat.mul_comm]
      _ ≤ k * 2 ^ e := Nat.mul_le_mul_right _ hk
      _ ≤ n := Nat.le_of_lt h
  obtain ⟨q, rfl⟩ := two_pow_dvd_of_le hn hlarge
  rw [Nat.mul_comm k] at h
  rw [Nat.mul_comm (k + 1)]
  exact Nat.mul_le_mul_left _ (Nat.lt_of_mul_lt_mul_left h)

theorem succ_mul_two_pow_le_units {t : Binary64} {e k : Nat} (hk : 2 ^ 52 ≤ k)
    (ht : t.isFinite = true) (h : (k * 2 ^ e : Nat) < t.units) :
    ((k + 1) * 2 ^ e : Nat) ≤ t.units := by
  cases t with
  | nan => cases ht
  | inf s => cases ht
  | finite s n hn =>
    cases s with
    | true =>
      have hneg : (finite true n hn).units = -n := rfl
      omega
    | false =>
      have hsame : (finite false n hn).units = n := rfl
      rw [hsame] at h ⊢
      exact Int.ofNat_le.mpr (succ_mul_two_pow_le hk hn (Int.ofNat_lt.mp h))

/-- The longest time in `2 ^ 30`-ths of a second, which is how far apart numbers of its size
are. -/
def maxSecondsGaps : Nat := 4611686017353646

/-- **What exceeds the longest time exceeds `2 ^ 32 - 1` milliseconds exactly**, although the
longest time is rounded: no number lies between the two. -/
theorem maxSeconds_less_iff {t : Binary64} (ht : t.isFinite = true) :
    maxSeconds.less t = true ↔ (4294967295 / 1000 : ℚ) < t.value := by
  obtain ⟨e, he⟩ : ∃ e, e = 1044 := ⟨_, rfl⟩
  have hfinite : maxSeconds.isFinite = true := by decide +kernel
  have hunits : maxSeconds.units = (maxSecondsGaps * 2 ^ e : Nat) := by
    subst he
    decide +kernel
  have hone : one = 2 ^ 30 * 2 ^ e := by
    subst he
    decide +kernel
  have hvalue : (4294967295 / 1000 : ℚ) < t.value ↔ (4294967295 * one : Nat) < 1000 * t.units := by
    have hpos := one_cast_pos
    unfold value
    generalize one = o at hpos ⊢
    rw [div_lt_div_iff₀ (by norm_num) hpos, mul_comm (t.units : ℚ)]
    exact_mod_cast Iff.rfl
  have hgap := @succ_mul_two_pow_le_units t e maxSecondsGaps (by decide) ht
  have hpos : 0 < 2 ^ e := Nat.two_pow_pos e
  rw [less_iff_value_lt hfinite ht, value_lt_value_iff, hunits, hvalue, hone]
  unfold maxSecondsGaps at hgap ⊢
  generalize 2 ^ e = p at hgap hpos ⊢
  generalize t.units = u at hgap ⊢
  omega

/-- A time that is longer than `2 ^ 32 - 1` milliseconds. -/
def Overlong (t : Binary64) : Prop :=
  t = inf false ∨ t.isFinite = true ∧ (4294967295 / 1000 : ℚ) < t.value

theorem overlong_of_maxSeconds_less {t : Binary64} (h : maxSeconds.less t = true) :
    Overlong t := by
  obtain ⟨i, j, hi, hj, hij⟩ := less_iff.mp h
  cases t with
  | nan => cases hj
  | inf s =>
    cases s with
    | false => exact .inl rfl
    | true =>
      have hmax : maxSeconds.isFinite = true := by decide +kernel
      obtain rfl := Option.some.inj hj
      have hlow := (rank_lt_ceiling hmax hi).1
      simp only [signed, if_true] at hij
      omega
  | finite s n hn => exact .inr ⟨rfl, (maxSeconds_less_iff rfl).mp h⟩

/-! ### How long a way takes -/

section

variable {dx dy de velocity : Binary64}

/-- A way long enough to be timed is not tiny. -/
theorem less_div_of_minTravel {d : Binary64} (hd : minTravel.less d = true)
    (hv : velocity.isPositive = true) : (0 : Binary64).less (d / velocity) = true := by
  obtain ⟨i, j, hi, hj, hij⟩ := less_iff.mp hd
  have htiny : ceiling ≤ minTravel.magnitude * one := by decide +kernel
  have hrank : minTravel.rank = some (minTravel.magnitude : Int) := by decide +kernel
  obtain rfl := Option.some.inj (hi.symm.trans hrank)
  have hway : d.negative = false ∧ minTravel.magnitude ≤ d.magnitude := by
    cases d with
    | nan => cases hj
    | inf s =>
      obtain rfl := Option.some.inj hj
      cases s with
      | false => exact ⟨rfl, magnitude_le_ceiling minTravel⟩
      | true =>
        simp only [signed, if_true] at hij
        omega
    | finite s n hn =>
      obtain rfl := Option.some.inj hj
      cases s with
      | false => exact ⟨rfl, Int.ofNat_le.mp (Int.le_of_lt hij)⟩
      | true =>
        simp only [signed, if_true] at hij
        omega
  exact less_div hway.1 (Nat.le_trans htiny (Nat.mul_le_mul_right one hway.2)) hv

/-- The way is long enough to be timed. -/
def Travels (dx dy de : Binary64) : Prop :=
  minTravel.less (hypot dx dy) = true ∨ minTravel.less de.abs = true

instance (dx dy de : Binary64) : Decidable (Travels dx dy de) := inferInstanceAs (Decidable (_ ∨ _))

theorem isNaN_travelTime (hx : dx.isNaN = false) (hy : dy.isNaN = false) (he : de.isNaN = false)
    (hv : velocity.isPositive = true) : (travelTime dx dy de velocity).isNaN = false := by
  unfold travelTime
  dsimp only
  split
  · exact isNaN_div (isNaN_hypot hx hy) hv
  · split
    · exact isNaN_div (isNaN_abs he) hv
    · exact isNaN_of_isFinite isFinite_zero

/-- A way that is long enough takes time. -/
theorem travelTime_pos (h : Travels dx dy de) (hv : velocity.isPositive = true) :
    (0 : Binary64).less (travelTime dx dy de velocity) = true := by
  unfold travelTime
  dsimp only
  split
  · next hplane => exact less_div_of_minTravel hplane hv
  · next hplane =>
    have hfilament := h.resolve_left hplane
    rw [if_pos hfilament]
    exact less_div_of_minTravel hfilament hv

/-- A way that is not takes none. -/
theorem travelTime_eq_zero (h : ¬Travels dx dy de) : travelTime dx dy de velocity = 0 := by
  obtain ⟨hplane, hfilament⟩ := not_or.mp h
  unfold travelTime
  dsimp only
  rw [if_neg hplane, if_neg hfilament]

/-- What vanishes is no way to go. -/
theorem less_abs_of_vanishes (h : de.Vanishes) : minTravel.less de.abs = false := by
  obtain rfl | ⟨s, rfl⟩ := h
  · decide +kernel
  · cases s <;> decide +kernel

theorem less_hypot_of_vanishes (hx : dx.Vanishes) (hy : dy.Vanishes) :
    minTravel.less (hypot dx dy) = false := by
  obtain rfl | ⟨s, rfl⟩ := hx
  · obtain rfl | ⟨t, rfl⟩ := hy
    · decide +kernel
    · cases t <;> decide +kernel
  · obtain rfl | ⟨t, rfl⟩ := hy
    · cases s <;> decide +kernel
    · cases s <;> cases t <;> decide +kernel

/-- Without a way to go there is nothing to time. -/
theorem not_travels_of_vanishes (hx : dx.Vanishes) (hy : dy.Vanishes) (he : de.Vanishes) :
    ¬Travels dx dy de := by
  rintro (hplane | hfilament)
  · rw [less_hypot_of_vanishes hx hy] at hplane
    cases hplane
  · rw [less_abs_of_vanishes he] at hfilament
    cases hfilament

end

/-! ### The timed move between two positions -/

/-- What a plan promises of its time and its speeds on the way from where it starts. -/
structure Plan.Timed (plan : Plan) (start : Position) : Prop where
  finite : plan.duration.isFinite = true
  nonneg : 0 ≤ plan.duration.value
  short : plan.duration.value ≤ 4294967295 / 1000
  zero_iff : plan.duration = 0 ↔ ¬Travels (plan.target.x - start.x) (plan.target.y - start.y)
    (plan.target.e - start.e)
  still : plan.duration = 0 → plan.vx = 0 ∧ plan.vy = 0 ∧ plan.ve = 0
  moving : plan.duration ≠ 0 → Towards plan.vx start.x plan.target.x ∧
    Towards plan.vy start.y plan.target.y ∧ Towards plan.ve start.e plan.target.e

namespace Position

variable {current target : Position} {goal : Coordinates} {mode : Positioning}
  {velocity limit : Binary64} {plan : Plan}

/-- All four coordinates are finite. -/
def Finite (p : Position) : Prop :=
  p.x.isFinite = true ∧ p.y.isFinite = true ∧ p.z.isFinite = true ∧ p.e.isFinite = true

instance (p : Position) : Decidable p.Finite := inferInstanceAs (Decidable (_ ∧ _))

/-- A way that is not long enough is planned as no motion. -/
theorem planTo_of_not_travels
    (h : ¬Travels (target.x - current.x) (target.y - current.y) (target.e - current.e))
    (velocity : Binary64) : current.planTo target velocity = .ok ⟨target, 0, 0, 0, 0⟩ := by
  have hshort : ((0 : Binary64).isNaN || maxSeconds.less 0) = false := by decide +kernel
  have hnone : (0 : Binary64).atMost 0 = true := by decide +kernel
  unfold planTo
  dsimp only
  rw [travelTime_eq_zero h, hshort, if_neg Bool.false_ne_true, if_pos hnone]

/-- A plan without motion. -/
theorem timed_of_not_travels
    (h : ¬Travels (target.x - current.x) (target.y - current.y) (target.e - current.e)) :
    Plan.Timed ⟨target, 0, 0, 0, 0⟩ current where
  finite := isFinite_zero
  nonneg := value_zero.ge
  short := by
    rw [value_zero]
    norm_num
  zero_iff := iff_of_true rfl h
  still _ := ⟨rfl, rfl, rfl⟩
  moving hne := absurd rfl hne

/-- A plan with motion, for a time that is above zero and not too long. -/
theorem timed_of_travels (hcurrent : current.Finite) (hx : target.x.isNaN = false)
    (hy : target.y.isNaN = false) (he : target.e.isNaN = false)
    (htravels : Travels (target.x - current.x) (target.y - current.y) (target.e - current.e))
    {d : Binary64} (hd : d.isPositive = true) (hshort : maxSeconds.less d = false) :
    Plan.Timed ⟨target, d, (target.x - current.x) / d, (target.y - current.y) / d,
      (target.e - current.e) / d⟩ current := by
  obtain ⟨hcx, hcy, -, hce⟩ := hcurrent
  have hfinite := isFinite_of_isPositive hd
  have hpos := value_pos_of_isPositive hd
  have hne : d ≠ 0 := by
    intro h0
    rw [h0, value_zero] at hpos
    exact lt_irrefl 0 hpos
  refine ⟨hfinite, hpos.le, ?_, iff_of_false hne (not_not_intro htravels),
    fun h0 => absurd h0 hne, ?_⟩
  · rw [← not_lt, ← maxSeconds_less_iff hfinite, hshort]
    exact Bool.false_ne_true
  · intro _
    exact ⟨towards_div hx hcx hd, towards_div hy hcy hd, towards_div he hce hd⟩

/-- **The timed move between two positions** is too long, or its plan keeps its promises. -/
theorem planTo_contract (hcurrent : current.Finite) (hx : target.x.isNaN = false)
    (hy : target.y.isNaN = false) (he : target.e.isNaN = false)
    (hv : velocity.isPositive = true) :
    (∃ d, current.planTo target velocity = .error (.tooLong d) ∧ Overlong d) ∨
      ∃ plan, current.planTo target velocity = .ok plan ∧ plan.Timed current := by
  by_cases htravels : Travels (target.x - current.x) (target.y - current.y) (target.e - current.e)
  · obtain ⟨hcx, hcy, hcz, hce⟩ := hcurrent
    have hnan := isNaN_travelTime (isNaN_sub hx hcx) (isNaN_sub hy hcy) (isNaN_sub he hce) hv
    have hsome := not_atMost_of_less (travelTime_pos htravels hv)
    have hmax : maxSeconds.isFinite = true := by decide +kernel
    unfold planTo
    dsimp only
    generalize travelTime (target.x - current.x) (target.y - current.y) (target.e - current.e)
      velocity = d at hnan hsome ⊢
    rw [hnan, Bool.false_or]
    cases hlong : maxSeconds.less d with
    | true => exact .inl ⟨d, rfl, overlong_of_maxSeconds_less hlong⟩
    | false =>
      have hpositive := isPositive_of_not_atMost hnan hmax hsome hlong
      refine .inr ⟨_, ?_, timed_of_travels ⟨hcx, hcy, hcz, hce⟩ hx hy he htravels hpositive hlong⟩
      rw [if_neg Bool.false_ne_true, hsome, if_neg Bool.false_ne_true]
  · exact .inr ⟨_, planTo_of_not_travels htravels velocity, timed_of_not_travels htravels⟩

end Position

/-! ### The plan of a move -/

/-- A coordinate is held within the travel limit: what is asked for is kept if it is within, and
replaced by the bound that it is beyond if it is not. -/
structure Held (asked limit held : Binary64) : Prop where
  between : held.Between (-limit.abs) limit.abs
  kept : asked.Between (-limit.abs) limit.abs → held = asked
  low : asked.less (-limit.abs) = true → held = -limit.abs
  high : limit.abs.less asked = true → held = limit.abs

theorem held_of_clamp? {asked limit held : Binary64} (ha : asked.isNaN = false)
    (hlimit : limit.isNaN = false) (h : asked.clamp? (-limit.abs) limit.abs = some held) :
    Held asked limit held where
  between := between_clamp? ha h
  kept hin := Option.some.inj (h.symm.trans (clamp?_of_between hin))
  low hlow := by
    have hbounds := neg_abs_atMost_abs hlimit
    have hnot : limit.abs.less (-limit.abs) = false := not_less_of_atMost hbounds
    rw [clamp?, if_pos hbounds, hlow] at h
    dsimp only at h
    rw [if_pos rfl, hnot, if_neg Bool.false_ne_true] at h
    exact (Option.some.inj h).symm
  high hhigh := by
    have hbounds := neg_abs_atMost_abs hlimit
    have hnot : asked.less (-limit.abs) = false :=
      not_less_of_atMost (atMost_trans hbounds (atMost_of_less hhigh))
    rw [clamp?, if_pos hbounds, hnot] at h
    dsimp only at h
    rw [if_neg Bool.false_ne_true, hhigh, if_pos rfl] at h
    exact (Option.some.inj h).symm

/-- What a plan promises: it leads to the coordinates that the move resolves to, held within the
travel limit in the plane, in a time and at speeds that can be driven. -/
structure Plan.Meets (plan : Plan) (start : Position) (goal : Coordinates) (mode : Positioning)
    (limit : Binary64) : Prop extends plan.Timed start where
  x : Held (mode.resolve start.x goal.x) limit plan.target.x
  y : Held (mode.resolve start.y goal.y) limit plan.target.y
  z : plan.target.z = mode.resolve start.z goal.z
  e : plan.target.e = mode.resolve start.e goal.e

namespace Position

variable {current : Position} {goal : Coordinates} {mode : Positioning} {velocity limit : Binary64}

/-- **The contract of planning.**  From a finite position, for finite coordinates and within a
travel limit that is a number, planning has an answer.  It refuses the speed exactly if that is
not positive and finite, and otherwise finds the move too long or gives a plan that keeps its
promises. -/
theorem plan_contract (hcurrent : current.Finite) (hgoal : goal.Finite)
    (hlimit : limit.isNaN = false) :
    current.plan goal mode velocity limit ≠ .crashed ∧
      (current.plan goal mode velocity limit = .failed (.badVelocity velocity) ↔
        velocity.isPositive = false) ∧
      (velocity.isPositive = true →
        (∃ d, current.plan goal mode velocity limit = .failed (.tooLong d) ∧ Overlong d) ∨
          ∃ plan, current.plan goal mode velocity limit = .done plan ∧
            plan.Meets current goal mode limit) := by
  refine ⟨plan_ne_crashed hlimit, ⟨?_, plan_of_not_isPositive⟩, ?_⟩
  · intro h
    cases hv : velocity.isPositive with
    | true => exact absurd h (plan_ne_badVelocity hv velocity)
    | false => rfl
  · intro hv
    have ⟨hcx, hcy, _, hce⟩ := hcurrent
    obtain ⟨hgx, hgy, -, hge⟩ := hgoal
    obtain ⟨target, htarget⟩ : ∃ target, current.target? goal mode limit = some target :=
      exists_target? hlimit
    obtain ⟨hx, hy, hz, he⟩ := exists_clamp?_of_target? htarget
    have heldx := held_of_clamp? (mode.isNaN_resolve (isNaN_of_isFinite hcx) hgx) hlimit hx
    have heldy := held_of_clamp? (mode.isNaN_resolve (isNaN_of_isFinite hcy) hgy) hlimit hy
    have hnan : target.e.isNaN = false := by
      rw [he]
      exact mode.isNaN_resolve (isNaN_of_isFinite hce) hge
    rw [plan_eq hv, htarget]
    dsimp only
    rcases planTo_contract hcurrent heldx.between.1 heldy.between.1 hnan hv with
      ⟨d, hlong, hover⟩ | ⟨plan, hplan, htimed⟩
    · rw [hlong]
      exact .inl ⟨d, rfl, hover⟩
    · rw [hplan]
      obtain rfl := planTo_target hplan
      exact .inr ⟨plan, rfl, { htimed with x := heldx, y := heldy, z := hz, e := he }⟩

/-- A step beyond the travel limit that draws filament back: the way ends at the limit, and the
filament goes backwards. -/
theorem plan_contract_beyond :
    let goal : Coordinates := { x := some 300, e := some (-2) }
    let plan : Plan := ⟨⟨100, 0, 0, -2⟩, 10, 10, 0, -0.2⟩
    origin.plan goal .relative 10 100 = .done plan ∧ plan.Meets origin goal .relative 100 ∧
      plan.duration ≠ 0 := by
  intro goal plan
  have hplan : origin.plan goal .relative 10 100 = .done plan := by decide +kernel
  refine ⟨hplan, ?_, by decide +kernel⟩
  obtain ⟨-, -, hanswer⟩ := @plan_contract origin goal .relative 10 100 (by decide +kernel)
    (by decide +kernel) (by decide +kernel)
  rcases hanswer (by decide +kernel) with ⟨d, hlong, -⟩ | ⟨found, hfound, hmeets⟩
  · rw [hplan] at hlong
    cases hlong
  · rw [hplan] at hfound
    obtain rfl := Outcome.done.inj hfound
    exact hmeets

end Position

end TachoPrint
