import TachoPrint.Motion.Gearing
import TachoPrint.Proofs.Binary64.Order
import TachoPrint.Proofs.Binary64.Value

/-!
# Numbers that count nothing

Zero has two signs, and zero times or over what is not finite is not a number.  Motors see
neither difference: a number that is zero or no number at all is no count.

## Main definitions

* `Binary64.Vanishes` — zero of either sign, or not a number.

## Main results

* `Binary64.rank_add_zero` — adding zero changes a number by the sign of a zero at most.
* `Binary64.vanishes_sub` — a number less itself vanishes.
* `Gearing.toCounts_of_vanishes` — **what vanishes is no count.**
-/

namespace TachoPrint

namespace Binary64

variable {x y : Binary64}

theorem zero_eq : (0 : Binary64) = zero false := by decide +kernel

/-- Adding zero changes a number by the sign of a zero at most. -/
theorem rank_add_zero (hx : x.isFinite) : (x + 0).rank = x.rank := by
  rw [zero_eq]
  cases x with
  | nan => cases hx
  | inf s => cases hx
  | finite s m hm =>
    have hadd : finite s m hm + zero false =
        if signed s m + signed false 0 = 0 then zero (s && false)
        else ofUnits (signed s m + signed false 0 < 0) (signed s m + signed false 0).natAbs 1 := rfl
    have hsum : signed s m + signed false 0 = signed s m := Int.add_zero _
    rw [hadd, hsum]
    split
    · next hzero =>
      change some (signed (s && false) 0) = some (signed s m)
      rw [hzero]
      cases s <;> rfl
    · next hne =>
      have hrep : Representable (signed s m).natAbs := by
        cases s <;> simpa [signed] using hm
      have hunits := ofUnits_mul (decide (signed s m < 0)) (m := (signed s m).natAbs) (b := 1)
        Nat.one_pos hrep
      rw [Nat.mul_one] at hunits
      rw [hunits]
      exact congrArg some (signed_natAbs _)

/-- Only finite numbers have the place of a finite number. -/
theorem isFinite_of_rank_eq (hy : y.isFinite) (h : x.rank = y.rank) : x.isFinite := by
  cases x with
  | nan =>
    obtain ⟨i, hi⟩ := exists_rank (isNaN_of_isFinite hy)
    rw [hi] at h
    cases h
  | inf s =>
    obtain ⟨hlow, hhigh⟩ := rank_lt_ceiling hy h.symm
    cases s <;> simp only [signed, Bool.false_eq_true, if_true, if_false] at hlow hhigh <;> omega
  | finite s n hn => rfl

theorem isFinite_add_zero (hx : x.isFinite) : (x + 0).isFinite :=
  isFinite_of_rank_eq hx (rank_add_zero hx)

/-! ### Numbers that vanish -/

/-- Zero of either sign, or not a number. -/
def Vanishes (a : Binary64) : Prop := a = nan ∨ ∃ s, a = zero s

theorem isNaN_of_not_vanishes (h : ¬Vanishes x) : x.isNaN = false := by
  cases x with
  | nan => exact absurd (.inl rfl) h
  | inf s => rfl
  | finite s n hn => rfl

theorem ofUnits_zero (s : Bool) {b : Nat} (hb : 0 < b) : ofUnits s 0 b = zero s := by
  have hunits := ofUnits_mul s hb representable_zero
  rwa [Nat.zero_mul] at hunits

/-- A number less itself vanishes. -/
theorem vanishes_sub (hx : x.isFinite) (hy : y.isFinite) (h : x.rank = y.rank) :
    Vanishes (x - y) := by
  cases x with
  | nan => cases hx
  | inf s => cases hx
  | finite s m hm =>
    cases y with
    | nan => cases hy
    | inf t => cases hy
    | finite t n hn =>
      have hrank : signed s m = signed t n := Option.some.inj h
      have hsum : signed s m + signed (!t) n = 0 := by
        rw [hrank]
        cases t <;> simp [signed]
      refine .inr ⟨s && !t, ?_⟩
      change (if signed s m + signed (!t) n = 0 then zero (s && !t) else _) = _
      rw [if_pos hsum]

/-- What is taken from itself vanishes, also if it is infinite or not a number. -/
theorem vanishes_sub_self (x : Binary64) : Vanishes (x - x) := by
  cases x with
  | nan => exact .inl rfl
  | inf s => cases s <;> exact .inl rfl
  | finite s n hn => exact vanishes_sub rfl rfl rfl

theorem Vanishes.div (h : Vanishes x) (y : Binary64) : Vanishes (x / y) := by
  obtain rfl | ⟨s, rfl⟩ := h
  · exact .inl rfl
  · cases y with
    | nan => exact .inl rfl
    | inf t => exact .inr ⟨_, rfl⟩
    | finite t n hn =>
      change Vanishes (if n = 0 then _ else ofUnits (s != t) (0 * one) n)
      split
      · exact .inl rfl
      · next hne =>
        rw [Nat.zero_mul]
        exact .inr ⟨_, ofUnits_zero _ (Nat.pos_of_ne_zero hne)⟩

theorem Vanishes.mul (h : Vanishes x) (y : Binary64) : Vanishes (x * y) := by
  obtain rfl | ⟨s, rfl⟩ := h
  · exact .inl rfl
  · cases y with
    | nan => exact .inl rfl
    | inf t => exact .inl rfl
    | finite t n hn =>
      rw [zero, mul_finite s t representable_zero hn, Nat.zero_mul]
      exact .inr ⟨_, ofUnits_zero _ one_pos⟩

theorem Vanishes.toInt32_eq (h : Vanishes x) : x.toInt32 = 0 := by
  obtain rfl | ⟨s, rfl⟩ := h
  · rfl
  · cases s <;> decide +kernel

end Binary64

/-- **What vanishes is no count**, whatever the ratios are. -/
@[simp] theorem Gearing.toCounts_of_vanishes (g : Gearing) {mm : Binary64} (h : mm.Vanishes) :
    g.toCounts mm = 0 :=
  ((h.mul _).mul _).toInt32_eq

end TachoPrint
