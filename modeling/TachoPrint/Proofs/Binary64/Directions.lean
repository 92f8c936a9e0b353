import TachoPrint.Proofs.Binary64.Multiples

/-!
# Ways and speeds

A difference has the sign of the way from the one number to the other, and a quotient by a
positive number has the sign of what is divided.  So a way divided by a time is a speed that
does not lead away, whether the way is so long that it is infinite or the speed so low that it
is rounded to zero.

## Main definitions

* `Binary64.Towards` — a speed that does not lead away from where it should lead.

## Main results

* `Binary64.isNaN_hypot`, `Binary64.isNaN_sub`, `Binary64.isNaN_div` — distances, differences
  and quotients that are numbers.
* `Binary64.negative_sub_of_less`, `Binary64.negative_sub_of_greater` — the sign of a difference.
* `Binary64.less_div` — **what is not tiny stays above zero when it is divided.**
* `Binary64.towards_div` — **a way divided by a time leads along the way.**
-/

namespace TachoPrint.Binary64

variable {x y t : Binary64}

/-! ### Numbers -/

theorem isNaN_abs (h : x.isNaN = false) : x.abs.isNaN = false := by
  cases x with
  | nan => cases h
  | inf s => rfl
  | finite s n hn => rfl

/-- The distance between numbers is a number. -/
theorem isNaN_hypot (hx : x.isNaN = false) (hy : y.isNaN = false) : (hypot x y).isNaN = false := by
  cases x with
  | nan => cases hx
  | inf s => rfl
  | finite s m hm =>
    cases y with
    | nan => cases hy
    | inf t => rfl
    | finite t n hn =>
      change (ofSqrt (m * m + n * n)).isNaN = false
      unfold ofSqrt
      split <;> rfl

/-- The way from a finite number to a number is a number. -/
@[grind =] theorem isNaN_sub (hx : x.isNaN = false) (hy : y.isFinite = true) :
    (x - y).isNaN = false :=
  isNaN_add (b := -y) hx (isFinite_neg hy)

@[grind =] theorem isNaN_div (hx : x.isNaN = false) (hy : y.isPositive = true) :
    (x / y).isNaN = false := by
  obtain ⟨n, hn, rfl, hpos⟩ := exists_finite_of_isPositive hy
  cases x with
  | nan => cases hx
  | inf s => rfl
  | finite s m hm =>
    rw [finite_div s false hm hn hpos]
    exact isNaN_ofUnits _ _ _

/-! ### Signs -/

theorem sub_finite (s t : Bool) {m n : Nat} (hm : Representable m) (hn : Representable n) :
    finite s m hm - finite t n hn =
      if signed s m - signed t n = 0 then zero (s && !t)
      else ofUnits (signed s m - signed t n < 0) (signed s m - signed t n).natAbs 1 := by
  have hopposite : signed s m + signed (!t) n = signed s m - signed t n := by
    cases t <;> simp [signed, sub_eq_add_neg]
  rw [← hopposite]
  rfl

/-- A way up is not negative. -/
theorem negative_sub_of_less (hy : y.isFinite = true) (h : y.less x = true) :
    (x - y).negative = false := by
  obtain ⟨i, j, hi, hj, hij⟩ := less_iff.mp h
  cases y with
  | nan => cases hy
  | inf t => cases hy
  | finite t n hn =>
    obtain rfl := Option.some.inj hi
    cases x with
    | nan => cases hj
    | inf s =>
      cases s with
      | false => rfl
      | true =>
        obtain rfl := Option.some.inj hj
        have hlow := (rank_lt_ceiling hy hi).1
        simp only [signed, if_true] at hij hlow
        omega
    | finite s m hm =>
      obtain rfl := Option.some.inj hj
      have hne : signed s m - signed t n ≠ 0 := by omega
      have hpos : ¬signed s m - signed t n < 0 := by omega
      rw [sub_finite, if_neg hne, negative_ofUnits]
      exact decide_eq_false hpos

/-- A way down is negative. -/
theorem negative_sub_of_greater (hy : y.isFinite = true) (h : x.less y = true) :
    (x - y).negative = true := by
  obtain ⟨i, j, hi, hj, hij⟩ := less_iff.mp h
  cases y with
  | nan => cases hy
  | inf t => cases hy
  | finite t n hn =>
    obtain rfl := Option.some.inj hj
    cases x with
    | nan => cases hi
    | inf s =>
      cases s with
      | true => rfl
      | false =>
        obtain rfl := Option.some.inj hi
        have hhigh := (rank_lt_ceiling hy hj).2
        simp only [signed, Bool.false_eq_true, if_false] at hij hhigh
        omega
    | finite s m hm =>
      obtain rfl := Option.some.inj hi
      have hne : signed s m - signed t n ≠ 0 := by omega
      have hneg : signed s m - signed t n < 0 := by omega
      rw [sub_finite, if_neg hne, negative_ofUnits]
      exact decide_eq_true hneg

/-- What has no sign is not below zero. -/
theorem less_zero_of_not_negative (h : x.negative = false) : x.less 0 = false := by
  apply Bool.eq_false_iff.mpr
  intro hless
  obtain ⟨i, j, hi, hj, hij⟩ := less_iff.mp hless
  obtain rfl := Option.some.inj (hj.symm.trans rank_zero)
  cases x with
  | nan => cases hi
  | inf s =>
    obtain rfl : s = false := h
    obtain rfl := Option.some.inj hi
    simp only [signed, Bool.false_eq_true, if_false] at hij
    omega
  | finite s n hn =>
    obtain rfl : s = false := h
    obtain rfl := Option.some.inj hi
    simp only [signed, Bool.false_eq_true, if_false] at hij
    omega

/-- What has a sign is not above zero. -/
theorem zero_less_of_negative (h : x.negative = true) : (0 : Binary64).less x = false := by
  apply Bool.eq_false_iff.mpr
  intro hless
  obtain ⟨i, j, hi, hj, hij⟩ := less_iff.mp hless
  obtain rfl := Option.some.inj (hi.symm.trans rank_zero)
  cases x with
  | nan => cases hj
  | inf s =>
    obtain rfl : s = true := h
    obtain rfl := Option.some.inj hj
    simp only [signed, if_true] at hij
    omega
  | finite s n hn =>
    obtain rfl : s = true := h
    obtain rfl := Option.some.inj hj
    simp only [signed, if_true] at hij
    omega

/-! ### Speeds -/

/-- A number that does not lead away on the way from one place to another: it is not below zero
if the way is up, not above zero if the way is down, and zero if there is no way. -/
structure Towards (speed start stop : Binary64) : Prop where
  isNaN : speed.isNaN = false
  up : start.less stop = true → speed.less 0 = false
  down : stop.less start = true → (0 : Binary64).less speed = false
  none : start.equals stop = true → speed.equals 0 = true

theorem equals_zero_of_vanishes (h : x.Vanishes) (hx : x.isNaN = false) : x.equals 0 = true := by
  obtain rfl | ⟨s, rfl⟩ := h
  · cases hx
  · cases s <;> decide +kernel

/-- **A way divided by a time leads along the way.** -/
theorem towards_div (hx : x.isNaN = false) (hy : y.isFinite = true) (ht : t.isPositive = true) :
    Towards ((x - y) / t) y x where
  isNaN := isNaN_div (isNaN_sub hx hy) ht
  up h := by
    apply less_zero_of_not_negative
    rw [negative_div (isNaN_sub hx hy) ht]
    exact negative_sub_of_less hy h
  down h := by
    apply zero_less_of_negative
    rw [negative_div (isNaN_sub hx hy) ht]
    exact negative_sub_of_greater hy h
  none h := by
    have hrank := (equals_iff hx).mp h
    have hfinite := isFinite_of_rank_eq hy hrank.symm
    exact equals_zero_of_vanishes ((vanishes_sub hfinite hy hrank.symm).div t)
      (isNaN_div (isNaN_sub hx hy) ht)

/-- **What is not tiny stays above zero when it is divided** by any finite number: the quotient
is a unit at least. -/
theorem less_div (hx : x.negative = false) (hlarge : ceiling ≤ x.magnitude * one)
    (hy : y.isPositive = true) : (0 : Binary64).less (x / y) = true := by
  obtain ⟨n, hn, rfl, hpos⟩ := exists_finite_of_isPositive hy
  cases x with
  | nan =>
    have hnone : nan.magnitude = 0 := rfl
    rw [hnone, Nat.zero_mul] at hlarge
    exact absurd ceiling_pos (Nat.not_lt.mpr hlarge)
  | inf s =>
    obtain rfl : s = false := hx
    exact less_iff.mpr ⟨0, ceiling, rank_zero, rfl, Int.natCast_pos.mpr ceiling_pos⟩
  | finite s m hm =>
    obtain rfl : s = false := hx
    have hle : n ≤ m * one := Nat.le_trans (Nat.le_of_lt hn.1) hlarge
    have hunits : 0 < nearestUnits (m * one) n := by
      have hdiv : m * one / n ≠ 0 := Nat.ne_of_gt (Nat.div_pos hle hpos)
      exact Nat.lt_of_lt_of_le (Nat.two_pow_pos _) (pow_log2_le_nearestUnits hdiv)
    have hzero : (0 : Binary64).units = 0 := by decide +kernel
    rw [finite_div false false hm hn hpos]
    apply less_ofUnits isFinite_zero
    rw [hzero]
    exact Int.natCast_pos.mpr hunits

end TachoPrint.Binary64
