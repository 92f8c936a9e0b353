import Mathlib.Order.Monotone.Basic
import TachoPrint.Proofs.Binary64.Monotone

/-!
# Sign and magnitude

A number is a sign and a magnitude.  Multiplying by a positive number and rounding to whole
numbers leave the sign alone and map the magnitude, in a way that keeps the order and leaves
zero where it is.  Every such map keeps the order of the numbers too and commutes with a change
of the sign, through all roundings and up to the infinities.  Only the range of the machine
integers, which has one number more below zero than above, breaks the symmetry.

## Main definitions

* `Binary64.scaled` — the magnitude of a product with a positive number.

## Main results

* `Binary64.signed_le_signed` — a map of magnitudes keeps the order of the numbers.
* `Binary64.mul_atMost_mul` — **products with a positive number keep the order.**
* `Binary64.neg_mul` — the sign of a product changes with the sign of a term.
* `Binary64.toInt32_le_toInt32` — **whole numbers are in the order of what is rounded.**
* `Binary64.toInt_toInt32_neg` — **whole numbers change their sign, unless they are the least.**
-/

namespace TachoPrint.Binary64

variable {x y k : Binary64} {f : Nat → Nat}

/-! ### Maps of the magnitude -/

@[simp] theorem signed_zero (s : Bool) : signed s 0 = 0 := by cases s <;> rfl

@[simp] theorem signed_not (s : Bool) (n : Nat) : signed (!s) n = -signed s n := by
  cases s <;> simp [signed]

/-- **A map of magnitudes keeps the order of the numbers**, if it keeps that of the magnitudes
and leaves zero where it is. -/
theorem signed_le_signed (hf : Monotone f) (h0 : f 0 = 0) {s t : Bool} {m n : Nat}
    (h : signed s m ≤ signed t n) : signed s (f m) ≤ signed t (f n) := by
  cases s with
  | false =>
    cases t with
    | false =>
      simp only [signed, Bool.false_eq_true, if_false, Int.ofNat_le] at h ⊢
      exact hf h
    | true =>
      -- a number that is not negative is at most one that is not positive: both are zero
      simp only [signed, Bool.false_eq_true, if_false, if_true] at h
      obtain ⟨rfl, rfl⟩ : m = 0 ∧ n = 0 := by omega
      simp [h0]
  | true =>
    cases t with
    | false =>
      simp only [signed, Bool.false_eq_true, if_false, if_true]
      omega
    | true =>
      simp only [signed, if_true] at h ⊢
      have hle : f n ≤ f m := by
        apply hf
        omega
      omega

/-- The place of a number is its magnitude with its sign. -/
theorem rank_eq_signed (h : x.isNaN = false) :
    x.rank = some (signed x.negative x.magnitude) := by
  cases x with
  | nan => cases h
  | inf s => rfl
  | finite s n hn => rfl

theorem atMost_iff_signed : x.atMost y = true ↔ x.isNaN = false ∧ y.isNaN = false ∧
    signed x.negative x.magnitude ≤ signed y.negative y.magnitude := by
  rw [atMost_iff]
  constructor
  · rintro ⟨i, j, hi, hj, hij⟩
    have hx := isNaN_of_rank hi
    have hy := isNaN_of_rank hj
    obtain rfl := Option.some.inj (hi.symm.trans (rank_eq_signed hx))
    obtain rfl := Option.some.inj (hj.symm.trans (rank_eq_signed hy))
    exact ⟨hx, hy, hij⟩
  · rintro ⟨hx, hy, hle⟩
    exact ⟨_, _, rank_eq_signed hx, rank_eq_signed hy, hle⟩

/-- The opposite number has the opposite of what the magnitude is mapped to. -/
theorem signed_neg (h0 : f 0 = 0) (x : Binary64) :
    signed (-x).negative (f (-x).magnitude) = -signed x.negative (f x.magnitude) := by
  cases x with
  | nan =>
    show signed false (f 0) = -signed false (f 0)
    rw [h0]
    rfl
  | inf s => exact signed_not s _
  | finite s n hn => exact signed_not s _

/-! ### Products with a positive number -/

/-- The magnitude of the product with a positive number of `n` units, by the magnitude of what
is multiplied.  An infinity stays one. -/
def scaled (n m : Nat) : Nat :=
  if m < ceiling then min (nearestUnits (m * n) one) ceiling else ceiling

@[simp] theorem scaled_zero (n : Nat) : scaled n 0 = 0 := by
  have hzero := nearestUnits_of_dvd one_pos representable_zero.2
  rw [Nat.zero_mul] at hzero
  unfold scaled
  rw [if_pos ceiling_pos, Nat.zero_mul, hzero, Nat.zero_min]

theorem scaled_mono (n : Nat) : Monotone (scaled n) := by
  intro l m hlm
  unfold scaled
  split
  · split
    · apply min_le_min_right
      exact nearestUnits_mono one_pos one_pos
        (Nat.mul_le_mul_right one (Nat.mul_le_mul_right n hlm))
    · exact Nat.min_le_right _ _
  · next hl =>
    rw [if_neg (by omega)]

theorem magnitude_mul (x : Binary64) {n : Nat} (hn : Representable n) (hpos : 0 < n) :
    (x * finite false n hn).magnitude = scaled n x.magnitude := by
  cases x with
  | nan =>
    show 0 = scaled n 0
    rw [scaled_zero]
  | inf s =>
    have hne : n ≠ 0 := Nat.ne_of_gt hpos
    show (if n = 0 then nan else inf (s != false)).magnitude = scaled n ceiling
    rw [if_neg hne, scaled, if_neg (Nat.lt_irrefl _)]
    rfl
  | finite s m hm =>
    show (finite s m hm * finite false n hn).magnitude = scaled n m
    rw [mul_finite, magnitude_ofUnits, scaled, if_pos hm.1]

theorem isNaN_mul (hk : k.isPositive = true) : (x * k).isNaN = x.isNaN := by
  obtain ⟨n, hn, rfl, hpos⟩ := exists_finite_of_isPositive hk
  have hne : n ≠ 0 := Nat.ne_of_gt hpos
  cases x with
  | nan => rfl
  | inf s =>
    show (if n = 0 then nan else inf (s != false)).isNaN = false
    rw [if_neg hne]
    rfl
  | finite s m hm =>
    rw [mul_finite]
    exact isNaN_ofUnits _ _ _

/-- A product with a positive number has the sign of what is multiplied. -/
theorem negative_mul_of_isPositive (hx : x.isNaN = false) (hk : k.isPositive = true) :
    (x * k).negative = x.negative := by
  rw [negative_mul (by rwa [isNaN_mul hk]), negative_of_isPositive hk, Bool.bne_false]

/-- **Products with a positive number keep the order**, up to the infinities. -/
theorem mul_atMost_mul (hk : k.isPositive = true) (h : x.atMost y = true) :
    (x * k).atMost (y * k) = true := by
  obtain ⟨hx, hy, hle⟩ := atMost_iff_signed.mp h
  rw [atMost_iff_signed, isNaN_mul hk, isNaN_mul hk, negative_mul_of_isPositive hx hk,
    negative_mul_of_isPositive hy hk]
  refine ⟨hx, hy, ?_⟩
  obtain ⟨n, hn, rfl, hpos⟩ := exists_finite_of_isPositive hk
  rw [magnitude_mul x hn hpos, magnitude_mul y hn hpos]
  exact signed_le_signed (scaled_mono n) (scaled_zero n) hle

@[simp] theorem neg_ofUnits (s : Bool) (a b : Nat) : -ofUnits s a b = ofUnits (!s) a b := by
  unfold ofUnits
  split <;> rfl

/-- **The sign of a product changes with the sign of a term**, also if it is infinite or not a
number. -/
@[simp] theorem neg_mul (x k : Binary64) : -x * k = -(x * k) := by
  have hsign : ∀ s t : Bool, ((!s) != t) = !(s != t) := by decide
  cases x with
  | nan => rfl
  | inf s =>
    cases k with
    | nan => rfl
    | inf t => exact congrArg inf (hsign s t)
    | finite t n hn =>
      show (if n = 0 then nan else inf ((!s) != t)) = -(if n = 0 then nan else inf (s != t))
      split
      · rfl
      · exact congrArg inf (hsign s t)
  | finite s m hm =>
    cases k with
    | nan => rfl
    | inf t =>
      show (if m = 0 then nan else inf ((!s) != t)) = -(if m = 0 then nan else inf (s != t))
      split
      · rfl
      · exact congrArg inf (hsign s t)
    | finite t n hn =>
      show finite (!s) m hm * finite t n hn = -(finite s m hm * finite t n hn)
      simp [hsign]

/-! ### Whole numbers -/

@[simp] theorem wholeUnits_zero : wholeUnits 0 = 0 := by
  have hone := one_pos
  apply Nat.div_eq_of_lt
  omega

theorem wholeUnits_mono : Monotone wholeUnits := by
  intro m n hmn
  unfold wholeUnits
  apply Nat.div_le_div_right
  omega

/-- The infinities are beyond every machine integer. -/
theorem le_wholeUnits_ceiling : 2 ^ 31 ≤ wholeUnits ceiling := by
  have hone := one_pos
  have hlimit : 2 ^ 31 * one ≤ ceiling := two_pow_mul_one_le_ceiling (d := 31) (by decide)
  unfold wholeUnits
  rw [Nat.le_div_iff_mul_le (by omega)]
  omega

/-- The whole number of 32 bits is the nearest of all, moved to the end of the range if it is
past that. -/
theorem toInt_toInt32_eq_clamp (x : Binary64) : x.toInt32.toInt =
    max (-2147483648) (min 2147483647 (signed x.negative (wholeUnits x.magnitude))) := by
  rw [toInt_toInt32_eq]
  cases x with
  | nan =>
    show 0 = max (-2147483648) (min 2147483647 (signed false (wholeUnits 0)))
    rw [wholeUnits_zero]
    rfl
  | inf s =>
    have hbeyond := le_wholeUnits_ceiling
    show (if s then -2147483648 else 2147483647) =
      max (-2147483648) (min 2147483647 (signed s (wholeUnits ceiling)))
    cases s <;> simp only [signed, Bool.false_eq_true, if_true, if_false] <;> omega
  | finite s n hn => rfl

/-- **Whole numbers are in the order of what is rounded.** -/
theorem toInt32_le_toInt32 (h : x.atMost y = true) : x.toInt32.toInt ≤ y.toInt32.toInt := by
  obtain ⟨-, -, hle⟩ := atMost_iff_signed.mp h
  have hwhole := signed_le_signed wholeUnits_mono wholeUnits_zero hle
  rw [toInt_toInt32_eq_clamp, toInt_toInt32_eq_clamp]
  omega

/-- **Whole numbers change their sign with what is rounded, unless they are the least.**  The
opposite of what is rounded to the least is rounded to the greatest. -/
theorem toInt_toInt32_neg (x : Binary64) :
    (x.toInt32.toInt = -2147483648 → (-x).toInt32.toInt = 2147483647) ∧
      (x.toInt32.toInt ≠ -2147483648 → (-x).toInt32.toInt ≠ -2147483648 →
        (-x).toInt32.toInt = -x.toInt32.toInt) := by
  have hneg := signed_neg wholeUnits_zero x
  rw [toInt_toInt32_eq_clamp, toInt_toInt32_eq_clamp]
  omega

end TachoPrint.Binary64
