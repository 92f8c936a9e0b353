import Mathlib.Algebra.Order.Round
import Mathlib.Data.Rat.Floor
import TachoPrint.Proofs.Binary64.Monotone

/-!
# Whole multiples and whole numbers

Multiplying a number by a whole number and rounding it to one never leads past a whole
number that the exact result stays below: whole numbers are representable, and rounding
keeps the order.

## Main results

* `Binary64.less_iff_value_lt` — finite numbers compare like their exact values.
* `Binary64.mul_ofRatio_le` — **a multiple stays within a whole number.**
* `Binary64.toNat_toUInt64` — **the nearest integer is that of the exact value.**
-/

namespace TachoPrint.Binary64

variable {x y : Binary64}

/-! ### Order -/

theorem rank_of_isFinite (h : x.isFinite) : x.rank = some x.units := by
  cases x with
  | nan => cases h
  | inf s => cases h
  | finite s n hn => rfl

theorem value_lt_value_iff : x.value < y.value ↔ x.units < y.units := by
  unfold value
  rw [div_lt_div_iff_of_pos_right one_cast_pos, Int.cast_lt]

/-- Finite numbers compare like their exact values. -/
theorem less_iff_value_lt (hx : x.isFinite) (hy : y.isFinite) : x.less y ↔ x.value < y.value := by
  rw [less_iff, rank_of_isFinite hx, rank_of_isFinite hy, value_lt_value_iff]
  constructor
  · rintro ⟨i, j, hi, hj, hij⟩
    obtain rfl := Option.some.inj hi
    obtain rfl := Option.some.inj hj
    exact hij
  · intro h
    exact ⟨_, _, rfl, rfl, h⟩

theorem less_zero_iff (hx : x.isFinite) : x.less 0 ↔ x.value < 0 := by
  rw [less_iff_value_lt hx isFinite_zero, value_zero]

theorem value_pos_of_isPositive (h : x.isPositive = true) : 0 < x.value := by
  have hless := (Bool.and_eq_true_iff.mp h).2
  rw [← zero_eq, less_iff_value_lt isFinite_zero (isFinite_of_isPositive h), value_zero] at hless
  exact hless

/-- Rounding to more units than a number has leads past that number. -/
theorem less_ofUnits (hx : x.isFinite) {a b : Nat} (h : x.units < nearestUnits a b) :
    x.less (ofUnits false a b) := by
  have hrank := rank_of_isFinite hx
  rw [less_iff]
  unfold ofUnits
  split
  · exact ⟨_, _, hrank, rfl, h⟩
  · exact ⟨_, _, hrank, rfl, (rank_lt_ceiling hx hrank).2⟩

theorem value_ofRatio {n : Nat} (hn : n < significandEnd) :
    (ofRatio false n 1).isFinite ∧ (ofRatio false n 1).value = n := by
  obtain ⟨hrep, hliteral⟩ := ofRatio_natCast false hn
  have hone := one_cast_pos
  rw [hliteral]
  refine ⟨rfl, ?_⟩
  unfold value units
  simp only [signed, Bool.false_eq_true, if_false]
  rw [Nat.cast_mul, Int.cast_mul, Int.cast_natCast, Int.cast_natCast]
  exact mul_div_cancel_right₀ _ hone.ne'

/-- A number that is not below zero has no sign, or is zero. -/
theorem eq_false_or_eq_zero {s : Bool} {n : Nat} {hn : Representable n}
    (h : 0 ≤ (finite s n hn).value) : s = false ∨ n = 0 := by
  cases s with
  | false => exact .inl rfl
  | true =>
    right
    by_contra hne
    have hone := one_cast_pos
    have hpos : (0 : ℚ) < n := by exact_mod_cast Nat.pos_of_ne_zero hne
    have hneg : (finite true n hn).value = -(n / one) := by
      have hunits : (finite true n hn).units = -n := rfl
      rw [value, hunits, Int.cast_neg, Int.cast_natCast, neg_div]
    rw [hneg, neg_nonneg] at h
    exact absurd (div_pos hpos hone) (not_lt.mpr h)

theorem signed_eq {s : Bool} {n : Nat} (h : s = false ∨ n = 0) : signed s n = n := by
  rcases h with rfl | rfl
  · rfl
  · cases s <;> rfl

theorem value_finite_eq {s : Bool} {n : Nat} (hn : Representable n) (h : s = false ∨ n = 0) :
    (finite s n hn).value = n / one := by
  change ((signed s n : Int) : ℚ) / one = n / one
  rw [signed_eq h, Int.cast_natCast]

/-! ### Multiples -/

theorem finite_mul_ofRatio (s : Bool) {m n : Nat} (hm : Representable m)
    (hn : n < significandEnd) :
    finite s m hm * ofRatio false n 1 = ofUnits s (m * n * one) one := by
  obtain ⟨hrep, hliteral⟩ := ofRatio_natCast false hn
  rw [hliteral, mul_finite, Bool.bne_false, ← Nat.mul_assoc]

theorem nearestUnits_natCast {k : Nat} (hk : k < significandEnd) :
    nearestUnits (k * one * one) one = k * one := by
  obtain ⟨hrep, -⟩ := ofRatio_natCast false hk
  exact nearestUnits_of_dvd one_pos hrep.2

theorem nearestUnits_le_natCast {a k : Nat} (h : a ≤ k * one) (hk : k < significandEnd) :
    nearestUnits (a * one) one ≤ k * one := by
  rw [← nearestUnits_natCast hk]
  exact nearestUnits_mono one_pos one_pos (Nat.mul_le_mul_right one (Nat.mul_le_mul_right one h))

theorem nearestUnits_mul_mono {a b : Nat} (h : a ≤ b) (n : Nat) :
    nearestUnits (a * n * one) one ≤ nearestUnits (b * n * one) one :=
  nearestUnits_mono one_pos one_pos
    (Nat.mul_le_mul_right one (Nat.mul_le_mul_right one (Nat.mul_le_mul_right n h)))

/-- Large numbers are multiples of a power of two. -/
theorem two_pow_dvd_of_le {e n : Nat} (hn : Representable n) (h : 2 ^ (e + 52) ≤ n) :
    2 ^ e ∣ n := by
  have hne : n ≠ 0 := by
    have hpos := Nat.two_pow_pos (e + 52)
    omega
  have hlog := (Nat.le_log2 hne).mpr h
  have hgap : 2 ^ e ∣ gap n := Nat.pow_dvd_pow 2 (by omega)
  exact hgap.trans hn.2

/-- **A multiple stays within a whole number** if it does so before it is rounded. -/
theorem mul_ofRatio_le {k n : Nat} (hx : x.isFinite) (h0 : 0 ≤ x.value) (hle : x.value * n ≤ k)
    (hn : n < significandEnd) (hk : k < significandEnd) :
    (x * ofRatio false n 1).isFinite ∧ 0 ≤ (x * ofRatio false n 1).value ∧
      (x * ofRatio false n 1).value ≤ k := by
  cases x with
  | nan => cases hx
  | inf s => cases hx
  | finite s m hm =>
    have hsign := eq_false_or_eq_zero h0
    have hone := one_cast_pos
    have hexact : m * n ≤ k * one := by
      rw [value_finite_eq hm hsign, div_mul_eq_mul_div, div_le_iff₀ hone] at hle
      exact_mod_cast hle
    have hrounded := nearestUnits_le_natCast hexact hk
    have hsign' : s = false ∨ nearestUnits (m * n * one) one = 0 := by
      apply hsign.imp_right
      intro hm0
      subst hm0
      have hzero := nearestUnits_of_dvd one_pos representable_zero.2
      simpa only [Nat.zero_mul] using hzero
    obtain ⟨hrep, -⟩ := ofRatio_natCast false hk
    rw [finite_mul_ofRatio s hm hn]
    have hfinite : (ofUnits s (m * n * one) one).isFinite :=
      isFinite_ofUnits (Nat.lt_of_le_of_lt hrounded hrep.1)
    have hvalue : (ofUnits s (m * n * one) one).value = nearestUnits (m * n * one) one / one := by
      rw [value, units_ofUnits hfinite, signed_eq hsign', Int.cast_natCast]
    rw [hvalue]
    refine ⟨hfinite, div_nonneg (Nat.cast_nonneg _) hone.le, ?_⟩
    rw [div_le_iff₀ hone]
    exact_mod_cast hrounded

/-! ### The nearest integer -/

theorem wholeUnits_eq_floor (n : Nat) : (wholeUnits n : ℤ) = ⌊(n : ℚ) / one + 1 / 2⌋ := by
  have hone := one_cast_pos
  have hsum : (n : ℚ) / one + 1 / 2 = ((2 * n + one : Nat) : ℚ) / ((2 * one : Nat) : ℚ) := by
    push_cast
    field_simp
  rw [hsum, wholeUnits, Rat.floor_natCast_div_natCast]
  rfl

theorem whole?_eq_round {i : Int} (h : x.whole? = some i) (h0 : 0 ≤ x.value) :
    i = round x.value := by
  cases x with
  | nan => cases h
  | inf s => cases h
  | finite s n hn =>
    obtain rfl := Option.some.inj h
    have hsign := eq_false_or_eq_zero h0
    rw [round_eq, value_finite_eq hn hsign, ← wholeUnits_eq_floor]
    rcases hsign with rfl | rfl
    · rfl
    · have hzero : wholeUnits 0 = 0 := Nat.div_eq_of_lt (by have := one_pos; omega)
      rw [hzero]
      cases s <;> rfl

/-- **The nearest integer to a number in range is that of its exact value**, a half going up. -/
theorem toNat_toUInt64 {k : Nat} (hx : x.isFinite) (h0 : 0 ≤ x.value) (hle : x.value ≤ k)
    (hk : k < 2 ^ 64) : (x.toUInt64.toNat : ℤ) = round x.value ∧ x.toUInt64.toNat ≤ k := by
  obtain ⟨i, hi⟩ := whole?_of_isFinite hx
  have hround := whole?_eq_round hi h0
  have hlow : 0 ≤ i := by
    rw [hround, round_eq, Int.floor_nonneg]
    linarith
  have hhigh : i ≤ k := by
    rw [hround, round_eq, ← Int.lt_add_one_iff, Int.floor_lt]
    push_cast
    linarith
  have hnearest : x.nearestInt 0 18446744073709551615 = i := by
    rw [nearestInt_of_whole? hi]
    omega
  have htoNat : x.toUInt64.toNat = i.toNat := by
    rw [toUInt64, hnearest, UInt64.toNat_ofNat_of_lt']
    change i.toNat < 2 ^ 64
    omega
  rw [htoNat, ← hround]
  omega

end TachoPrint.Binary64
