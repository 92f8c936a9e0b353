import Mathlib.Algebra.Order.Field.Rat
import Mathlib.Tactic.FieldSimp
import Mathlib.Tactic.Linarith
import Mathlib.Tactic.Positivity
import Mathlib.Tactic.Ring
import TachoPrint.Binary64.Integer

/-!
# Exact values and rounding errors

A finite number is a rational number.  Each operation gives the exact result up to one
rounding, which is half a gap away at most: `2⁻⁵³` of the result, and half a unit where the
gap is a single unit.  A sum of numbers is a whole number of units, so there the half unit
never shows.

## Main definitions

* `Binary64.value` — the exact value of a finite number.
* `Binary64.whole?` — the nearest integer, if the number is finite.

## Main results

* `Binary64.abs_sub_error`, `Binary64.abs_mul_error` — one rounding each.
* `Binary64.abs_whole_error` — **the nearest integer is half a unit away at most.**
* `Binary64.mul_one_eq` — multiplying by one changes nothing.
* `Binary64.isFinite_div` — dividing by two or more leads to no infinity.
-/

namespace TachoPrint.Binary64

/-! ### Rounding of quotients -/

/-- Rounding a quotient misses it by half of one at most. -/
theorem nearestEven_error (a : Nat) {b : Nat} (hb : 0 < b) :
    2 * |(nearestEven a b * b : Int) - a| ≤ b := by
  have hdiv := Nat.div_add_mod a b
  have hmod := Nat.mod_lt a hb
  unfold nearestEven
  dsimp only
  generalize hq : a / b = q at *
  generalize hr : a % b = r at *
  have ha : (a : Int) = q * b + r := by
    rw [← hdiv]
    push_cast
    ring
  -- the quotient is too small by the remainder, and the next one too large by the rest
  have hlow : ((q : Int) * b - a) = -r := by
    rw [ha]
    ring
  have hhigh : (((q + 1 : Nat) : Int) * b - a) = b - r := by
    rw [ha]
    push_cast
    ring
  split
  · rw [hlow, abs_neg, abs_of_nonneg (by omega)]
    omega
  · split
    · rw [hhigh, abs_of_nonneg (by omega)]
      omega
    · rcases Nat.mod_two_eq_zero_or_one q with h | h
      · rw [h, Nat.add_zero, hlow, abs_neg, abs_of_nonneg (by omega)]
        omega
      · rw [h, hhigh, abs_of_nonneg (by omega)]
        omega

/-- Neighbours are one unit apart, or `2⁻⁵²` of the number. -/
theorem gap_eq_one_or_le (n : Nat) : gap n = 1 ∨ 2 ^ 52 * gap n ≤ n := by
  unfold gap
  by_cases h : n.log2 ≤ 52
  · left
    rw [Nat.sub_eq_zero_of_le h]
  · right
    have hn : n ≠ 0 := by
      rintro rfl
      exact h (by rw [Nat.log2_zero]; omega)
    have hpow : 2 ^ 52 * Nat.pow 2 (n.log2 - 52) = 2 ^ n.log2 := by
      have hsplit : n.log2 = 52 + (n.log2 - 52) := by omega
      conv_rhs => rw [hsplit]
      exact (Nat.pow_add 2 52 _).symm
    rw [hpow]
    exact Nat.log2_self_le hn

theorem nearestUnits_error (a : Nat) {b : Nat} (hb : 0 < b) :
    2 * |(nearestUnits a b * b : Int) - a| ≤ b * gap (a / b) := by
  have h := nearestEven_error a (Nat.mul_pos hb (gap_pos (a / b)))
  have hregroup : (nearestUnits a b * b : Int) =
      nearestEven a (b * gap (a / b)) * ((b * gap (a / b) : Nat) : Int) := by
    unfold nearestUnits
    push_cast
    ring
  rw [hregroup]
  exact_mod_cast h

/-- Rounding misses a quotient by `2⁻⁵³` of it, or by half a unit where the gap is one. -/
theorem nearestUnits_error_le (a : Nat) {b : Nat} (hb : 0 < b) :
    2 ^ 53 * |(nearestUnits a b * b : Int) - a| ≤ a ∨
      gap (a / b) = 1 ∧ 2 * |(nearestUnits a b * b : Int) - a| ≤ b := by
  have h := nearestUnits_error a hb
  rcases gap_eq_one_or_le (a / b) with hgap | hgap
  · right
    rw [hgap] at h
    exact ⟨hgap, by simpa using h⟩
  · left
    have hmul : b * (2 ^ 52 * gap (a / b)) ≤ a :=
      (Nat.mul_le_mul_left b hgap).trans (Nat.mul_div_le a b)
    have hcast : (b : Int) * (2 ^ 52 * gap (a / b)) ≤ a := by exact_mod_cast hmul
    nlinarith

/-- A quotient that is a whole number is not rounded. -/
theorem nearestEven_mul (k : Nat) {b : Nat} (hb : 0 < b) : nearestEven (k * b) b = k := by
  unfold nearestEven
  rw [Nat.mul_div_cancel k hb, Nat.mul_mod_left]
  exact if_pos hb

/-- What is representable is not rounded. -/
theorem nearestUnits_of_dvd {m b : Nat} (hb : 0 < b) (hm : gap m ∣ m) :
    nearestUnits (m * b) b = m := by
  have hgap := gap_pos m
  unfold nearestUnits
  rw [Nat.mul_div_cancel m hb]
  dsimp only
  generalize gap m = g at hm hgap
  obtain ⟨k, rfl⟩ := hm
  have hregroup : g * k * b = k * (b * g) := by ring
  rw [hregroup, nearestEven_mul k (Nat.mul_pos hb hgap), Nat.mul_comm]

/-- What is representable is the number nearest to itself. -/
@[simp] theorem ofUnits_mul (s : Bool) {m b : Nat} (hb : 0 < b) (hm : Representable m) :
    ofUnits s (m * b) b = .finite s m hm := by
  unfold ofUnits
  simp only [nearestUnits_of_dvd hb hm.2, hm.1, dif_pos]

/-! ### Exact values -/

/-- The units of a finite number, with its sign. -/
def units : Binary64 → Int
  | .finite s n _ => signed s n
  | _ => 0

/-- The exact value of a finite number. -/
def value (a : Binary64) : ℚ := a.units / one

theorem one_pos : 0 < one := by
  unfold one
  generalize 1074 = e
  exact Nat.two_pow_pos e

@[simp] theorem signed_natAbs (d : Int) : signed (decide (d < 0)) d.natAbs = d := by
  unfold signed
  by_cases h : d < 0
  · rw [if_pos (decide_eq_true h)]
    omega
  · rw [if_neg (by simpa using h)]
    omega

theorem abs_signed_sub_signed (s : Bool) (m n : Nat) :
    |signed s m - signed s n| = |(m : Int) - n| := by
  cases s with
  | false => rfl
  | true =>
    have hneg : signed true m - signed true n = -((m : Int) - n) := by
      simp [signed]
      ring
    rw [hneg, abs_neg]

@[simp] theorem abs_signed (s : Bool) (n : Nat) : |signed s n| = n := by
  cases s <;> simp [signed]

theorem signed_mul (s : Bool) (m n : Nat) : signed s m * n = signed s (m * n) := by
  cases s <;> simp [signed]

theorem signed_mul_signed (s t : Bool) (m n : Nat) :
    signed s m * signed t n = signed (s != t) (m * n) := by
  cases s <;> cases t <;> simp [signed]

@[simp] theorem value_zero : (0 : Binary64).value = 0 := by
  have hunits : (0 : Binary64).units = 0 := by decide +kernel
  unfold value
  rw [hunits, Int.cast_zero, zero_div]

/-- A finite result of a rounding has the rounded units. -/
theorem units_ofUnits {s : Bool} {a b : Nat} (h : (ofUnits s a b).isFinite) :
    (ofUnits s a b).units = signed s (nearestUnits a b) := by
  unfold ofUnits at h ⊢
  split
  · rfl
  · next hover =>
    rw [dif_neg hover] at h
    cases h

variable {x y : Binary64}

/-- Whole units are rounded by `2⁻⁵³` of themselves at most. -/
theorem units_ofUnits_error {d : Int} (h : (ofUnits (decide (d < 0)) d.natAbs 1).isFinite) :
    2 ^ 53 * |(ofUnits (decide (d < 0)) d.natAbs 1).units - d| ≤ |d| := by
  have hmiss := abs_signed_sub_signed (decide (d < 0)) (nearestUnits d.natAbs 1) d.natAbs
  rw [signed_natAbs] at hmiss
  rw [units_ofUnits h, hmiss, ← Int.natCast_natAbs d]
  rcases nearestUnits_error_le d.natAbs (b := 1) (by decide) with hle | ⟨hgap, -⟩
  · simpa using hle
  · -- where the gap is one there is nothing to round
    rw [Nat.div_one] at hgap
    have hexact := nearestUnits_of_dvd (m := d.natAbs) (b := 1) (by decide)
      (by rw [hgap]; exact Nat.one_dvd _)
    rw [Nat.mul_one] at hexact
    rw [hexact, sub_self, abs_zero, mul_zero]
    exact Int.natCast_nonneg _

/-- A difference is rounded by `2⁻⁵³` of itself at most. -/
theorem units_sub_error (hx : x.isFinite) (hy : y.isFinite) (h : (x - y).isFinite) :
    2 ^ 53 * |(x - y).units - (x.units - y.units)| ≤ |x.units - y.units| := by
  cases x with
  | nan => cases hx
  | inf s => cases hx
  | finite s m hm =>
    cases y with
    | nan => cases hy
    | inf t => cases hy
    | finite t n hn =>
      let d : Int := signed s m + signed (!t) n
      have hd : (finite s m hm).units - (finite t n hn).units = d := by
        cases t with
        | false => exact sub_eq_add_neg _ _
        | true => exact sub_neg_eq_add _ _
      have hsub : finite s m hm - finite t n hn =
          if d = 0 then zero (s && !t) else ofUnits (d < 0) d.natAbs 1 := rfl
      rw [hd]
      rw [hsub] at h ⊢
      by_cases hzero : d = 0
      · rw [if_pos hzero, hzero]
        have hunits : (zero (s && !t)).units = 0 := by cases (s && !t) <;> rfl
        rw [hunits]
        decide
      · rw [if_neg hzero] at h ⊢
        exact units_ofUnits_error h

/-- A representable difference is not rounded. -/
theorem sub_of_eq_add {m n d : Nat} (hm : Representable m) (hn : Representable n)
    (hd : Representable d) (h : m = n + d) :
    finite false m hm - finite false n hn = finite false d hd := by
  have hsum : signed false m + signed true n = d := by
    simp [signed]
    omega
  have hsub : finite false m hm - finite false n hn =
      if signed false m + signed true n = 0 then zero false
      else ofUnits (signed false m + signed true n < 0) (signed false m + signed true n).natAbs 1 :=
    rfl
  rw [hsub, hsum]
  by_cases hzero : d = 0
  · subst hzero
    rfl
  · have hexact := ofUnits_mul false (b := 1) (by decide) hd
    rw [Nat.mul_one] at hexact
    rw [if_neg (by omega), decide_eq_false (by omega), Int.natAbs_natCast]
    exact hexact

theorem value_sub (x y : Binary64) : x.value - y.value = ((x.units - y.units : Int) : ℚ) / one := by
  unfold value
  push_cast
  ring

theorem one_cast_pos : (0 : ℚ) < one := by exact_mod_cast one_pos

theorem value_mul (x y : Binary64) :
    x.value * y.value = ((x.units * y.units : Int) : ℚ) / (one * one) := by
  unfold value
  generalize one = u
  rw [div_mul_div_comm, Int.cast_mul]

theorem value_mul_sub (x y z : Binary64) : z.value - x.value * y.value =
    ((z.units * one - x.units * y.units : Int) : ℚ) / (one * one) := by
  have hone := one_cast_pos
  rw [value_mul]
  unfold value
  generalize one = u at hone ⊢
  push_cast
  field_simp

/-- **A difference is rounded once**, by `2⁻⁵³` of itself at most. -/
theorem abs_sub_error (hx : x.isFinite) (hy : y.isFinite) (h : (x - y).isFinite) :
    |(x - y).value - (x.value - y.value)| ≤ |x.value - y.value| / 2 ^ 53 := by
  have herror : (2 : ℚ) ^ 53 * |((x - y).units : ℚ) - ((x.units - y.units : Int) : ℚ)| ≤
      |((x.units - y.units : Int) : ℚ)| := by exact_mod_cast units_sub_error hx hy h
  have hone := one_cast_pos
  rw [value_sub]
  unfold value
  rw [← sub_div, abs_div, abs_div, abs_of_pos hone, div_div, div_le_div_iff₀ hone (by positivity)]
  nlinarith

@[simp] theorem mul_finite (s t : Bool) {m n : Nat} (hm : Representable m) (hn : Representable n) :
    finite s m hm * finite t n hn = ofUnits (s != t) (m * n) one := by
  change mul (finite s m hm) (finite t n hn) = _
  simp only [mul]

/-- Only finite numbers have a finite product. -/
theorem exists_finite_of_mul (h : (x * y).isFinite) : ∃ s m hm t n hn,
    x = finite s m hm ∧ y = finite t n hn ∧ x * y = ofUnits (s != t) (m * n) one := by
  change (mul x y).isFinite at h
  cases x with
  | nan => cases h
  | inf s =>
    cases y with
    | nan => cases h
    | inf t => cases h
    | finite t n hn =>
      unfold mul at h
      dsimp only at h
      split at h <;> cases h
  | finite s m hm =>
    cases y with
    | nan => cases h
    | inf t =>
      unfold mul at h
      dsimp only at h
      split at h <;> cases h
    | finite t n hn => exact ⟨s, m, hm, t, n, hn, rfl, rfl, mul_finite s t hm hn⟩

/-- A product is rounded by `2⁻⁵³` of itself, or by half a unit. -/
theorem units_mul_error (h : (x * y).isFinite) :
    2 ^ 53 * |(x * y).units * one - x.units * y.units| ≤ |x.units * y.units| ∨
      2 * |(x * y).units * one - x.units * y.units| ≤ one := by
  obtain ⟨s, m, hm, t, n, hn, rfl, rfl, hmul⟩ := exists_finite_of_mul h
  rw [hmul] at h ⊢
  have hproduct : (finite s m hm).units * (finite t n hn).units = signed (s != t) (m * n) :=
    signed_mul_signed s t m n
  rw [units_ofUnits h, hproduct, signed_mul, abs_signed_sub_signed, abs_signed]
  rcases nearestUnits_error_le (m * n) one_pos with hle | ⟨-, hle⟩
  · left
    exact_mod_cast hle
  · right
    exact_mod_cast hle

/-- **A product is rounded once**, by `2⁻⁵³` of itself and half a unit at most. -/
theorem abs_mul_error (h : (x * y).isFinite) :
    |(x * y).value - x.value * y.value| ≤ |x.value * y.value| / 2 ^ 53 + 1 / (2 * one) := by
  have hone := one_cast_pos
  rw [value_mul_sub, value_mul]
  have hcases : (2 : ℚ) ^ 53 * |(((x * y).units * one - x.units * y.units : Int) : ℚ)| ≤
      |((x.units * y.units : Int) : ℚ)| ∨
        2 * |(((x * y).units * one - x.units * y.units : Int) : ℚ)| ≤ one := by
    exact_mod_cast units_mul_error h
  -- from here on the size of a unit does not matter
  generalize ((x * y).units * one - x.units * y.units : Int) = miss at hcases ⊢
  generalize (x.units * y.units : Int) = product at hcases ⊢
  generalize (one : ℚ) = u at hone hcases ⊢
  have hsquare : 0 < u * u := by positivity
  rw [abs_div, abs_div, abs_of_pos hsquare]
  rcases hcases with hle | hle
  · have hhalf : 0 ≤ 1 / (2 * u) := by positivity
    have hrelative : |(miss : ℚ)| / (u * u) ≤ |(product : ℚ)| / (u * u) / 2 ^ 53 := by
      rw [div_div, div_le_div_iff₀ hsquare (by positivity)]
      nlinarith
    linarith
  · have hrelative : 0 ≤ |(product : ℚ)| / (u * u) / 2 ^ 53 := by positivity
    have hhalf : |(miss : ℚ)| / (u * u) ≤ 1 / (2 * u) := by
      rw [div_le_div_iff₀ hsquare (by positivity)]
      nlinarith
    linarith

/-- A unit is far less than one. -/
theorem half_unit_le : (1 : ℚ) / (2 * one) ≤ 1 / 2 ^ 30 := by
  have hone : (2 ^ 29 : Nat) ≤ one := by
    have hexp : 29 ≤ 1074 := by decide
    unfold one
    revert hexp
    generalize 1074 = e
    exact two_pow_le
  have hcast : (2 : ℚ) ^ 29 ≤ one := by exact_mod_cast hone
  rw [div_le_div_iff₀ (by linarith) (by norm_num)]
  linarith

theorem abs_mul_error_le (h : (x * y).isFinite) :
    |(x * y).value - x.value * y.value| ≤ |x.value * y.value| / 2 ^ 53 + 1 / 2 ^ 30 :=
  (abs_mul_error h).trans (add_le_add le_rfl half_unit_le)

theorem two_pow_mul_one_le_ceiling {d : Nat} (h : d ≤ 1024) : 2 ^ d * one ≤ ceiling := by
  have hexp : d + 1074 ≤ ceilingExp := by
    unfold ceilingExp
    omega
  unfold one
  revert hexp
  generalize 1074 = e
  intro hexp
  have hadd : 2 ^ d * Nat.pow 2 e = Nat.pow 2 (d + e) := (Nat.pow_add 2 d e).symm
  rw [hadd]
  exact pow_le_ceiling hexp

theorem isFinite_ofUnits {s : Bool} {a b : Nat} (h : nearestUnits a b < ceiling) :
    (ofUnits s a b).isFinite := by
  unfold ofUnits
  rw [dif_pos h]
  rfl

/-- What is not too large stays below the overflow threshold when it is rounded. -/
theorem nearestUnits_lt_ceiling {a : Nat} (h : a ≤ 2 ^ 64 * (one * one)) :
    nearestUnits a one < ceiling := by
  have hpos := one_pos
  -- the rounded quotient is at most twice the exact one and a unit
  have hrounded : (nearestUnits a one : Int) * one ≤ 2 * a + one := by
    have hle := le_abs_self ((nearestUnits a one * one : Int) - a)
    rcases nearestUnits_error_le a hpos with herror | ⟨-, herror⟩ <;> omega
  have hrounded : nearestUnits a one * one ≤ 2 * a + one := by exact_mod_cast hrounded
  have hlimit : 2 ^ 67 * one ≤ ceiling := two_pow_mul_one_le_ceiling (d := 67) (by decide)
  refine Nat.lt_of_lt_of_le ?_ hlimit
  clear hlimit
  generalize one = u at *
  generalize nearestUnits a u = r at *
  have hmul : r * u ≤ (2 ^ 65 * u + 1) * u := by nlinarith
  have hle : r ≤ 2 ^ 65 * u + 1 := Nat.le_of_mul_le_mul_right hmul hpos
  omega

/-- A product that is not too large is finite. -/
theorem isFinite_mul (hx : x.isFinite) (hy : y.isFinite) (h : |x.value * y.value| ≤ 2 ^ 64) :
    (x * y).isFinite := by
  cases x with
  | nan => cases hx
  | inf s => cases hx
  | finite s m hm =>
    cases y with
    | nan => cases hy
    | inf t => cases hy
    | finite t n hn =>
      have hone := one_cast_pos
      have hproduct : m * n ≤ 2 ^ 64 * (one * one) := by
        have hsquare : (0 : ℚ) < one * one := mul_pos hone hone
        have hunits : (finite s m hm).units * (finite t n hn).units = signed (s != t) (m * n) :=
          signed_mul_signed s t m n
        rw [value_mul, hunits, abs_div, ← Int.cast_abs, abs_signed, abs_of_pos hsquare,
          div_le_iff₀ hsquare] at h
        exact_mod_cast h
      rw [mul_finite]
      exact isFinite_ofUnits (nearestUnits_lt_ceiling hproduct)

/-- A whole number of at most 53 bits is not rounded. -/
theorem ofRatio_natCast (s : Bool) {n : Nat} (hn : n < significandEnd) :
    ∃ h : Representable (n * one), ofRatio s n 1 = finite s (n * one) h := by
  have hrep : Representable (n * one) := by
    have hexp : 1074 ≤ 2045 := by decide
    unfold one
    revert hexp
    generalize 1074 = e
    exact representable_mul_pow hn
  have hexact := ofUnits_mul s (b := 1) (by decide) hrep
  rw [Nat.mul_one] at hexact
  exact ⟨hrep, hexact⟩

/-- Multiplying by one changes nothing. -/
@[simp] theorem mul_one_eq (x : Binary64) : x * 1 = x := by
  obtain ⟨hone, hliteral⟩ := ofRatio_natCast false (n := 1) (by decide)
  change x * ofRatio false 1 1 = x
  rw [hliteral]
  cases x with
  | nan => rfl
  | inf s =>
    have hpos : 1 * one ≠ 0 := by
      have := one_pos
      omega
    change mul (inf s) (finite false (1 * one) hone) = inf s
    simp only [mul, if_neg hpos, Bool.bne_false]
  | finite s m hm =>
    rw [mul_finite, Nat.one_mul, ofUnits_mul _ one_pos hm, Bool.bne_false]

/-! ### Quotients -/

/-- A quotient by two or more is rounded to no more than what is divided. -/
theorem nearestUnits_mul_one_le {m n : Nat} (h : 2 * one ≤ n) : nearestUnits (m * one) n ≤ m := by
  have hn : 0 < n := by
    have := one_pos
    omega
  have hdouble : 2 * (m * one) ≤ m * n := by
    calc 2 * (m * one) = m * (2 * one) := by ring
      _ ≤ m * n := Nat.mul_le_mul_left m h
  have habove := le_abs_self ((nearestUnits (m * one) n * n : Int) - (m * one : Nat))
  have herror := nearestUnits_error_le (m * one) hn
  generalize nearestUnits (m * one) n = r at *
  generalize m * one = a at *
  rcases herror with herror | ⟨-, herror⟩
  · -- what is added is less than the quotient itself
    have hle : (r * n : Int) ≤ (m * n : Nat) := by omega
    exact Nat.le_of_mul_le_mul_right (by exact_mod_cast hle) hn
  · -- what is added is half a unit
    have hle : (2 * r * n : Int) ≤ ((m + 1) * n : Nat) := by
      push_cast
      nlinarith
    have hunits : 2 * r ≤ m + 1 := Nat.le_of_mul_le_mul_right (by exact_mod_cast hle) hn
    omega

/-- A finite number divided by two or more is finite. -/
theorem isFinite_div (hx : x.isFinite) {n : Nat} (h : 2 * one ≤ n) (s : Bool)
    (hn : Representable n) : (x / finite s n hn).isFinite := by
  cases x with
  | nan => cases hx
  | inf t => cases hx
  | finite t m hm =>
    have hne : n ≠ 0 := by
      have := one_pos
      omega
    have hdiv : finite t m hm / finite s n hn = ofUnits (t != s) (m * one) n := by
      change div _ _ = _
      simp only [div, if_neg hne]
    rw [hdiv]
    exact isFinite_ofUnits (Nat.lt_of_le_of_lt (nearestUnits_mul_one_le h) hm.1)

/-! ### Whole numbers -/

/-- The nearest integer to a finite number, a half going away from zero. -/
def whole? : Binary64 → Option Int
  | .finite s n _ => some (signed s (wholeUnits n))
  | _ => none

@[simp] theorem whole?_finite (s : Bool) {n : Nat} (hn : Representable n) :
    (finite s n hn).whole? = some (signed s (wholeUnits n)) := rfl

theorem whole?_of_isFinite (h : x.isFinite) : ∃ i, x.whole? = some i := by
  cases x with
  | nan => cases h
  | inf s => cases h
  | finite s n hn => exact ⟨_, rfl⟩

theorem isFinite_of_whole? {i : Int} (h : x.whole? = some i) : x.isFinite := by
  cases x with
  | nan => cases h
  | inf s => cases h
  | finite s n hn => rfl

/-- Among the integers of a machine width the nearest one is the nearest of all, moved to
the end of the range if it is past that. -/
theorem nearestInt_of_whole? {i : Int} (h : x.whole? = some i) (low high : Int) :
    x.nearestInt low high = max low (min high i) := by
  cases x with
  | nan => cases h
  | inf s => cases h
  | finite s n hn =>
    obtain rfl := Option.some.inj h
    rfl

theorem toInt_toInt32 {i : Int} (h : x.whole? = some i) :
    x.toInt32.toInt = max (-2147483648) (min 2147483647 i) := by
  unfold toInt32
  rw [nearestInt_of_whole? h]
  exact Int32.toInt_ofInt_of_le (by omega) (by omega)

/-- **The nearest integer is half of one away at most.** -/
theorem abs_whole_error {i : Int} (h : x.whole? = some i) : |(i : ℚ) - x.value| ≤ 1 / 2 := by
  cases x with
  | nan => cases h
  | inf s => cases h
  | finite s n hn =>
    obtain rfl := Option.some.inj h
    have hone := one_pos
    have hdiv : wholeUnits n * (2 * one) ≤ 2 * n + one ∧
        2 * n + one < (wholeUnits n + 1) * (2 * one) := by
      have hpos : 0 < 2 * one := by omega
      unfold wholeUnits
      exact ⟨Nat.div_mul_le_self _ _, Nat.lt_mul_of_div_lt (Nat.lt_succ_self _) hpos⟩
    have hsigned : ((signed s (wholeUnits n) : Int) : ℚ) - (finite s n hn).value =
        ((signed s 1 : Int) : ℚ) * (wholeUnits n - n / one) := by
      unfold value units
      generalize wholeUnits n = w
      generalize one = u
      cases s with
      | false => simp [signed]
      | true =>
        simp [signed]
        ring
    have hunit : |((signed s 1 : Int) : ℚ)| = 1 := by cases s <;> simp [signed]
    rw [hsigned, abs_mul, hunit, one_mul]
    generalize wholeUnits n = w at hdiv
    generalize one = u at hone hdiv
    have hu : (0 : ℚ) < u := by exact_mod_cast hone
    have hlow : (w : ℚ) * (2 * u) ≤ 2 * n + u := by exact_mod_cast hdiv.1
    have hhigh : (2 : ℚ) * n + u < (w + 1) * (2 * u) := by exact_mod_cast hdiv.2
    have hquotient : (n : ℚ) = n / u * u := by field_simp
    generalize (n : ℚ) / u = q at hquotient
    rw [hquotient] at hlow hhigh
    rw [abs_le]
    constructor <;> nlinarith

end TachoPrint.Binary64
