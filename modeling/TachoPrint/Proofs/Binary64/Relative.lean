import TachoPrint.Proofs.Binary64.Multiples

/-!
# Relative errors

Away from the ends of the range one rounding changes a number by a factor that is next to one.
Such factors multiply, and those of a divisor do too, so a chain of products and quotients is
its exact result up to as many factors as there are roundings in it, whatever the sizes of the
numbers are on the way.

## Main definitions

* `Binary64.slack` — a bound of the factor of one rounding.
* `Binary64.Near` — the same number up to a number of roundings.
* `Binary64.Moderate` — zero, or a number that is neither too small nor too large.
* `Binary64.Approximates` — a finite number that is near an exact result.

## Main results

* `Binary64.near_ofUnits` — **one rounding of a moderate quotient is one factor.**
* `Binary64.Approximates.mul`, `Binary64.Approximates.div` — roundings add up in products and
  quotients.
* `Binary64.Approximates.toInt_toInt32` — **what is near a whole number is rounded to it.**
-/

namespace TachoPrint.Binary64

/-! ### Factors next to one -/

/-- A bound of the factor by which one rounding changes a number, up or down. -/
def slack : ℚ := 1 + 1 / 2 ^ 52

theorem one_le_slack : 1 ≤ slack := by
  unfold slack
  norm_num

theorem slack_pow_pos (n : ℕ) : 0 < slack ^ n := pow_pos (by linarith [one_le_slack]) n

/-- A few roundings together are still next to one. -/
theorem slack_pow_le {n : ℕ} (hn : n ≤ 8) : slack ^ n ≤ 1 + 1 / 2 ^ 48 := by
  calc slack ^ n ≤ slack ^ 8 := pow_le_pow_right₀ one_le_slack hn
    _ ≤ 1 + 1 / 2 ^ 48 := by
      unfold slack
      norm_num

/-- The one number is the other up to `n` roundings. -/
def Near (n : ℕ) (p q : ℚ) : Prop := ∃ r, p = q * r ∧ (slack ^ n)⁻¹ ≤ r ∧ r ≤ slack ^ n

namespace Near

variable {n m : ℕ} {p q p' q' : ℚ}

theorem refl (q : ℚ) : Near 0 q q := ⟨1, (mul_one q).symm, by simp, by simp⟩

theorem mul (h : Near n p q) (h' : Near m p' q') : Near (n + m) (p * p') (q * q') := by
  obtain ⟨r, rfl, hlow, hhigh⟩ := h
  obtain ⟨r', rfl, hlow', hhigh'⟩ := h'
  have hn := inv_pos.mpr (slack_pow_pos n)
  have hm := inv_pos.mpr (slack_pow_pos m)
  refine ⟨r * r', by ring, ?_, ?_⟩
  · rw [pow_add, mul_inv]
    exact mul_le_mul hlow hlow' hm.le (hn.le.trans hlow)
  · rw [pow_add]
    exact mul_le_mul hhigh hhigh' (hm.le.trans hlow') (slack_pow_pos n).le

/-- The opposite change is as many roundings. -/
theorem inv (h : Near n p q) : Near n p⁻¹ q⁻¹ := by
  obtain ⟨r, rfl, hlow, hhigh⟩ := h
  have hr : 0 < r := lt_of_lt_of_le (inv_pos.mpr (slack_pow_pos n)) hlow
  refine ⟨r⁻¹, mul_inv q r, ?_, ?_⟩
  · exact inv_anti₀ hr hhigh
  · exact inv_le_of_inv_le₀ (slack_pow_pos n) hlow

theorem div (h : Near n p q) (h' : Near m p' q') : Near (n + m) (p / p') (q / q') := by
  rw [div_eq_mul_inv, div_eq_mul_inv]
  exact h.mul h'.inv

theorem trans {s : ℚ} (h : Near n p q) (h' : Near m q s) : Near (n + m) p s := by
  obtain ⟨r, rfl, hlow, hhigh⟩ := h
  have h1 : Near n r 1 := ⟨r, (one_mul r).symm, hlow, hhigh⟩
  have hmul := h1.mul h'
  rwa [one_mul, mul_comm r q] at hmul

theorem symm (h : Near n p q) : Near n q p := by
  obtain ⟨r, rfl, hlow, hhigh⟩ := h
  have hr : 0 < r := lt_of_lt_of_le (inv_pos.mpr (slack_pow_pos n)) hlow
  refine ⟨r⁻¹, (mul_inv_cancel_right₀ hr.ne' q).symm, ?_, ?_⟩
  · exact inv_anti₀ hr hhigh
  · exact inv_le_of_inv_le₀ (slack_pow_pos n) hlow

theorem abs_le_mul_pow (h : Near n p q) : |p| ≤ |q| * slack ^ n := by
  obtain ⟨r, rfl, hlow, hhigh⟩ := h
  have hr : 0 < r := lt_of_lt_of_le (inv_pos.mpr (slack_pow_pos n)) hlow
  rw [abs_mul, abs_of_pos hr]
  exact mul_le_mul_of_nonneg_left hhigh (abs_nonneg q)

/-- A few roundings miss a number by little of it. -/
theorem abs_sub_le_div (h : Near n p q) (hn : n ≤ 8) : |p - q| ≤ |q| / 2 ^ 48 := by
  obtain ⟨r, rfl, hlow, hhigh⟩ := h
  have hpos := slack_pow_pos n
  have hslack := slack_pow_le hn
  -- one less a little more than the excess of the inverse is at most the inverse
  have hinv : 1 - 1 / 2 ^ 48 ≤ (slack ^ n)⁻¹ := by
    rw [le_inv_comm₀ (by norm_num) hpos]
    apply hslack.trans
    norm_num
  have hmiss : |r - 1| ≤ 1 / 2 ^ 48 := by
    rw [abs_le]
    constructor <;> linarith
  calc |q * r - q| = |q| * |r - 1| := by rw [← abs_mul, mul_sub, mul_one]
    _ ≤ |q| * (1 / 2 ^ 48) := mul_le_mul_of_nonneg_left hmiss (abs_nonneg q)
    _ = |q| / 2 ^ 48 := by ring

/-- A rounding error is one factor. -/
theorem of_error (h : 2 ^ 53 * |p - q| ≤ |q|) : Near 1 p q := by
  rcases eq_or_ne q 0 with rfl | hq
  · have hp : |p - 0| ≤ 0 := by
      rw [abs_zero] at h
      linarith
    rw [sub_zero, abs_nonpos_iff] at hp
    subst hp
    refine ⟨1, by simp, ?_, ?_⟩
    · exact inv_le_one_of_one_le₀ (one_le_pow₀ one_le_slack)
    · exact one_le_pow₀ one_le_slack
  · have habs : 0 < |q| := abs_pos.mpr hq
    have hratio : |p / q - 1| ≤ 1 / 2 ^ 53 := by
      rw [div_sub_one hq, abs_div, div_le_div_iff₀ habs (by norm_num)]
      linarith
    obtain ⟨hlow, hhigh⟩ := abs_le.mp hratio
    refine ⟨p / q, by field_simp, ?_, ?_⟩
    · rw [pow_one, inv_le_iff_one_le_mul₀ (by linarith [one_le_slack])]
      unfold slack
      linarith
    · rw [pow_one]
      unfold slack
      linarith

end Near

/-! ### Neither too small nor too large -/

/-- Zero, or a number that differs from one by a factor of `2 ^ e` at most, up or down. -/
def Moderate (e : ℕ) (q : ℚ) : Prop := q = 0 ∨ 1 ≤ |q| * 2 ^ e ∧ |q| ≤ 2 ^ e

namespace Moderate

variable {d e : ℕ} {p q : ℚ}

theorem mul (hp : Moderate d p) (hq : Moderate e q) : Moderate (d + e) (p * q) := by
  rcases hp with rfl | ⟨hlow, hhigh⟩
  · exact .inl (zero_mul q)
  · rcases hq with rfl | ⟨hlow', hhigh'⟩
    · exact .inl (mul_zero p)
    · rw [Moderate, abs_mul, pow_add]
      refine .inr ⟨?_, mul_le_mul hhigh hhigh' (abs_nonneg q) (by positivity)⟩
      calc (1 : ℚ) ≤ |p| * 2 ^ d * (|q| * 2 ^ e) := one_le_mul_of_one_le_of_one_le hlow hlow'
        _ = |p| * |q| * (2 ^ d * 2 ^ e) := by ring

theorem inv (hq : Moderate e q) : Moderate e q⁻¹ := by
  rcases hq with rfl | ⟨hlow, hhigh⟩
  · exact .inl inv_zero
  · have hpow : (0 : ℚ) < 2 ^ e := by positivity
    have hq : 0 < |q| := by
      by_contra hnot
      nlinarith
    rw [Moderate, abs_inv, inv_mul_eq_div, one_le_div₀ hq, inv_le_iff_one_le_mul₀ hq, mul_comm]
    exact .inr ⟨hhigh, hlow⟩

theorem div (hp : Moderate d p) (hq : Moderate e q) : Moderate (d + e) (p / q) := by
  rw [div_eq_mul_inv]
  exact hp.mul hq.inv

theorem intCast {i : ℤ} (hi : |i| ≤ 2 ^ e) : Moderate e i := by
  rcases eq_or_ne i 0 with rfl | hne
  · exact .inl Int.cast_zero
  · have hone : (1 : ℚ) ≤ |(i : ℚ)| := by exact_mod_cast Int.one_le_abs hne
    refine .inr ⟨?_, by exact_mod_cast hi⟩
    exact one_le_mul_of_one_le_of_one_le hone (one_le_pow₀ (by norm_num))

/-- A few roundings make no moderate number small or large. -/
theorem near {n : ℕ} (hq : Moderate e q) (h : Near n p q) (hn : n ≤ 8) : Moderate (e + 1) p := by
  have hslack : slack ^ n ≤ 2 := (slack_pow_le hn).trans (by norm_num)
  have hp := h.abs_le_mul_pow
  have hq' := h.symm.abs_le_mul_pow
  have hpow : (0 : ℚ) < 2 ^ e := by positivity
  rcases hq with rfl | ⟨hlow, hhigh⟩
  · obtain ⟨r, rfl, -⟩ := h
    exact .inl (zero_mul r)
  · rw [Moderate, pow_succ]
    right
    constructor
    · have hdouble : |q| ≤ |p| * 2 := hq'.trans (mul_le_mul_of_nonneg_left hslack (abs_nonneg p))
      nlinarith
    · have hdouble : |p| ≤ |q| * 2 := hp.trans (mul_le_mul_of_nonneg_left hslack (abs_nonneg q))
      linarith

end Moderate

theorem value_ne_zero (s : Bool) {n : ℕ} (hn : Representable n) (hpos : 0 < n) :
    (finite s n hn).value ≠ 0 := by
  have hone := one_cast_pos
  have hunits : ((finite s n hn).units : ℚ) ≠ 0 := by
    show ((signed s n : ℤ) : ℚ) ≠ 0
    rw [Int.cast_ne_zero, ← abs_pos, abs_signed]
    exact_mod_cast hpos
  exact div_ne_zero hunits hone.ne'

/-- A finite number is moderate if its units are. -/
theorem moderate_value (s : Bool) {n e : ℕ} (hn : Representable n) (hlow : one ≤ n * 2 ^ e)
    (hhigh : n ≤ 2 ^ e * one) : Moderate e (finite s n hn).value := by
  have hone := one_cast_pos
  have habs : |(finite s n hn).value| = n / one := by
    rw [value, abs_div, abs_of_pos hone]
    show |((signed s n : ℤ) : ℚ)| / one = n / one
    rw [← Int.cast_abs, abs_signed, Int.cast_natCast]
  right
  rw [habs]
  -- from here on the size of a unit does not matter
  generalize one = u at *
  constructor
  · rw [div_mul_eq_mul_div, one_le_div₀ hone]
    exact_mod_cast hlow
  · rw [div_le_iff₀ hone]
    exact_mod_cast hhigh

/-! ### One rounding -/

/-- Rounding does not lead past a number. -/
theorem nearestUnits_le_of_le_mul {a b m : ℕ} (hb : 0 < b) (hm : gap m ∣ m) (h : a ≤ m * b) :
    nearestUnits a b ≤ m := by
  calc nearestUnits a b ≤ nearestUnits (m * b) b :=
        nearestUnits_mono hb hb (Nat.mul_le_mul_right b h)
    _ = m := nearestUnits_of_dvd hb hm

/-- A quotient of many units is rounded by `2⁻⁵³` of itself at most. -/
theorem nearestUnits_error_of_le {a b : ℕ} (hb : 0 < b) (h : 2 ^ 52 * b ≤ a) :
    2 ^ 53 * |(nearestUnits a b * b : ℤ) - a| ≤ a := by
  rcases nearestUnits_error_le a hb with herror | ⟨-, herror⟩
  · exact herror
  · have hcast : (2 ^ 52 * b : ℤ) ≤ a := by exact_mod_cast h
    linarith

theorem two_pow_le_one {d : ℕ} (h : d ≤ 1074) : 2 ^ d ≤ one := by
  unfold one
  revert h
  generalize 1074 = e
  exact two_pow_le

/-- A moderate number is neither few units nor too many. -/
theorem units_of_moderate {a b e : ℕ} {q : ℚ} (hq : (a : ℚ) = |q| * (b * one)) (hne : q ≠ 0)
    (hmod : Moderate e q) (he : e ≤ 1000) : 2 ^ 52 * b ≤ a ∧ a ≤ 2 ^ e * one * b := by
  obtain ⟨hlow, hhigh⟩ := hmod.resolve_left hne
  have hone := two_pow_le_one (d := 52 + e) (by omega)
  -- from here on the size of a unit does not matter
  generalize one = u at *
  have hu : (2 : ℚ) ^ 52 * 2 ^ e ≤ u := by
    rw [← pow_add]
    exact_mod_cast hone
  constructor
  · have hle : (2 : ℚ) ^ 52 * b ≤ a := by
      calc (2 : ℚ) ^ 52 * b ≤ 2 ^ 52 * b * (|q| * 2 ^ e) :=
            le_mul_of_one_le_right (by positivity) hlow
        _ = |q| * (b * (2 ^ 52 * 2 ^ e)) := by ring
        _ ≤ |q| * (b * u) := by gcongr
        _ = a := hq.symm
    exact_mod_cast hle
  · have hle : (a : ℚ) ≤ 2 ^ e * u * b := by
      calc (a : ℚ) = |q| * (b * u) := hq
        _ ≤ 2 ^ e * (b * u) := by gcongr
        _ = 2 ^ e * u * b := by ring
    exact_mod_cast hle

/-- A power of two of ones is a number. -/
theorem gap_dvd_two_pow_mul_one (e : ℕ) : gap (2 ^ e * one) ∣ 2 ^ e * one := by
  unfold one
  generalize 1074 = d
  have hpow : 2 ^ e * Nat.pow 2 d = 1 * Nat.pow 2 (e + d) := by
    rw [Nat.one_mul]
    exact (Nat.pow_add 2 e d).symm
  rw [hpow]
  exact gap_dvd_mul_pow (by decide)

/-- **One rounding of a moderate quotient is one factor**, and leads to no infinity. -/
theorem near_ofUnits (s : Bool) {a b e : ℕ} (hb : 0 < b) {q : ℚ}
    (hq : (signed s a : ℚ) = q * (b * one)) (hmod : Moderate e q) (he : e ≤ 1000) :
    (ofUnits s a b).isFinite ∧ Near 1 (ofUnits s a b).value q := by
  have hone := one_cast_pos
  have hbpos : (0 : ℚ) < b := by exact_mod_cast hb
  have habs : (a : ℚ) = |q| * (b * one) := by
    rw [← abs_of_pos (mul_pos hbpos hone), ← abs_mul, ← hq]
    exact_mod_cast (abs_signed s a).symm
  have herror : 2 ^ 53 * |(nearestUnits a b * b : ℤ) - a| ≤ a ∧ nearestUnits a b < ceiling := by
    rcases eq_or_ne q 0 with rfl | hne
    · obtain rfl : a = 0 := by
        rw [abs_zero, zero_mul] at habs
        exact_mod_cast habs
      have hzero := nearestUnits_of_dvd hb representable_zero.2
      rw [Nat.zero_mul] at hzero
      rw [hzero]
      exact ⟨by simp, ceiling_pos⟩
    · obtain ⟨hmany, hfew⟩ := units_of_moderate habs hne hmod he
      refine ⟨nearestUnits_error_of_le hb hmany, ?_⟩
      have hlimit : 2 ^ (e + 1) * one ≤ ceiling := two_pow_mul_one_le_ceiling (by omega)
      have hle := nearestUnits_le_of_le_mul hb (gap_dvd_two_pow_mul_one e) hfew
      have hpos := Nat.mul_pos (Nat.two_pow_pos e) one_pos
      rw [pow_succ] at hlimit
      linarith
  obtain ⟨herror, hlt⟩ := herror
  have hfinite : (ofUnits s a b).isFinite := isFinite_ofUnits hlt
  refine ⟨hfinite, Near.of_error ?_⟩
  -- both sides in units
  have hmiss : ((ofUnits s a b).value - q) * (b * one) =
      ((signed s (nearestUnits a b * b) - signed s a : ℤ) : ℚ) := by
    rw [value, units_ofUnits hfinite, sub_mul, ← hq, ← signed_mul]
    push_cast
    field_simp
  have hscaled : 2 ^ 53 * |(ofUnits s a b).value - q| * (b * one) ≤ |q| * (b * one) := by
    rw [mul_assoc, ← abs_of_pos (mul_pos hbpos hone), ← abs_mul, hmiss,
      abs_of_pos (mul_pos hbpos hone), ← habs, ← Int.cast_abs, abs_signed_sub_signed]
    exact_mod_cast herror
  exact le_of_mul_le_mul_right hscaled (mul_pos hbpos hone)

/-! ### Chains of roundings -/

/-- A finite number that is an exact result up to `n` roundings. -/
structure Approximates (n : ℕ) (x : Binary64) (q : ℚ) : Prop where
  isFinite : x.isFinite
  near : Near n x.value q

theorem approximates_self {x : Binary64} (hx : x.isFinite) : Approximates 0 x x.value :=
  ⟨hx, Near.refl _⟩

/-- A whole number is not rounded. -/
theorem approximates_ofInt {i : ℤ} (hi : i.natAbs < significandEnd) :
    Approximates 0 (ofInt i) i := by
  obtain ⟨hrep, hexact⟩ := ofRatio_natCast (decide (i < 0)) hi
  have hone := one_cast_pos
  have hvalue : (ofInt i).value = i := by
    have hunits : (ofInt i).units = i * one := by
      show (ofRatio (i < 0) i.natAbs 1).units = _
      rw [hexact]
      show signed (i < 0) (i.natAbs * one) = _
      rw [← signed_mul, signed_natAbs]
    rw [value, hunits, Int.cast_mul, Int.cast_natCast]
    exact mul_div_cancel_right₀ _ hone.ne'
  constructor
  · show (ofRatio (i < 0) i.natAbs 1).isFinite
    rw [hexact]
    rfl
  · rw [hvalue]
    exact Near.refl _

/-- An exact quotient in units. -/
theorem signed_mul_one_eq (s t : Bool) {k l : ℕ} (hk : Representable k) (hl : Representable l)
    (hpos : 0 < l) : (signed (s != t) (k * one) : ℚ) =
      (finite s k hk).value / (finite t l hl).value * (l * one) := by
  have hone := one_cast_pos
  have hl0 : (0 : ℚ) < l := by exact_mod_cast hpos
  unfold value units
  generalize one = u at hone ⊢
  cases s <;> cases t <;> simp only [signed, bne_self_eq_false, Bool.false_bne, Bool.bne_false,
    Bool.false_eq_true, if_true, if_false] <;> push_cast <;> field_simp

namespace Approximates

variable {n m e : ℕ} {x y : Binary64} {p q : ℚ}

/-- **A product has the roundings of its terms and one more.** -/
theorem mul (hx : Approximates n x p) (hy : Approximates m y q) (hmod : Moderate e (p * q))
    (he : e < 1000) (hnm : n + m ≤ 8) : Approximates (n + m + 1) (x * y) (p * q) := by
  obtain ⟨hfx, hnx⟩ := hx
  obtain ⟨hfy, hny⟩ := hy
  have hexact := hnx.mul hny
  have hmod' := hmod.near hexact hnm
  cases x with
  | nan => cases hfx
  | inf s => cases hfx
  | finite s k hk =>
    cases y with
    | nan => cases hfy
    | inf t => cases hfy
    | finite t l hl =>
      have hone := one_cast_pos
      have hunits : (signed (s != t) (k * l) : ℚ) =
          (finite s k hk).value * (finite t l hl).value * (one * one) := by
        rw [value_mul, div_mul_cancel₀ _ (mul_pos hone hone).ne']
        exact_mod_cast (signed_mul_signed s t k l).symm
      rw [mul_finite]
      obtain ⟨hfinite, hnear⟩ := near_ofUnits (s != t) one_pos hunits hmod' he
      refine ⟨hfinite, ?_⟩
      rw [Nat.add_comm (n + m)]
      exact hnear.trans hexact

/-- **A quotient has the roundings of its terms and one more.** -/
theorem div (hx : Approximates n x p) (hy : Approximates m y q) (hq : q ≠ 0)
    (hmod : Moderate e (p / q)) (he : e < 1000) (hnm : n + m ≤ 8) :
    Approximates (n + m + 1) (x / y) (p / q) := by
  obtain ⟨hfx, hnx⟩ := hx
  obtain ⟨hfy, hny⟩ := hy
  have hexact := hnx.div hny
  have hmod' := hmod.near hexact hnm
  cases x with
  | nan => cases hfx
  | inf s => cases hfx
  | finite s k hk =>
    cases y with
    | nan => cases hfy
    | inf t => cases hfy
    | finite t l hl =>
      have hl0 : 0 < l := by
        apply Nat.pos_of_ne_zero
        rintro rfl
        obtain ⟨r, hr, -⟩ := hny.symm
        rw [value_finite_eq hl (.inr rfl), Nat.cast_zero, zero_div, zero_mul] at hr
        exact hq hr
      rw [finite_div s t hk hl hl0]
      obtain ⟨hfinite, hnear⟩ :=
        near_ofUnits (s != t) hl0 (signed_mul_one_eq s t hk hl hl0) hmod' he
      refine ⟨hfinite, ?_⟩
      rw [Nat.add_comm (n + m)]
      exact hnear.trans hexact

/-- **What is near a whole number is rounded to it.** -/
theorem toInt_toInt32 {i : ℤ} (h : Approximates n x i) (hn : n ≤ 8) (hlow : -2147483648 ≤ i)
    (hhigh : i ≤ 2147483647) : x.toInt32.toInt = i := by
  obtain ⟨j, hj⟩ := whole?_of_isFinite h.isFinite
  have hwhole := abs_whole_error hj
  have hnear := h.near.abs_sub_le_div hn
  have hsize : |(i : ℚ)| ≤ 2 ^ 31 := by
    have habs : |i| ≤ 2 ^ 31 := by
      rw [abs_le]
      omega
    exact_mod_cast habs
  have hmiss : |(j : ℚ) - i| < 1 := by
    calc |(j : ℚ) - i| ≤ |(j : ℚ) - x.value| + |x.value - i| := abs_sub_le _ _ _
      _ < 1 := by linarith
  have hsame : j = i := by
    have hlt : |j - i| < 1 := by exact_mod_cast hmiss
    rw [Int.abs_lt_one_iff] at hlt
    omega
  subst hsame
  rw [Binary64.toInt_toInt32 hj]
  omega

end Approximates

end TachoPrint.Binary64
