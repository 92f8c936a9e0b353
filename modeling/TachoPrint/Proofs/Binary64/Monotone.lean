import Mathlib.Data.Nat.Log
import TachoPrint.Proofs.Binary64.Zero

/-!
# Rounding keeps sign and order

A rounding does not change the sign of what it rounds, and a larger quotient is rounded to no
fewer units.  So products and quotients have the sign that their terms give them, and they grow
with their terms, up to the infinities.

## Main definitions

* `Binary64.negative` — the sign bit of a number.
* `Binary64.magnitude` — the units of a number without its sign.
* `Binary64.Within` — two numbers, the first of which is no larger than the second.

## Main results

* `Binary64.negative_mul`, `Binary64.negative_div` — the sign of a product and of a quotient.
* `Binary64.nearestUnits_mono` — **a larger quotient is rounded to no fewer units.**
* `Binary64.Within.mul` — products grow with their terms.
* `Binary64.within_div` — dividing by at most one makes nothing smaller.
-/

namespace TachoPrint.Binary64

variable {x y k : Binary64}

/-! ### Signs -/

/-- The sign bit of a number; NaN has none. -/
def negative : Binary64 → Bool
  | .nan => false
  | .inf s => s
  | .finite s _ _ => s

@[simp] theorem negative_ofUnits (s : Bool) (a b : Nat) : (ofUnits s a b).negative = s := by
  unfold ofUnits
  split <;> rfl

/-- A positive number has a positive number of units. -/
theorem exists_finite_of_isPositive (h : x.isPositive) :
    ∃ n hn, x = finite false n hn ∧ 0 < n := by
  obtain ⟨i, hi, hpos⟩ := exists_rank_of_isPositive h
  cases x with
  | nan => cases hi
  | inf s => cases isFinite_of_isPositive h
  | finite s n hn =>
    obtain rfl := Option.some.inj hi
    cases s with
    | false => exact ⟨n, hn, rfl, by simpa [signed] using hpos⟩
    | true =>
      simp only [signed, if_true] at hpos
      omega

theorem negative_of_isPositive (h : x.isPositive) : x.negative = false := by
  obtain ⟨n, hn, rfl, -⟩ := exists_finite_of_isPositive h
  rfl

theorem isNaN_of_mul (h : (x * y).isNaN = false) : x.isNaN = false := by
  cases x with
  | nan => cases h
  | inf s => rfl
  | finite s n hn => rfl

protected theorem mul_comm (x y : Binary64) : x * y = y * x := by
  have hsign : ∀ s t : Bool, (s != t) = (t != s) := by decide
  change mul x y = mul y x
  cases x with
  | nan => cases y <;> rfl
  | inf s =>
    cases y with
    | nan => rfl
    | inf t => exact congrArg inf (hsign s t)
    | finite t n hn =>
      simp only [mul]
      rw [hsign]
  | finite s m hm =>
    cases y with
    | nan => rfl
    | inf t =>
      simp only [mul]
      rw [hsign]
    | finite t n hn =>
      simp only [mul]
      rw [hsign, Nat.mul_comm]

theorem inf_mul (s : Bool) (h : (inf s * k).isNaN = false) :
    inf s * k = inf (s != k.negative) := by
  cases k with
  | nan => cases h
  | inf t => rfl
  | finite t n hn =>
    change (if n = 0 then nan else inf (s != t)).isNaN = false at h
    change (if n = 0 then nan else inf (s != t)) = _
    split
    · next h0 =>
      rw [if_pos h0] at h
      cases h
    · rfl

/-- The sign of a product. -/
theorem negative_mul (h : (x * y).isNaN = false) :
    (x * y).negative = (x.negative != y.negative) := by
  cases x with
  | nan => cases h
  | inf s =>
    rw [inf_mul s h]
    rfl
  | finite s m hm =>
    cases y with
    | nan => cases h
    | inf t =>
      rw [Binary64.mul_comm] at h ⊢
      rw [inf_mul t h]
      exact bne_comm
    | finite t n hn =>
      rw [mul_finite]
      exact negative_ofUnits _ _ _

@[simp] theorem finite_div (s t : Bool) {m n : Nat} (hm : Representable m) (hn : Representable n)
    (h : 0 < n) : finite s m hm / finite t n hn = ofUnits (s != t) (m * one) n := by
  change div _ _ = _
  simp only [div, if_neg (Nat.ne_of_gt h)]

/-- Dividing by a positive number keeps the sign. -/
theorem negative_div (hx : x.isNaN = false) (hy : y.isPositive) :
    (x / y).negative = x.negative := by
  obtain ⟨n, hn, rfl, hpos⟩ := exists_finite_of_isPositive hy
  cases x with
  | nan => cases hx
  | inf s => exact Bool.bne_false s
  | finite s m hm =>
    rw [finite_div s false hm hn hpos, negative_ofUnits]
    exact Bool.bne_false s

/-! ### Rounding of quotients -/

theorem le_nearestEven (a b : Nat) : a / b ≤ nearestEven a b := by
  unfold nearestEven
  dsimp only
  split
  · exact Nat.le_refl _
  · split <;> omega

/-- The whole part of a larger quotient is no smaller. -/
theorem div_le_div_of_mul_le {a b c d : Nat} (hb : 0 < b) (hd : 0 < d) (h : a * d ≤ c * b) :
    a / b ≤ c / d := by
  rw [Nat.le_div_iff_mul_le hd]
  have hscaled : a / b * d * b ≤ c * b := by
    calc a / b * d * b = a / b * b * d := by ring
      _ ≤ a * d := Nat.mul_le_mul_right d (Nat.div_mul_le_self a b)
      _ ≤ c * b := h
  exact Nat.le_of_mul_le_mul_right hscaled hb

theorem nearestEven_mono {a b c d : Nat} (hb : 0 < b) (hd : 0 < d) (h : a * d ≤ c * b) :
    nearestEven a b ≤ nearestEven c d := by
  have hfloor := div_le_div_of_mul_le hb hd h
  rcases Nat.lt_or_eq_of_le hfloor with hlt | heq
  · -- there is a whole number between them
    calc nearestEven a b ≤ a / b + 1 := nearestEven_le a b
      _ ≤ c / d := hlt
      _ ≤ nearestEven c d := le_nearestEven c d
  · -- the same whole part, and no smaller a rest
    have hrest : a % b * d ≤ c % d * b := by
      have ha := Nat.div_add_mod a b
      have hc := Nat.div_add_mod c d
      rw [← heq] at hc
      nlinarith
    have hbelow : 2 * (c % d) < d → 2 * (a % b) < b := by
      intro hlow
      by_contra hnot
      nlinarith
    have habove : b < 2 * (a % b) → d < 2 * (c % d) := by
      intro hhigh
      by_contra hnot
      nlinarith
    unfold nearestEven
    dsimp only
    rw [← heq]
    split_ifs <;> omega

/-- Rounding does not lead below the power of two below. -/
theorem pow_log2_le_nearestUnits {a b : Nat} (h : a / b ≠ 0) :
    2 ^ (a / b).log2 ≤ nearestUnits a b := by
  have hgap : gap (a / b) = 2 ^ ((a / b).log2 - 52) := rfl
  obtain ⟨m, hm⟩ : gap (a / b) ∣ 2 ^ (a / b).log2 := by
    rw [hgap]
    exact Nat.pow_dvd_pow 2 (Nat.sub_le _ _)
  have hpow : 2 ^ (a / b).log2 ≤ a / b := Nat.log2_self_le h
  have hpos := gap_pos (a / b)
  unfold nearestUnits
  dsimp only
  generalize gap (a / b) = g at *
  have hcount : m ≤ nearestEven a (b * g) := by
    calc m ≤ a / b / g := by
          rw [Nat.le_div_iff_mul_le hpos, Nat.mul_comm, ← hm]
          exact hpow
      _ = a / (b * g) := Nat.div_div_eq_div_mul a b g
      _ ≤ nearestEven a (b * g) := le_nearestEven a (b * g)
  rw [hm, Nat.mul_comm]
  exact Nat.mul_le_mul_right g hcount

/-- Rounding does not lead above the power of two above. -/
theorem nearestUnits_le_pow_log2 (a b : Nat) : nearestUnits a b ≤ 2 ^ ((a / b).log2 + 1) := by
  have hgap : gap (a / b) = 2 ^ ((a / b).log2 - 52) := rfl
  obtain ⟨m, hm⟩ : gap (a / b) ∣ 2 ^ ((a / b).log2 + 1) := by
    rw [hgap]
    exact Nat.pow_dvd_pow 2 (by omega)
  have hpow : a / b < 2 ^ ((a / b).log2 + 1) := Nat.lt_log2_self
  have hpos := gap_pos (a / b)
  unfold nearestUnits
  dsimp only
  generalize gap (a / b) = g at *
  have hcount : nearestEven a (b * g) ≤ m := by
    calc nearestEven a (b * g) ≤ a / (b * g) + 1 := nearestEven_le a (b * g)
      _ = a / b / g + 1 := by rw [Nat.div_div_eq_div_mul]
      _ ≤ m := by
          rw [Nat.succ_le_iff, Nat.div_lt_iff_lt_mul hpos, Nat.mul_comm, ← hm]
          exact hpow
  rw [hm, Nat.mul_comm g]
  exact Nat.mul_le_mul_right g hcount

/-- **A larger quotient is rounded to no fewer units.** -/
theorem nearestUnits_mono {a b c d : Nat} (hb : 0 < b) (hd : 0 < d) (h : a * d ≤ c * b) :
    nearestUnits a b ≤ nearestUnits c d := by
  have hfloor := div_le_div_of_mul_le hb hd h
  rcases Nat.lt_or_ge (a / b).log2 (c / d).log2 with hlt | hge
  · -- there is a power of two between them
    have hne : c / d ≠ 0 := by
      intro h0
      rw [h0, Nat.log2_zero] at hlt
      exact absurd hlt (Nat.not_lt_zero _)
    calc nearestUnits a b ≤ 2 ^ ((a / b).log2 + 1) := nearestUnits_le_pow_log2 a b
      _ ≤ 2 ^ (c / d).log2 := Nat.pow_le_pow_right (by decide) hlt
      _ ≤ nearestUnits c d := pow_log2_le_nearestUnits hne
  · -- they are counted in the same gap
    have hlog : (a / b).log2 = (c / d).log2 := by
      rw [Nat.log2_eq_log_two, Nat.log2_eq_log_two] at hge ⊢
      exact Nat.le_antisymm (Nat.log_mono_right hfloor) hge
    have hgap : gap (a / b) = gap (c / d) := by
      unfold gap
      rw [hlog]
    unfold nearestUnits
    dsimp only
    rw [hgap]
    have hpos := gap_pos (c / d)
    generalize gap (c / d) = g at *
    refine Nat.mul_le_mul_right g (nearestEven_mono (Nat.mul_pos hb hpos) (Nat.mul_pos hd hpos) ?_)
    calc a * (d * g) = a * d * g := (Nat.mul_assoc a d g).symm
      _ ≤ c * b * g := Nat.mul_le_mul_right g h
      _ = c * (b * g) := Nat.mul_assoc c b g

/-! ### Order of magnitudes -/

/-- The units of a number without its sign; the infinities are just past the overflow
threshold. -/
def magnitude : Binary64 → Nat
  | .nan => 0
  | .inf _ => ceiling
  | .finite _ n _ => n

@[simp] theorem magnitude_ofUnits (s : Bool) (a b : Nat) :
    (ofUnits s a b).magnitude = min (nearestUnits a b) ceiling := by
  unfold ofUnits
  split
  · next h => exact (Nat.min_eq_left (Nat.le_of_lt h)).symm
  · next h => exact (Nat.min_eq_right (Nat.not_lt.mp h)).symm

/-- A larger quotient is rounded to no smaller a number. -/
theorem magnitude_ofUnits_mono (s t : Bool) {a b c d : Nat} (hb : 0 < b) (hd : 0 < d)
    (h : a * d ≤ c * b) : (ofUnits s a b).magnitude ≤ (ofUnits t c d).magnitude := by
  rw [magnitude_ofUnits, magnitude_ofUnits]
  exact min_le_min_right _ (nearestUnits_mono hb hd h)

@[grind =] theorem magnitude_eq_zero_iff : x.magnitude = 0 ↔ x.Vanishes := by
  constructor
  · intro h
    cases x with
    | nan => exact .inl rfl
    | inf s => exact absurd h (Nat.ne_of_gt ceiling_pos)
    | finite s n hn =>
      obtain rfl : n = 0 := h
      exact .inr ⟨s, rfl⟩
  · rintro (rfl | ⟨s, rfl⟩) <;> rfl

theorem isNaN_of_magnitude (h : 0 < x.magnitude) : x.isNaN = false :=
  isNaN_of_not_vanishes fun hv => Nat.ne_of_gt h (magnitude_eq_zero_iff.mpr hv)

/-- A product has a magnitude only if both terms have one. -/
theorem magnitude_pos_of_mul (h : 0 < (x * k).magnitude) : 0 < x.magnitude ∧ 0 < k.magnitude := by
  have hterm : ∀ {a b : Binary64}, 0 < (a * b).magnitude → 0 < a.magnitude := by
    intro a b hab
    apply Nat.pos_of_ne_zero
    intro h0
    have hvanishes := (magnitude_eq_zero_iff.mp h0).mul b
    exact absurd (magnitude_eq_zero_iff.mpr hvanishes) (Nat.ne_of_gt hab)
  refine ⟨hterm h, ?_⟩
  rw [Binary64.mul_comm] at h
  exact hterm h

theorem isNaN_inf_mul (s : Bool) (h : 0 < k.magnitude) : (inf s * k).isNaN = false := by
  cases k with
  | nan => exact absurd h (Nat.lt_irrefl 0)
  | inf t => rfl
  | finite t n hn =>
    have hn0 : n ≠ 0 := Nat.ne_of_gt h
    change (if n = 0 then nan else inf (s != t)).isNaN = false
    rw [if_neg hn0]
    rfl

/-- The first number is no larger than the second, and neither is NaN. -/
structure Within (x y : Binary64) : Prop where
  left : x.isNaN = false
  right : y.isNaN = false
  le : x.magnitude ≤ y.magnitude

theorem magnitude_le_ceiling (x : Binary64) : x.magnitude ≤ ceiling := by
  cases x with
  | nan => exact Nat.zero_le _
  | inf s => exact Nat.le_refl _
  | finite s n hn => exact Nat.le_of_lt hn.1

/-- **Products grow with their terms**, unless they vanish. -/
theorem Within.mul (h : Within x y) (hpos : 0 < (x * k).magnitude) : Within (x * k) (y * k) := by
  obtain ⟨hx, hk⟩ := magnitude_pos_of_mul hpos
  have hy : 0 < y.magnitude := Nat.lt_of_lt_of_le hx h.le
  have hinf : ∀ s, Within (x * k) (inf s) := fun s =>
    ⟨isNaN_of_magnitude hpos, rfl, magnitude_le_ceiling _⟩
  cases y with
  | nan => cases h.right
  | inf t =>
    rw [inf_mul t (isNaN_inf_mul t hk)]
    exact hinf _
  | finite t n hn =>
    cases k with
    | nan => exact absurd hk (Nat.lt_irrefl 0)
    | inf u =>
      rw [Binary64.mul_comm (finite t n hn), inf_mul u (isNaN_inf_mul u hy)]
      exact hinf _
    | finite u p hp =>
      cases x with
      | nan => cases h.left
      | inf s => exact absurd hn.1 (Nat.not_lt.mpr h.le)
      | finite s m hm =>
        rw [mul_finite, mul_finite]
        refine ⟨isNaN_ofUnits _ _ _, isNaN_ofUnits _ _ _, ?_⟩
        exact magnitude_ofUnits_mono _ _ one_pos one_pos
          (Nat.mul_le_mul_right one (Nat.mul_le_mul_right p h.le))

/-- Positive numbers are in the order of their magnitudes. -/
theorem magnitude_le_of_atMost (hx : x.isPositive) (h : x.atMost y = true) :
    x.magnitude ≤ y.magnitude := by
  obtain ⟨n, hn, rfl, hpos⟩ := exists_finite_of_isPositive hx
  obtain ⟨i, j, hi, hj, hij⟩ := atMost_iff.mp h
  obtain rfl : (n : Int) = i := Option.some.inj hi
  have hrank : j ≤ y.magnitude := by
    cases y with
    | nan => cases hj
    | inf s =>
      obtain rfl := Option.some.inj hj
      cases s <;> simp only [signed, magnitude, Bool.false_eq_true, if_true, if_false] <;> omega
    | finite s k hk =>
      obtain rfl := Option.some.inj hj
      cases s <;> simp only [signed, magnitude, Bool.false_eq_true, if_true, if_false] <;> omega
  exact Int.ofNat_le.mp (Int.le_trans hij hrank)

/-- **Dividing by at most one makes nothing smaller.** -/
theorem within_div (hx : x.isNaN = false) (hy : y.isPositive) (hle : y.atMost 1 = true) :
    Within x (x / y) := by
  have hone : (1 : Binary64).magnitude = one := by decide +kernel
  have hmagnitude := magnitude_le_of_atMost hy hle
  rw [hone] at hmagnitude
  obtain ⟨n, hn, rfl, hpos⟩ := exists_finite_of_isPositive hy
  cases x with
  | nan => cases hx
  | inf s => exact ⟨rfl, rfl, Nat.le_refl _⟩
  | finite s m hm =>
    rw [finite_div s false hm hn hpos]
    have hexact := ofUnits_mul s one_pos hm
    rw [← hexact]
    refine ⟨isNaN_ofUnits _ _ _, isNaN_ofUnits _ _ _, ?_⟩
    exact magnitude_ofUnits_mono _ _ one_pos hpos (Nat.mul_le_mul_left (m * one) hmagnitude)

/-! ### Whole numbers -/

theorem toInt_toInt32_eq (x : Binary64) :
    x.toInt32.toInt = x.nearestInt (-2147483648) 2147483647 := by
  have hrange : -2147483648 ≤ x.nearestInt (-2147483648) 2147483647 ∧
      x.nearestInt (-2147483648) 2147483647 ≤ 2147483647 := by
    cases x with
    | nan => decide
    | inf s => cases s <;> decide
    | finite s n hn =>
      simp only [nearestInt]
      omega
  exact Int32.toInt_ofInt_of_le hrange.1 (by omega)

theorem toInt32_of_isNaN (h : x.isNaN = true) : x.toInt32 = 0 := by
  cases x with
  | nan => rfl
  | inf s => cases h
  | finite s n hn => cases h

theorem toInt_toInt32_nonneg (h : x.negative = false) : 0 ≤ x.toInt32.toInt := by
  rw [toInt_toInt32_eq]
  cases x with
  | nan => exact Int.le_refl 0
  | inf s =>
    obtain rfl : s = false := h
    decide
  | finite s n hn =>
    obtain rfl : s = false := h
    simp only [nearestInt, signed, Bool.false_eq_true, if_false]
    omega

theorem toInt_toInt32_nonpos (h : x.negative = true) : x.toInt32.toInt ≤ 0 := by
  rw [toInt_toInt32_eq]
  cases x with
  | nan => exact Int.le_refl 0
  | inf s =>
    obtain rfl : s = true := h
    decide
  | finite s n hn =>
    obtain rfl : s = true := h
    simp only [nearestInt, signed, if_true]
    omega

/-- **A number is no count if it is less than a half.** -/
@[grind =] theorem toInt32_eq_zero_iff (x : Binary64) : x.toInt32 = 0 ↔ 2 * x.magnitude < one := by
  have hone := one_pos
  have hceiling : one ≤ ceiling := by
    have hle := two_pow_mul_one_le_ceiling (d := 0) (by decide)
    omega
  have hwhole : ∀ n, wholeUnits n = 0 ↔ 2 * n < one := by
    intro n
    unfold wholeUnits
    rw [Nat.div_eq_zero_iff]
    omega
  rw [← Int32.toInt_inj, toInt_toInt32_eq, Int32.toInt_zero]
  cases x with
  | nan => exact iff_of_true rfl hone
  | inf s =>
    have hfar : ¬2 * (inf s).magnitude < one := by
      change ¬2 * ceiling < one
      omega
    refine iff_of_false ?_ hfar
    cases s <;> decide
  | finite s n hn =>
    change _ ↔ 2 * n < one
    rw [← hwhole n]
    simp only [nearestInt, signed]
    cases s <;> simp only [Bool.false_eq_true, if_true, if_false] <;> omega

end TachoPrint.Binary64
