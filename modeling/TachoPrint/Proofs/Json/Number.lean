import Mathlib.Tactic.Ring
import TachoPrint.Json.Number
import TachoPrint.Proofs.Binary64.Magnitude
import TachoPrint.Proofs.Binary64.Zero

/-!
# Short numerals

A reader that rounds the digits and then scales them rounds twice.  Few digits are not rounded at
all, and neither is a small power of ten, so on short numerals its one product or quotient is the
exact value rounded once.

## Main definitions

* `Json.NumberReader.continued` — the number that digits behind others spell.

## Main results

* `Binary64.ofUnits_scale` — a quotient is rounded alike however it is expanded.
* `Decimal.toBinary64_of_nonneg`, `Decimal.toBinary64_of_neg` — a numeral with a small exponent is
  one whole number or one quotient, rounded once.
* `Json.NumberReader.scaled_eq_nearest` — **short numerals are read as the nearest number.**
-/

namespace TachoPrint

namespace Binary64

/-! ### Expanded quotients -/

theorem nearestEven_scale (a b : Nat) {c : Nat} (hc : 0 < c) :
    nearestEven (a * c) (b * c) = nearestEven a b := by
  unfold nearestEven
  rw [Nat.mul_div_mul_right a b hc, Nat.mul_mod_mul_right]
  have hlow : 2 * (a % b * c) < b * c ↔ 2 * (a % b) < b := by
    rw [← Nat.mul_assoc]
    exact Nat.mul_lt_mul_right hc
  have hhigh : b * c < 2 * (a % b * c) ↔ b < 2 * (a % b) := by
    rw [← Nat.mul_assoc]
    exact Nat.mul_lt_mul_right hc
  simp only [hlow, hhigh]

/-- A quotient is rounded alike however it is expanded. -/
theorem ofUnits_scale (s : Bool) (a b : Nat) {c : Nat} (hc : 0 < c) :
    ofUnits s (a * c) (b * c) = ofUnits s a b := by
  have hunits : nearestUnits (a * c) (b * c) = nearestUnits a b := by
    unfold nearestUnits
    dsimp only
    rw [Nat.mul_div_mul_right a b hc, Nat.mul_right_comm, nearestEven_scale a _ hc]
  unfold ofUnits
  by_cases h : nearestUnits a b < ceiling
  · have h' : nearestUnits (a * c) (b * c) < ceiling := by rwa [hunits]
    rw [dif_pos h, dif_pos h']
    congr 1
  · have h' : ¬nearestUnits (a * c) (b * c) < ceiling := by rwa [hunits]
    rw [dif_neg h, dif_neg h']

end Binary64

namespace Decimal

open Binary64

/-! ### Numerals with small exponents -/

/-- A numeral with a small exponent stands for a whole number, rounded once. -/
theorem toBinary64_of_nonneg (negative : Bool) (m : Nat) {e : Int} (hlow : 0 ≤ e)
    (hhigh : e ≤ 22) :
    (mk negative m e).toBinary64 =
      ofUnits negative (m * Nat.pow 10 e.toNat * one) 1 := by
  unfold toBinary64
  dsimp only
  by_cases hzero : m = 0
  · rw [if_pos hzero, hzero, Nat.zero_mul, Nat.zero_mul, ofUnits_zero _ Nat.one_pos]
  · rw [if_neg hzero, if_pos hlow, if_neg (by omega), ofRatio]

/-- A numeral with a small negative exponent stands for a quotient, rounded once. -/
theorem toBinary64_of_neg (negative : Bool) (m : Nat) {e : Int} (hlow : -22 ≤ e)
    (hhigh : e < 0) :
    (mk negative m e).toBinary64 = ofUnits negative (m * one) (Nat.pow 10 (-e).toNat) := by
  unfold toBinary64
  dsimp only
  by_cases hzero : m = 0
  · have hpow : 0 < Nat.pow 10 (-e).toNat := Nat.pow_pos (by decide)
    rw [if_pos hzero, hzero, Nat.zero_mul, ofUnits_zero _ hpow]
  · rw [if_neg hzero, if_neg (by omega), if_neg (by omega), ofRatio]

/-- The sign of a numeral is the sign of what it stands for. -/
theorem toBinary64_negative (negative : Bool) (m : Nat) (e : Int) :
    (mk negative m e).toBinary64 =
      if negative then (mk false m e).toBinary64.neg
      else (mk false m e).toBinary64 := by
  cases negative with
  | false => exact (if_neg Bool.false_ne_true).symm
  | true =>
    rw [if_pos rfl]
    unfold toBinary64
    dsimp only
    split
    · rfl
    · split
      · split
        · rfl
        · exact (neg_ofUnits false _ _).symm
      · split
        · rfl
        · exact (neg_ofUnits false _ _).symm

end Decimal

namespace Json.NumberReader

open Binary64

/-! ### The terms of the scaling -/

/-- The whole number that digits behind `n` spell. -/
def continued (n : Nat) (cs : List Char) : Nat :=
  cs.foldl (fun n c => 10 * n + (c.toNat - '0'.toNat)) n

theorem continued_cons (n : Nat) (c : Char) (cs : List Char) :
    continued n (c :: cs) = continued (10 * n + (c.toNat - '0'.toNat)) cs := by
  unfold continued
  rw [List.foldl_cons]

theorem ofDigits_append (cs ds : List Char) :
    Decimal.ofDigits (cs ++ ds) = continued (continued 0 cs) ds := by
  unfold Decimal.ofDigits
  rw [List.foldl_append]
  rfl

theorem le_continued (n : Nat) (cs : List Char) : n ≤ continued n cs := by
  induction cs generalizing n with
  | nil => exact Nat.le_refl n
  | cons c cs ih =>
    have hnext := ih (10 * n + (c.toNat - '0'.toNat))
    rw [continued_cons]
    omega

/-- Digits that spell a number that fits are all counted in. -/
theorem accumulate_eq {n : Nat} {cs : List Char} (h : continued n cs < 18446744073709551616) :
    accumulate n cs = (continued n cs, 0) := by
  induction cs generalizing n with
  | nil => rfl
  | cons c cs ih =>
    rw [continued_cons] at h ⊢
    have hfits := Nat.lt_of_le_of_lt (le_continued _ cs) h
    rw [accumulate, if_pos hfits, ih h]

/-- Powers of ten up to the twenty-second need no more than 53 bits. -/
theorem exists_power {k : Nat} (hk : k ≤ 22) :
    ∃ h : Representable (Nat.pow 10 k * one), power k = .finite false (Nat.pow 10 k * one) h := by
  have hfive : Nat.pow 5 k < significandEnd := by
    have hle : Nat.pow 5 k ≤ Nat.pow 5 22 := Nat.pow_le_pow_right (by decide) hk
    have hlast : Nat.pow 5 22 < significandEnd := by decide
    omega
  have hsplit : Nat.pow 10 k * one = Nat.pow 5 k * Nat.pow 2 (k + 1074) := by
    have hten : Nat.pow 10 k = Nat.pow 5 k * Nat.pow 2 k := Nat.mul_pow 5 2 k
    have hshift : Nat.pow 2 (k + 1074) = Nat.pow 2 k * one := by
      unfold one
      generalize 1074 = e
      exact Nat.pow_add 2 k e
    rw [hten, hshift, Nat.mul_assoc]
  have hrep : Representable (Nat.pow 10 k * one) := by
    rw [hsplit]
    exact representable_mul_pow hfive (by omega)
  refine ⟨hrep, ?_⟩
  have hexact := ofUnits_mul false (b := 1) (by decide) hrep
  rw [Nat.mul_one] at hexact
  exact hexact

theorem exists_ofInt {m : Nat} (hm : m < significandEnd) :
    ∃ h : Representable (m * one), ofInt m = .finite false (m * one) h := by
  have hnonneg : decide ((m : Int) < 0) = false := decide_eq_false (by omega)
  rw [ofInt, hnonneg, Int.natAbs_natCast]
  exact ofRatio_natCast false hm

/-- A small power of ten times few digits is rounded once. -/
theorem ofInt_mul_power {m k : Nat} (hm : m < significandEnd) (hk : k ≤ 22) :
    ofInt m * power k = ofUnits false (m * Nat.pow 10 k * one) 1 := by
  obtain ⟨hdigits, hint⟩ := exists_ofInt hm
  obtain ⟨hten, hpower⟩ := exists_power hk
  have hregroup : m * one * (Nat.pow 10 k * one) = m * Nat.pow 10 k * one * one := by
    generalize one = u
    ring
  have hscale := ofUnits_scale false (m * Nat.pow 10 k * one) 1 Binary64.one_pos
  rw [Nat.one_mul] at hscale
  rw [hint, hpower, mul_finite, hregroup]
  exact hscale

/-- Few digits over a small power of ten are rounded once. -/
theorem ofInt_div_power {m k : Nat} (hm : m < significandEnd) (hk : k ≤ 22) :
    ofInt m / power k = ofUnits false (m * one) (Nat.pow 10 k) := by
  obtain ⟨hdigits, hint⟩ := exists_ofInt hm
  obtain ⟨hten, hpower⟩ := exists_power hk
  have hpos : 0 < Nat.pow 10 k * one := Nat.mul_pos (Nat.pow_pos (by decide)) Binary64.one_pos
  rw [hint, hpower, finite_div false false hdigits hten hpos]
  exact ofUnits_scale _ _ _ Binary64.one_pos

theorem isFinite_ofInt_div_power {m k : Nat} (hm : m < significandEnd) (hpos : 0 < k)
    (hk : k ≤ 22) : (ofInt m / power k).isFinite = true := by
  obtain ⟨hdigits, hint⟩ := exists_ofInt hm
  obtain ⟨hten, hpower⟩ := exists_power hk
  have hle : 2 ≤ Nat.pow 10 k := by
    have hone : Nat.pow 10 1 ≤ Nat.pow 10 k := Nat.pow_le_pow_right (by decide) hpos
    exact Nat.le_trans (by decide) hone
  rw [hint, hpower]
  exact isFinite_div rfl (Nat.mul_le_mul_right one hle) false hten

/-- Few digits are scaled by a small power of ten with one rounding. -/
theorem scale_ofInt {m : Nat} (hm : m < significandEnd) {e : Int} (hlow : -22 ≤ e)
    (hhigh : e ≤ 22) :
    scale (ofInt m) e =
      if (Decimal.mk false m e).toBinary64.isFinite then some (Decimal.mk false m e).toBinary64
      else none := by
  unfold scale
  dsimp only
  by_cases hneg : e < 0
  · have hk : (-e).toNat ≤ 22 := by omega
    have htimes : ((-e).toNat - 1) / maxPower = 0 := by
      apply Nat.div_eq_of_lt
      unfold maxPower
      omega
    have hfinite := isFinite_ofInt_div_power hm (by omega) hk
    rw [ofInt_div_power hm hk] at hfinite
    rw [Decimal.toBinary64_of_neg false m hlow hneg, if_pos hfinite, if_pos hneg, htimes,
      Nat.mul_zero, Nat.sub_zero, shrink, ofInt_div_power hm hk]
  · have hmax : e ≤ maxPower := by
      unfold maxPower
      omega
    rw [Decimal.toBinary64_of_nonneg false m (by omega) hhigh, if_neg hneg, if_pos hmax,
      ofInt_mul_power hm (by omega)]

/-- **Short numerals are read as the nearest number**, although the reader scales what it has
read: digits that make up no more than 53 bits, and no more than 22 places to shift them by. -/
theorem scaled_eq_nearest {negative : Bool} {whole fraction : List Char} {exponent : Int}
    (hdigits : Decimal.ofDigits (whole ++ fraction) < significandEnd)
    (hlow : -22 ≤ exponent - fraction.length) (hhigh : exponent - fraction.length ≤ 22) :
    scaled negative whole fraction exponent = nearest negative whole fraction exponent := by
  have hfits : significandEnd < 18446744073709551616 := by decide
  rw [ofDigits_append] at hdigits
  have hfraction := Nat.lt_trans hdigits hfits
  have hwhole := Nat.lt_of_le_of_lt (le_continued _ fraction) hfraction
  have hplaces : exponent + ((0 : Nat) : Int) - (fraction.length - ((0 : Nat) : Int)) =
      exponent - fraction.length := by omega
  simp only [scaled, accumulate_eq hwhole, accumulate_eq hfraction]
  rw [hplaces, scale_ofInt hdigits hlow hhigh]
  unfold nearest Decimal.ofParts
  rw [ofDigits_append, Decimal.toBinary64_negative negative]
  -- what is left is that a number is finite when its opposite is
  generalize (Decimal.mk false _ _).toBinary64 = a
  cases negative <;> cases a <;> rfl

end Json.NumberReader

end TachoPrint
