import TachoPrint.Proofs.Binary64.Monotone

/-!
# Counts and the lengths that they stand for

The gearing of an axis rounds three times, and the last rounding is to whole counts.  What a
length becomes has the sign of the length, or the opposite one if the axis is geared backwards,
and a longer length becomes no fewer counts.  So a length that is no count at all is shorter
than one that is.

## Main definitions

* `Gearing.reverses` — the motor turns backwards to move forwards.

## Main results

* `Gearing.toCounts_nonneg`, `Gearing.toCounts_nonpos` — the sign of the counts.
* `Gearing.toCounts_ne_zero_of_within` — **what is no smaller than some counts is no fewer than
  one.**
-/

namespace TachoPrint.Gearing

open TachoPrint.Binary64

variable {g : Gearing} {mm mm' : Binary64}

/-- The encoder counts of a degree. -/
def countsPerDegree (g : Gearing) : Binary64 := ofInt g.countsPerTurn.toInt / fullTurn

theorem toCounts_eq (g : Gearing) (mm : Binary64) :
    g.toCounts mm = (mm * g.degreesPerMm * g.countsPerDegree).toInt32 := rfl

/-- The motor turns backwards to move forwards. -/
def reverses (g : Gearing) : Bool := g.degreesPerMm.negative != decide (g.countsPerTurn.toInt < 0)

@[simp] theorem negative_countsPerDegree (g : Gearing) :
    g.countsPerDegree.negative = decide (g.countsPerTurn.toInt < 0) := by
  have hturn : fullTurn.isPositive := by decide +kernel
  have hcounts : (ofInt g.countsPerTurn.toInt).isNaN = false := by
    unfold ofInt ofRatio
    exact isNaN_ofUnits _ _ _
  unfold countsPerDegree
  rw [negative_div hcounts hturn]
  unfold ofInt ofRatio
  exact negative_ofUnits _ _ _

/-- The sign of what is rounded to counts. -/
theorem negative_counts (h : (mm * g.degreesPerMm * g.countsPerDegree).isNaN = false) :
    (mm * g.degreesPerMm * g.countsPerDegree).negative = (mm.negative != g.reverses) := by
  rw [negative_mul h, negative_mul (isNaN_of_mul h), negative_countsPerDegree]
  unfold reverses
  exact Bool.bne_assoc _ _ _

theorem toCounts_nonneg (h : (mm.negative != g.reverses) = false) :
    0 ≤ (g.toCounts mm).toInt := by
  rw [toCounts_eq]
  cases hnan : (mm * g.degreesPerMm * g.countsPerDegree).isNaN with
  | true =>
    rw [toInt32_of_isNaN hnan]
    decide
  | false =>
    rw [← negative_counts hnan] at h
    exact toInt_toInt32_nonneg h

theorem toCounts_nonpos (h : (mm.negative != g.reverses) = true) :
    (g.toCounts mm).toInt ≤ 0 := by
  rw [toCounts_eq]
  cases hnan : (mm * g.degreesPerMm * g.countsPerDegree).isNaN with
  | true =>
    rw [toInt32_of_isNaN hnan]
    decide
  | false =>
    rw [← negative_counts hnan] at h
    exact toInt_toInt32_nonpos h

/-- Lengths of one sign become counts of one sign. -/
theorem sign_toCounts_eq (hsign : mm.negative = mm'.negative) (h : g.toCounts mm ≠ 0)
    (h' : g.toCounts mm' ≠ 0) : (g.toCounts mm).toInt.sign = (g.toCounts mm').toInt.sign := by
  have hne : (g.toCounts mm).toInt ≠ 0 := fun h0 => h (Int32.toInt_inj.mp h0)
  have hne' : (g.toCounts mm').toInt ≠ 0 := fun h0 => h' (Int32.toInt_inj.mp h0)
  cases hs : mm.negative != g.reverses with
  | false =>
    have hpos := toCounts_nonneg hs
    rw [hsign] at hs
    have hpos' := toCounts_nonneg hs
    rw [Int.sign_eq_one_of_pos (by omega), Int.sign_eq_one_of_pos (by omega)]
  | true =>
    have hneg := toCounts_nonpos hs
    rw [hsign] at hs
    have hneg' := toCounts_nonpos hs
    rw [Int.sign_eq_neg_one_of_neg (by omega), Int.sign_eq_neg_one_of_neg (by omega)]

/-- **What is no smaller than some counts is no fewer than one.** -/
theorem toCounts_ne_zero_of_within (h : Within mm mm') (hne : g.toCounts mm ≠ 0) :
    g.toCounts mm' ≠ 0 := by
  rw [toCounts_eq, Ne, toInt32_eq_zero_iff, Nat.not_lt] at hne ⊢
  have hone := one_pos
  have hcounts : 0 < (mm * g.degreesPerMm * g.countsPerDegree).magnitude := by omega
  have hdegrees := (magnitude_pos_of_mul hcounts).1
  have hle := ((h.mul hdegrees).mul hcounts).le
  omega

end TachoPrint.Gearing
