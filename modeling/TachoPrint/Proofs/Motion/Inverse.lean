import TachoPrint.Proofs.Binary64.Relative
import TachoPrint.Proofs.Motion.Gearing

/-!
# Counts to millimetres and back

From counts to millimetres and back there are six roundings, and the exact results cancel.  As
long as no number on the way is so small or so large that a rounding loses more than its share,
six roundings are far less than half a count, over the whole range of the encoder, and so the
counts come back.

## Main results

* `Gearing.approximates_toMillimetres` — the millimetres of some counts, up to three roundings.
* `Gearing.approximates_counts` — what the millimetres are rounded from on the way back.
* `Gearing.toCounts_toMillimetres` — **counts survive the trip through millimetres.**
-/

namespace TachoPrint.Gearing

open TachoPrint.Binary64

variable {g : Gearing} {e : ℕ}

/-- Encoder counts, and the counts of a turn, are read without a rounding. -/
theorem approximates_count (c : Int32) : Approximates 0 (ofInt c.toInt) c.toInt := by
  have hend : 2147483648 < significandEnd := by decide
  have hlow := c.le_toInt
  have hhigh := c.toInt_lt
  apply approximates_ofInt
  omega

theorem moderate_count (c : Int32) : Moderate 31 (c.toInt : ℚ) := by
  have hlow := c.le_toInt
  have hhigh := c.toInt_lt
  apply Moderate.intCast
  rw [abs_le]
  omega

theorem toInt_cast_ne_zero {c : Int32} (hc : c ≠ 0) : (c.toInt : ℚ) ≠ 0 := by
  intro h
  apply hc
  rw [← Int32.toInt_inj]
  exact_mod_cast h

theorem approximates_fullTurn : Approximates 0 fullTurn 360 := by
  have h := approximates_ofInt (i := 360) (by decide)
  exact_mod_cast h

theorem moderate_fullTurn : Moderate 9 360 := by
  have h := Moderate.intCast (i := 360) (e := 9) (by decide)
  exact_mod_cast h

/-- The degrees of a millimetre are a number, and neither too small nor too large. -/
structure Gentle (g : Gearing) : Prop where
  isFinite : g.degreesPerMm.isFinite
  ne_zero : g.degreesPerMm.value ≠ 0
  moderate : Moderate 333 g.degreesPerMm.value

/-- A ratio within `10 ^ 100` of one, up or down, is gentle. -/
theorem gentle_of_between (hlow : (1e-100 : Binary64).atMost g.degreesPerMm.abs = true)
    (hhigh : g.degreesPerMm.abs.atMost 1e100 = true) : g.Gentle := by
  have hleast : (1e-100 : Binary64).rank = some ((1e-100 : Binary64).magnitude : ℤ) := by
    decide +kernel
  have hmost : (1e100 : Binary64).rank = some ((1e100 : Binary64).magnitude : ℤ) := by
    decide +kernel
  have hlarge : one ≤ (1e-100 : Binary64).magnitude * 2 ^ 333 := by decide +kernel
  have hsmall : (1e100 : Binary64).magnitude ≤ 2 ^ 333 * one := by decide +kernel
  obtain ⟨i, j, hi, hj, hij⟩ := atMost_iff.mp hlow
  obtain ⟨j', l, hj', hl, hjl⟩ := atMost_iff.mp hhigh
  obtain rfl := Option.some.inj (hi.symm.trans hleast)
  obtain rfl := Option.some.inj (hl.symm.trans hmost)
  obtain rfl := Option.some.inj (hj.symm.trans hj')
  have hfinite : g.degreesPerMm.abs.isFinite = true :=
    isFinite_of_between (by decide +kernel) (by decide +kernel) ⟨isNaN_of_rank hj, hlow, hhigh⟩
  obtain ⟨ratio, turn⟩ := g
  cases ratio with
  | nan => cases hfinite
  | inf s => cases hfinite
  | finite s n hn =>
    obtain rfl : (n : ℤ) = j := Option.some.inj hj
    have hn0 : 0 < n := by
      have hpos : 0 < (1e-100 : Binary64).magnitude := by decide +kernel
      omega
    have hlow' : one ≤ n * 2 ^ 333 :=
      hlarge.trans (Nat.mul_le_mul_right _ (Int.ofNat_le.mp hij))
    have hhigh' : n ≤ 2 ^ 333 * one := (Int.ofNat_le.mp hjl).trans hsmall
    exact ⟨rfl, value_ne_zero s hn hn0, moderate_value s hn hlow' hhigh'⟩

/-- The counts of a degree are rounded once. -/
theorem approximates_countsPerDegree (g : Gearing) :
    Approximates 1 g.countsPerDegree (g.countsPerTurn.toInt / 360) := by
  have hmod := (moderate_count g.countsPerTurn).div moderate_fullTurn
  exact (approximates_count g.countsPerTurn).div approximates_fullTurn (by norm_num) hmod
    (by decide) (by decide)

theorem toMillimetres_eq (hratio : g.degreesPerMm.value ≠ 0) (hturn : g.countsPerTurn ≠ 0)
    (counts : Int32) : g.toMillimetres counts =
      ofInt counts.toInt * fullTurn / ofInt g.countsPerTurn.toInt / g.degreesPerMm := by
  have hequals : g.degreesPerMm.equals 0 = false := by
    apply Bool.eq_false_iff.mpr
    intro h
    rw [equals_iff (isNaN_of_isFinite isFinite_zero), rank_zero] at h
    have hfinite : g.degreesPerMm.isFinite = true :=
      isFinite_of_rank_eq isFinite_zero (h.trans rank_zero.symm)
    rw [rank_of_isFinite hfinite] at h
    apply hratio
    rw [value, Option.some.inj h, Int.cast_zero, zero_div]
  have hcounts : (g.countsPerTurn == 0) = false := beq_false_of_ne hturn
  unfold toMillimetres
  rw [hequals, hcounts, Bool.or_self, if_neg Bool.false_ne_true]

/-- **The millimetres of some counts**, up to three roundings. -/
theorem approximates_toMillimetres (hratio : g.Gentle) (hturn : g.countsPerTurn ≠ 0)
    (counts : Int32) : Approximates 3 (g.toMillimetres counts)
      (counts.toInt * 360 / g.countsPerTurn.toInt / g.degreesPerMm.value) := by
  have hturn' : (g.countsPerTurn.toInt : ℚ) ≠ 0 := toInt_cast_ne_zero hturn
  have hturns := (moderate_count counts).mul moderate_fullTurn
  have hdegrees := hturns.div (moderate_count g.countsPerTurn)
  have hmm := hdegrees.div hratio.moderate
  rw [toMillimetres_eq hratio.ne_zero hturn]
  have h1 := (approximates_count counts).mul approximates_fullTurn hturns (by decide) (by decide)
  have h2 := h1.div (approximates_count g.countsPerTurn) hturn' hdegrees (by decide) (by decide)
  exact h2.div (approximates_self hratio.isFinite) hratio.ne_zero hmm (by decide) (by decide)

/-- What the millimetres of some counts are rounded from on the way back is those counts, up to
six roundings. -/
theorem approximates_counts (hratio : g.Gentle) (hturn : g.countsPerTurn ≠ 0) (counts : Int32) :
    Approximates 6 (g.toMillimetres counts * g.degreesPerMm * g.countsPerDegree)
      counts.toInt := by
  have hturn' : (g.countsPerTurn.toInt : ℚ) ≠ 0 := toInt_cast_ne_zero hturn
  -- the exact results cancel one after the other
  have hback : (counts.toInt * 360 / g.countsPerTurn.toInt / g.degreesPerMm.value) *
      g.degreesPerMm.value = (counts.toInt : ℚ) * 360 / g.countsPerTurn.toInt :=
    div_mul_cancel₀ _ hratio.ne_zero
  have hcounts : (counts.toInt : ℚ) * 360 / g.countsPerTurn.toInt *
      (g.countsPerTurn.toInt / 360) = counts.toInt := by
    field_simp
  have hdegrees := ((moderate_count counts).mul moderate_fullTurn).div
    (moderate_count g.countsPerTurn)
  have h4 := (approximates_toMillimetres hratio hturn counts).mul
    (approximates_self hratio.isFinite) (hback.symm ▸ hdegrees) (by decide) (by decide)
  rw [hback] at h4
  have h6 := h4.mul (approximates_countsPerDegree g) (hcounts.symm ▸ moderate_count counts)
    (by decide) (by decide)
  rwa [hcounts] at h6

/-- **Counts survive the trip through millimetres**, whichever the encoder can hold, and whichever
way the axis is geared.  The degrees of a millimetre may be as few as `10 ^ -100` and as many as
`10 ^ 100`, and a turn may have any counts but none. -/
theorem toCounts_toMillimetres (hturn : g.countsPerTurn ≠ 0)
    (hlow : (1e-100 : Binary64).atMost g.degreesPerMm.abs = true)
    (hhigh : g.degreesPerMm.abs.atMost 1e100 = true) (counts : Int32) :
    g.toCounts (g.toMillimetres counts) = counts := by
  have hratio := gentle_of_between hlow hhigh
  have hnear := approximates_counts hratio hturn counts
  have hmost := counts.toInt_lt
  rw [toCounts_eq, ← Int32.toInt_inj]
  exact hnear.toInt_toInt32 (by decide) counts.le_toInt (by omega)

/-- A flat axis that is geared backwards, and a turn of the fewest counts that there are: the
least count survives, and so does the greatest. -/
theorem toCounts_toMillimetres_flat :
    let g : Gearing := ⟨-1e-100, Int32.minValue⟩
    (1e-100 : Binary64).atMost g.degreesPerMm.abs = true ∧
      g.degreesPerMm.abs.atMost 1e100 = true ∧ g.countsPerTurn ≠ 0 ∧
      g.toCounts (g.toMillimetres Int32.minValue) = Int32.minValue ∧
      g.toCounts (g.toMillimetres Int32.maxValue) = Int32.maxValue := by
  intro g
  have hlow : (1e-100 : Binary64).atMost g.degreesPerMm.abs = true := by decide +kernel
  have hhigh : g.degreesPerMm.abs.atMost 1e100 = true := by decide +kernel
  have hturn : g.countsPerTurn ≠ 0 := by decide
  exact ⟨hlow, hhigh, hturn, toCounts_toMillimetres hturn hlow hhigh _,
    toCounts_toMillimetres hturn hlow hhigh _⟩

end TachoPrint.Gearing
