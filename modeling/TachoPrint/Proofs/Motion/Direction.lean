import TachoPrint.Proofs.Binary64.Directions
import TachoPrint.Proofs.Binary64.Magnitude
import TachoPrint.Proofs.Motion.Gearing

/-!
# Counts keep order and direction

Where the ratios of an axis are positive, a longer way is at least as many counts, and a way in
the other direction is as many counts in the other direction.  The three roundings on the way to
counts do not spoil this, nor does an overflow to an infinity.  The one exception is the end of
the range of the encoder, which reaches one count further down than up.

## Main results

* `Gearing.isPositive_countsPerDegree` — the counts of a degree are a positive number.
* `Gearing.toCounts_le_toCounts` — **a longer way is at least as many counts.**
* `Gearing.toInt_toCounts_neg` — **the way back is as many counts back.**
* `Gearing.toCounts_ordered` — **counts keep order and direction.**
-/

namespace TachoPrint.Gearing

open TachoPrint.Binary64

variable {g : Gearing} {mm mm' : Binary64}

/-- The counts of a degree are a positive number if those of a turn are. -/
theorem isPositive_countsPerDegree (h : 1 ≤ g.countsPerTurn.toInt) :
    g.countsPerDegree.isPositive = true := by
  have hlarge : ceiling ≤ one * one := by decide +kernel
  have hturn : fullTurn.isPositive = true := by decide +kernel
  have hend : 2147483648 ≤ significandEnd := by decide
  have hlt := g.countsPerTurn.toInt_lt
  obtain ⟨n, hn⟩ := Int.eq_ofNat_of_zero_le (Int.le_of_lt h)
  obtain ⟨hrep, hcounts⟩ := ofRatio_natCast false (n := n) (by omega)
  have hof : ofInt g.countsPerTurn.toInt = finite false (n * one) hrep := by
    rw [hn]
    exact hcounts
  obtain ⟨hrep', hliteral⟩ := ofRatio_natCast false (n := 360) (by decide)
  have hfull : fullTurn = finite false (360 * one) hrep' := hliteral
  unfold countsPerDegree isPositive
  rw [Bool.and_eq_true]
  constructor
  · rw [hfull, hof]
    apply isFinite_div rfl
    exact Nat.mul_le_mul_right one (by decide)
  · rw [← zero_eq, hof]
    apply less_div rfl _ hturn
    show ceiling ≤ n * one * one
    have hscaled : 1 * (one * one) ≤ n * (one * one) := Nat.mul_le_mul_right _ (by omega)
    rw [Nat.mul_assoc]
    omega

/-- **A longer way is at least as many counts.** -/
theorem toCounts_le_toCounts (hratio : g.degreesPerMm.isPositive = true)
    (hturn : 1 ≤ g.countsPerTurn.toInt) (h : mm.atMost mm' = true) :
    (g.toCounts mm).toInt ≤ (g.toCounts mm').toInt := by
  rw [toCounts_eq, toCounts_eq]
  apply toInt32_le_toInt32
  apply mul_atMost_mul (isPositive_countsPerDegree hturn)
  exact mul_atMost_mul hratio h

/-- **The way back is as many counts back**, unless these are the least that the encoder has.
Then it is the most that it has. -/
theorem toInt_toCounts_neg (g : Gearing) (mm : Binary64) :
    ((g.toCounts mm).toInt = -2147483648 → (g.toCounts (-mm)).toInt = 2147483647) ∧
      ((g.toCounts mm).toInt ≠ -2147483648 → (g.toCounts (-mm)).toInt ≠ -2147483648 →
        (g.toCounts (-mm)).toInt = -(g.toCounts mm).toInt) := by
  rw [toCounts_eq, toCounts_eq, Binary64.neg_mul, Binary64.neg_mul]
  exact toInt_toInt32_neg _

@[simp] theorem toCounts_zero (g : Gearing) : g.toCounts 0 = 0 := by
  apply g.toCounts_of_vanishes
  right
  exact ⟨false, zero_eq⟩

/-- **Counts keep order and direction.**  Let an axis turn a positive number of degrees for a
millimetre and have at least one count to a turn.  Then a way that is no shorter is no fewer
counts, a way that leads up is never counts down and one that leads down never counts up, and
the opposite way is the opposite counts.  The latter holds unless the one or the other is the
least count that the encoder has, and of the two that one is opposite to the greatest. -/
theorem toCounts_ordered (hratio : g.degreesPerMm.isPositive = true) (hturn : 1 ≤ g.countsPerTurn) :
    (∀ a b : Binary64, a.atMost b = true → (g.toCounts a).toInt ≤ (g.toCounts b).toInt) ∧
    (∀ a : Binary64, ((0 : Binary64).atMost a = true → 0 ≤ (g.toCounts a).toInt) ∧
      (a.atMost 0 = true → (g.toCounts a).toInt ≤ 0)) ∧
    ∀ a : Binary64,
      (g.toCounts a ≠ Int32.minValue → g.toCounts (-a) ≠ Int32.minValue →
        (g.toCounts (-a)).toInt = -(g.toCounts a).toInt) ∧
      (g.toCounts a = Int32.minValue → g.toCounts (-a) = Int32.maxValue) := by
  have hturn : 1 ≤ g.countsPerTurn.toInt := Int32.le_iff_toInt_le.mp hturn
  have hzero : (g.toCounts 0).toInt = 0 := by rw [toCounts_zero, Int32.toInt_zero]
  have hleast : ∀ c : Int32, c = Int32.minValue ↔ c.toInt = -2147483648 := by
    intro c
    rw [← Int32.toInt_inj]
    rfl
  refine ⟨fun a b hab => toCounts_le_toCounts hratio hturn hab, fun a => ⟨?_, ?_⟩,
    fun a => ⟨?_, ?_⟩⟩
  · intro h
    rw [← hzero]
    exact toCounts_le_toCounts hratio hturn h
  · intro h
    rw [← hzero]
    exact toCounts_le_toCounts hratio hturn h
  · intro ha hb
    rw [Ne, hleast] at ha hb
    exact (g.toInt_toCounts_neg a).2 ha hb
  · intro ha
    rw [hleast] at ha
    rw [← Int32.toInt_inj]
    exact (g.toInt_toCounts_neg a).1 ha

/-- An axis so steep that a millimetre overflows: it goes as far up as the encoder can count, and
the way back as far down. -/
theorem toCounts_ordered_steep :
    let g : Gearing := ⟨1e300, 360⟩
    g.degreesPerMm.isPositive = true ∧ 1 ≤ g.countsPerTurn ∧
      (g.toCounts (-1e10)).toInt ≤ (g.toCounts 2e-299).toInt ∧ (g.toCounts 2e-299).toInt = 20 ∧
      (g.toCounts (-2e-299)).toInt = -20 ∧ g.toCounts (-1e10) = Int32.minValue ∧
      g.toCounts (- -1e10) = Int32.maxValue := by
  intro g
  have hratio : g.degreesPerMm.isPositive = true := by decide +kernel
  have hturn : 1 ≤ g.countsPerTurn := by decide
  have hfew : (g.toCounts 2e-299).toInt = 20 := by decide +kernel
  have hleast : g.toCounts (-1e10) = Int32.minValue := by decide +kernel
  obtain ⟨horder, -, hneg⟩ := toCounts_ordered hratio hturn
  refine ⟨hratio, hturn, horder _ _ (by decide +kernel), hfew, ?_, hleast, (hneg _).2 hleast⟩
  rw [(hneg _).1 (by decide +kernel) (by decide +kernel), hfew]

end TachoPrint.Gearing
