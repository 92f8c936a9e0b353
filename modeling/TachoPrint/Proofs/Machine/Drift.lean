import TachoPrint.Proofs.Binary64.Value
import TachoPrint.Proofs.Machine.Encoder

/-!
# Drift of the vertical encoder

A move to a height turns the motor by the distance in whole counts, and then the axis is at
the height exactly.  What is lost to the rounding is not made up for later, so a climb of many
moves may leave the encoder away from the counts of its last height: by half a count for each
move, and for the last height once more.

The binary roundings on the way to whole counts are small beside that, `2⁻²⁰` of a count at
most, as long as the counts fit in 32 bits.

## Main definitions

* `Gearing.Fits` — a distance has counts that the encoder can be told.
* `Axis.climb` — moves to one height after another.
* `Axis.drift` — how far the encoder is from the exact counts of the height.

## Main results

* `Axis.CanClimb.step`, `Axis.CanClimb.run` — what a move and a climb add to the drift.
* `Axis.encoder_climb_le` — **a climb leaves the encoder close to the counts of its last
  height**, half a count for each move and another half for that height.
* `Axis.encoder_climb_ladder` — there are climbs of any length that lead it that far astray.
-/

namespace TachoPrint

open TachoPrint.Action

/-! ### Counts of a distance -/

theorem abs_toInt_sub_toInt_le (a b : Int32) : |a.toInt - b.toInt| ≤ 2 ^ 32 := by
  have ha := Int32.le_toInt a
  have ha' := Int32.toInt_lt a
  have hb := Int32.le_toInt b
  have hb' := Int32.toInt_lt b
  rw [abs_le]
  omega

/-- Holding an integer in a range brings it no further from what is in the range. -/
theorem abs_sub_max_min_le {low high n i : Int} (hlow : low ≤ n) (hhigh : n ≤ high) :
    |n - max low (min high i)| ≤ |n - i| := by
  rw [Int.abs_eq_natAbs, Int.abs_eq_natAbs]
  omega

theorem abs_le_add_abs_sub (x y : ℚ) : |x| ≤ |y| + |y - x| := by
  have h := abs_sub_abs_le_abs_sub x y
  rw [abs_sub_comm] at h
  linarith

/-- Two roundings to binary numbers are small beside one to whole counts, if these are few. -/
theorem abs_sub_le_of_roundings {exact rounded ratio product counts : ℚ}
    (hrounded : |rounded - exact| ≤ |exact| / 2 ^ 53)
    (hproduct : |product - rounded * ratio| ≤ |rounded * ratio| / 2 ^ 53 + 1 / 2 ^ 30)
    (hcounts : |counts - product| ≤ 1 / 2) (hfew : |counts| ≤ 2 ^ 31) :
    |counts - exact * ratio| ≤ 1 / 2 + 1 / 2 ^ 20 := by
  have hscaled : |rounded * ratio - exact * ratio| ≤ |exact * ratio| / 2 ^ 53 := by
    rw [← sub_mul, abs_mul, abs_mul, mul_div_right_comm]
    exact mul_le_mul_of_nonneg_right hrounded (abs_nonneg ratio)
  -- from the counts, which are few, back to the sizes of what was rounded
  have hsize := abs_le_add_abs_sub product counts
  have hsize' := abs_le_add_abs_sub (rounded * ratio) product
  have hsize'' := abs_le_add_abs_sub (exact * ratio) (rounded * ratio)
  calc |counts - exact * ratio|
      ≤ |counts - product| + |product - exact * ratio| := abs_sub_le _ _ _
    _ ≤ |counts - product| + (|product - rounded * ratio| + |rounded * ratio - exact * ratio|) :=
        by
          gcongr
          exact abs_sub_le _ _ _
    _ ≤ 1 / 2 + 1 / 2 ^ 20 := by linarith

/-- What is near a product is nearly as near to the counts of it. -/
theorem abs_sub_counts_le {near exact product counts bound : ℚ} (hnear : |near - exact| ≤ bound)
    (hproduct : |product - exact| ≤ |exact| / 2 ^ 53 + 1 / 2 ^ 30)
    (hcounts : |counts - product| ≤ 1 / 2) (hsize : |exact| ≤ 2 ^ 32 + 2 ^ 31 + 2 ^ 13) :
    |near - counts| ≤ bound + (1 / 2 + 1 / 2 ^ 20) := by
  rw [abs_sub_comm] at hproduct hcounts
  calc |near - counts|
      ≤ |near - exact| + |exact - counts| := abs_sub_le _ _ _
    _ ≤ |near - exact| + (|exact - product| + |product - counts|) := by
        gcongr
        exact abs_sub_le _ _ _
    _ ≤ bound + (1 / 2 + 1 / 2 ^ 20) := by linarith

namespace Gearing

variable {g : Gearing} {x y : Binary64}

/-- The counts of a distance, however many they are. -/
def wholeCounts? (g : Gearing) (mm : Binary64) : Option Int :=
  (g.toDegrees mm * (Binary64.ofInt g.countsPerTurn.toInt / fullTurn)).whole?

/-- The distance has counts that the encoder can be told: they are neither too many for it
nor lost to an overflow before. -/
def Fits (g : Gearing) (mm : Binary64) : Prop := ∃ i ∈ g.wholeCounts? mm, FitsEncoder i

instance (g : Gearing) (mm : Binary64) : Decidable (g.Fits mm) :=
  inferInstanceAs (Decidable (∃ i ∈ g.wholeCounts? mm, FitsEncoder i))

/-- With as many counts as degrees to a turn the degrees are the counts. -/
theorem counts_of_turn (hturn : g.countsPerTurn = 360) (degrees : Binary64) :
    degrees * (Binary64.ofInt g.countsPerTurn.toInt / fullTurn) = degrees := by
  have hone : Binary64.ofInt (360 : Int32).toInt / fullTurn = 1 := by decide +kernel
  rw [hturn, hone, Binary64.mul_one_eq]

theorem toInt_toCounts (hturn : g.countsPerTurn = 360) {mm : Binary64} {i : Int}
    (h : (g.toDegrees mm).whole? = some i) :
    (g.toCounts mm).toInt = max (-2147483648) (min 2147483647 i) := by
  unfold toCounts degreesToCounts
  rw [counts_of_turn hturn]
  exact Binary64.toInt_toInt32 h

/-- **Rounding the distance between two places to counts** misses it by half a count, and by
a little more for the two roundings before. -/
theorem abs_counts_error (hturn : g.countsPerTurn = 360) (hx : x.isFinite) (hy : y.isFinite)
    (hfits : g.Fits (x - y)) :
    |((g.toCounts (x - y)).toInt : ℚ) - (x.value - y.value) * g.degreesPerMm.value| ≤
      1 / 2 + 1 / 2 ^ 20 := by
  obtain ⟨i, hi, hlow, hhigh⟩ := hfits
  unfold wholeCounts? at hi
  rw [counts_of_turn hturn] at hi
  have hcounts : (g.toCounts (x - y)).toInt = i := by
    rw [toInt_toCounts hturn hi]
    omega
  have hproduct := Binary64.isFinite_of_whole? hi
  obtain ⟨s, m, hm, t, n, hn, hdist, hratio, -⟩ := Binary64.exists_finite_of_mul hproduct
  have hfinite : (x - y).isFinite := by
    rw [hdist]
    rfl
  rw [hcounts]
  refine abs_sub_le_of_roundings (Binary64.abs_sub_error hx hy hfinite)
    (Binary64.abs_mul_error_le hproduct) (Binary64.abs_whole_error hi) ?_
  have hfew : |i| ≤ 2 ^ 31 := abs_le.mpr ⟨by omega, by omega⟩
  exact_mod_cast hfew

/-- From the first place on the distance of every move fits. -/
def FitsAll (g : Gearing) : Binary64 → List (Binary64 × Binary64) → Prop
  | _, [] => True
  | place, (height, _) :: moves => g.Fits (height - place) ∧ g.FitsAll height moves

/-- Whether the distances fit can be decided move by move. -/
instance decidableFitsAll (g : Gearing) :
    (place : Binary64) → (moves : List (Binary64 × Binary64)) → Decidable (g.FitsAll place moves)
  | _, [] => .isTrue trivial
  | place, (height, _) :: moves =>
    have := g.decidableFitsAll height moves
    inferInstanceAs (Decidable (g.Fits (height - place) ∧ g.FitsAll height moves))

end Gearing

/-! ### Moves to heights -/

namespace Axis

/-- Moves to one height after another, each with the highest place that it may lead to. -/
def climb : List (Binary64 × Binary64) → Act Unit
  | [] => pure ()
  | (height, highest) :: moves => do
    moveToHeight height highest
    climb moves

/-- The height after some moves. -/
def heightAfter (place : Binary64) (moves : List (Binary64 × Binary64)) : Binary64 :=
  moves.foldl (fun _ move => move.1) place

/-- How many counts the encoder is away from the height. -/
def drift (a : Axis) : ℚ := a.motor.encoder.toInt - a.position.value * a.setup.degreesPerMm.value

variable {a : Axis} {height highest : Binary64}

theorem encoder_command {c : MotorCommand} (h : (command c a).ending = .done ()) :
    (command c a).state.motor.encoder.toInt =
      (DeviceEvent.obeyed c).leavesEncoder a.motor.encoder.toInt := by
  rw [command_apply] at h ⊢
  exact Motor.encoder_of_issue_done h

/-- A turn that succeeds turns the motor by its counts. -/
theorem encoder_turn {speed counts : Int32} (h : (turn speed counts a).ending = .done ()) :
    (turn speed counts a).state.motor.encoder.toInt =
      a.motor.encoder.toInt + counts.toInt := by
  unfold turn at h ⊢
  by_cases h0 : counts = 0
  · rw [if_neg (not_not_intro h0), h0]
    exact (add_zero _).symm
  · rw [if_pos h0] at h ⊢
    obtain ⟨_, hspeed, hrest⟩ := exists_of_bind_done h
    obtain ⟨_, hturn, hawait⟩ := exists_of_bind_done hrest
    rw [bind_of_done hspeed, bind_of_done hturn]
    dsimp only
    rw [encoder_command hawait, encoder_command hturn, encoder_command hspeed]
    rfl

/-- A move to a height that succeeds was allowed, and is a turn and the new position. -/
theorem moveToHeight_of_done (hspeed : a.setup.speed.isPositive)
    (h : (moveToHeight height highest a).ending = .done ()) :
    height.isFinite ∧ (moveToHeight height highest a).state.position = height ∧
      (moveToHeight height highest a).state.motor.encoder.toInt =
        a.motor.encoder.toInt + (a.heightCounts height).toInt := by
  by_cases hallowed : AllowedHeight height highest
  · have hfinite := hallowed.isFinite
    rw [moveToHeight_eq hspeed hallowed] at h ⊢
    obtain ⟨_, hturn, -⟩ := exists_of_bind_done h
    rw [bind_of_done hturn]
    exact ⟨hfinite, rfl, encoder_turn hturn⟩
  · rw [moveToHeight_of_refused hallowed] at h
    cases h

theorem staysSimulated_moveToHeight (height highest : Binary64) (a : Axis) :
    StaysSimulated a (moveToHeight height highest a).trace
      (moveToHeight height highest a).state :=
  steady_staysSimulated.moveToHeight (fun _ => trivial) a

/-- The axis is fit for the moves: its motor has as many counts as degrees to a turn, it is at
a finite height, and none of the moves is too long for the encoder. -/
structure CanClimb (a : Axis) (moves : List (Binary64 × Binary64)) : Prop where
  speed : a.setup.speed.isPositive
  ratio : a.setup.degreesPerMm.isFinite
  countsPerTurn : a.countsPerTurn = 360
  position : a.position.isFinite
  fits : a.gearing.FitsAll a.position moves

/-- **One move adds to the drift half a count at most**, and `2⁻²⁰` of one. -/
theorem CanClimb.step {moves : List (Binary64 × Binary64)}
    (ha : a.CanClimb ((height, highest) :: moves))
    (h : (moveToHeight height highest a).ending = .done ()) :
    (moveToHeight height highest a).state.CanClimb moves ∧
      |(moveToHeight height highest a).state.drift| ≤ |a.drift| + (1 / 2 + 1 / 2 ^ 20) := by
  obtain ⟨hfinite, hposition, hencoder⟩ := moveToHeight_of_done ha.speed h
  have hstays := staysSimulated_moveToHeight height highest a
  obtain ⟨hfits, hrest⟩ := ha.fits
  have hcounts : |((a.heightCounts height).toInt : ℚ) -
      (height.value - a.position.value) * a.setup.degreesPerMm.value| ≤ 1 / 2 + 1 / 2 ^ 20 :=
    Gearing.abs_counts_error ha.countsPerTurn hfinite ha.position hfits
  constructor
  · exact
      { speed := hstays.setup ▸ ha.speed
        ratio := hstays.setup ▸ ha.ratio
        countsPerTurn := hstays.countsPerTurn.trans ha.countsPerTurn
        position := by
          rw [hposition]
          exact hfinite
        fits := by
          unfold gearing
          rw [hstays.setup, hstays.countsPerTurn, hposition]
          exact hrest }
  · -- the drift grows by what the counts of this move miss its distance by
    have hdrift : (moveToHeight height highest a).state.drift = a.drift +
        ((a.heightCounts height).toInt -
          (height.value - a.position.value) * a.setup.degreesPerMm.value) := by
      unfold drift
      rw [hencoder, hposition, hstays.setup]
      push_cast
      ring
    rw [hdrift]
    exact (abs_add_le _ _).trans (by linarith)

/-- **A climb adds to the drift half a count for each move at most**, and `2⁻²⁰` of one. -/
theorem CanClimb.run {moves : List (Binary64 × Binary64)} (ha : a.CanClimb moves)
    (h : (climb moves a).ending = .done ()) :
    (climb moves a).state.CanClimb [] ∧
      (climb moves a).state.position = heightAfter a.position moves ∧
      |(climb moves a).state.drift| ≤ |a.drift| + moves.length * (1 / 2 + 1 / 2 ^ 20) := by
  induction moves generalizing a with
  | nil =>
    have hstay : climb [] a = ⟨[], a, .done ()⟩ := rfl
    rw [hstay]
    exact ⟨ha, rfl, by simp⟩
  | cons move moves ih =>
    obtain ⟨height, highest⟩ := move
    obtain ⟨_, hfirst, hrest⟩ := exists_of_bind_done h
    obtain ⟨hnext, hstep⟩ := ha.step hfirst
    obtain ⟨hend, hposition, hrun⟩ := ih hnext hrest
    have hsplit : climb ((height, highest) :: moves) a =
        ((moveToHeight height highest) >>= fun _ => climb moves) a := rfl
    rw [hsplit, bind_of_done hfirst]
    refine ⟨hend, ?_, ?_⟩
    · rw [hposition, (moveToHeight_of_done ha.speed hfirst).2.1]
      rfl
    · rw [List.length_cons]
      push_cast
      linarith

/-- Rounding the height to counts as well adds another half. -/
theorem CanClimb.abs_encoder_sub_le {bound : ℚ} (ha : a.CanClimb []) (hdrift : |a.drift| ≤ bound)
    (hbound : bound ≤ 2 ^ 32 + 2 ^ 13) :
    |((a.motor.encoder.toInt - (a.toCounts a.position).toInt : Int) : ℚ)| ≤
      bound + (1 / 2 + 1 / 2 ^ 20) := by
  have hlow := Int32.le_toInt a.motor.encoder
  have hhigh := Int32.toInt_lt a.motor.encoder
  have hencoder : |(a.motor.encoder.toInt : ℚ)| ≤ 2 ^ 31 := by
    have : |a.motor.encoder.toInt| ≤ 2 ^ 31 := abs_le.mpr ⟨by omega, by omega⟩
    exact_mod_cast this
  have hsize : |a.position.value * a.setup.degreesPerMm.value| ≤ 2 ^ 31 + bound := by
    have hsize := abs_le_add_abs_sub (a.position.value * a.setup.degreesPerMm.value)
      a.motor.encoder.toInt
    unfold drift at hdrift
    linarith
  -- so the counts of the height are not lost to an overflow, though they may be too many
  have hfinite : (a.gearing.toDegrees a.position).isFinite :=
    Binary64.isFinite_mul ha.position ha.ratio (hsize.trans (by linarith))
  obtain ⟨i, hi⟩ := Binary64.whole?_of_isFinite hfinite
  have hcounts : (a.toCounts a.position).toInt = max (-2147483648) (min 2147483647 i) :=
    Gearing.toInt_toCounts ha.countsPerTurn hi
  have hclamp : |((a.motor.encoder.toInt - (a.toCounts a.position).toInt : Int) : ℚ)| ≤
      |(a.motor.encoder.toInt : ℚ) - i| := by
    rw [hcounts]
    exact_mod_cast abs_sub_max_min_le (i := i) hlow (by omega)
  exact hclamp.trans (abs_sub_counts_le hdrift (Binary64.abs_mul_error_le hfinite)
    (Binary64.abs_whole_error hi) (hsize.trans (by linarith)))

/-- A whole number of counts is bounded by a whole number of half counts. -/
theorem two_mul_abs_le {d : Int} {n : Nat} (h : |(d : ℚ)| ≤ n * (1 / 2 + 1 / 2 ^ 20)) :
    2 * |d| ≤ (n + n / 2 ^ 19 : Nat) := by
  have hscaled : (2 : ℚ) ^ 20 * |(d : ℚ)| ≤ n * (2 ^ 19 + 1) := by linarith
  have hcounts : (2 : Int) ^ 20 * |d| ≤ n * (2 ^ 19 + 1) := by exact_mod_cast hscaled
  omega

/-- **How far a climb leads the encoder astray.**  Take a usable vertical axis at height zero
and with its encoder at zero, whose motor has 360 counts to a turn.  After a climb that succeeds
and of which no move is too long for the encoder, the axis is at the last height, and the
encoder differs from the counts of that height by half a count for each move and another half at
most, and one half more for every 2¹⁹ of these. -/
theorem encoder_climb_le (hsetup : a.setup.fault? .z = none) (hturn : a.countsPerTurn = 360)
    (hencoder : a.motor.encoder = 0) (hplace : a.position = 0)
    {moves : List (Binary64 × Binary64)} (hfits : a.gearing.FitsAll 0 moves)
    (hdone : (climb moves a).ending = .done ()) :
    (climb moves a).state.position = heightAfter 0 moves ∧
      2 * |(climb moves a).state.motor.encoder.toInt -
          ((climb moves a).state.toCounts (heightAfter 0 moves)).toInt| ≤
        (moves.length + 1 + (moves.length + 1) / 2 ^ 19 : Nat) := by
  have hclimb : a.CanClimb moves :=
    { speed := AxisSetup.speed_isPositive hsetup
      ratio := AxisSetup.ratio_isFinite hsetup
      countsPerTurn := hturn
      position := hplace ▸ Binary64.isFinite_zero
      fits := hplace.symm ▸ hfits }
  obtain ⟨hend, hposition, hdrift⟩ := hclimb.run hdone
  have hstart : a.drift = 0 := by
    unfold drift
    rw [hencoder, hplace, Binary64.value_zero, zero_mul, sub_zero]
    rfl
  rw [hplace] at hposition
  rw [hstart, abs_zero, zero_add] at hdrift
  refine ⟨hposition, two_mul_abs_le ?_⟩
  rw [← hposition]
  push_cast
  by_cases hfew : moves.length < 2 ^ 33
  · have hlength : (moves.length : ℚ) ≤ 2 ^ 33 := by exact_mod_cast hfew.le
    have hcounts := hend.abs_encoder_sub_le hdrift (by linarith)
    push_cast at hcounts
    linarith
  · -- the encoder and the counts are 32 bits wide, so of that many moves nothing is to be shown
    have hlength : (2 : ℚ) ^ 33 ≤ moves.length := by exact_mod_cast not_lt.mp hfew
    have hwidth := abs_toInt_sub_toInt_le (climb moves a).state.motor.encoder
      ((climb moves a).state.toCounts (climb moves a).state.position)
    have hwidth : |((climb moves a).state.motor.encoder.toInt : ℚ) -
        ((climb moves a).state.toCounts (climb moves a).state.position).toInt| ≤ 2 ^ 32 := by
      exact_mod_cast hwidth
    linarith

/-- Five layers, of which each is less than half a count on the standard printer. -/
def thinLayers : List (Binary64 × Binary64) :=
  [(0.002, 150), (0.004, 150), (0.006, 150), (0.008, 150), (0.01, 150)]

/-- The vertical axis of the standard printer stays where it is while the thin layers are
climbed, two counts below the last of them. -/
theorem encoder_climb_le_thinLayers :
    (fresh PrinterSetup.standard.z).setup.fault? .z = none ∧
      (fresh PrinterSetup.standard.z).gearing.FitsAll 0 thinLayers ∧
      (climb thinLayers (fresh PrinterSetup.standard.z)).ending = .done () ∧
      (climb thinLayers (fresh PrinterSetup.standard.z)).state.position = 0.01 ∧
      2 * |(climb thinLayers (fresh PrinterSetup.standard.z)).state.motor.encoder.toInt -
          ((climb thinLayers (fresh PrinterSetup.standard.z)).state.toCounts 0.01).toInt| ≤ 6 := by
  have hsetup : (fresh PrinterSetup.standard.z).setup.fault? .z = none := by decide +kernel
  have hfits : (fresh PrinterSetup.standard.z).gearing.FitsAll 0 thinLayers := by decide +kernel
  have hdone : (climb thinLayers (fresh PrinterSetup.standard.z)).ending = .done () := by
    decide +kernel
  obtain ⟨hposition, hdrift⟩ := encoder_climb_le hsetup rfl rfl rfl hfits hdone
  exact ⟨hsetup, hfits, hdone, hposition, hdrift⟩

/-- A climb may lead the encoder further astray than by one count: it is at zero after the thin
layers, and the counts of the last layer are two. -/
theorem not_encoder_climb_within_one :
    ¬∀ (a : Axis) (moves : List (Binary64 × Binary64)), a.setup.fault? .z = none →
      a.countsPerTurn = 360 → a.motor.encoder = 0 → a.position = 0 → a.gearing.FitsAll 0 moves →
        (climb moves a).ending = .done () →
          |(climb moves a).state.motor.encoder.toInt -
            ((climb moves a).state.toCounts (heightAfter 0 moves)).toInt| ≤ 1 := by
  intro hone
  have hdrift := hone (fresh PrinterSetup.standard.z) thinLayers (by decide +kernel) rfl rfl rfl
    (by decide +kernel) (by decide +kernel)
  have hencoder : (climb thinLayers (fresh PrinterSetup.standard.z)).state.motor.encoder = 0 := by
    decide +kernel
  have hcounts : (climb thinLayers (fresh PrinterSetup.standard.z)).state.toCounts
      (heightAfter 0 thinLayers) = 2 := by
    decide +kernel
  rw [hencoder, hcounts] at hdrift
  exact absurd hdrift (by decide)

end Axis

/-! ### Climbs that lead that far astray -/

namespace Binary64

/-- Half of one, in units. -/
def half : Nat := Nat.pow 2 1073

theorem representable_mul_half {n : Nat} (hn : n < 2 ^ 53) : Representable (n * half) := by
  have hexp : 1073 ≤ 2045 := by decide
  unfold half
  revert hexp
  generalize 1073 = e
  exact representable_mul_pow hn

theorem two_mul_half : 2 * half = one := by decide +kernel

end Binary64

namespace Axis

/-- The vertical axis of the standard printer with a millimetre for half a count. -/
def coarse : Axis := fresh { PrinterSetup.standard.z with degreesPerMm := 0.5 }

/-- A whole number of millimetres. -/
def millimetres (k : Nat) : Binary64 := Binary64.ofRatio false k 1

/-- A climb in `n` steps of a millimetre, from `k` millimetres on. -/
def ladder : (k n : Nat) → List (Binary64 × Binary64)
  | _, 0 => []
  | k, n + 1 => (millimetres (k + 1), millimetres (k + 1)) :: ladder (k + 1) n

variable {k n : Nat}

theorem exists_millimetres (hk : k < 2 ^ 53) : ∃ h : Binary64.Representable (k * Binary64.one),
    millimetres k = .finite false (k * Binary64.one) h := Binary64.ofRatio_natCast false hk

/-- The steps are a millimetre long. -/
theorem millimetres_sub (hk : k + 1 < 2 ^ 53) :
    millimetres (k + 1) - millimetres k = millimetres 1 := by
  obtain ⟨h, heq⟩ := exists_millimetres (k := k) (by omega)
  obtain ⟨h', heq'⟩ := exists_millimetres hk
  obtain ⟨h'', heq''⟩ := exists_millimetres (k := 1) (by decide)
  rw [heq, heq', heq'']
  exact Binary64.sub_of_eq_add h' h h'' (Nat.add_mul k 1 _)

theorem coarse_ratio : coarse.setup.degreesPerMm =
    .finite false (1 * Binary64.half) (Binary64.representable_mul_half (by decide)) := by
  decide +kernel

/-- A number of millimetres is half as many counts, rounded up. -/
theorem coarse_toCounts (hn : n < 2 ^ 31) :
    (coarse.toCounts (millimetres n)).toInt = (n + 1) / 2 := by
  obtain ⟨h, heq⟩ := exists_millimetres (k := n) (by omega)
  have hrep : Binary64.Representable (n * Binary64.half) :=
    Binary64.representable_mul_half (by omega)
  have hdegrees : coarse.gearing.toDegrees (millimetres n) =
      .finite false (n * Binary64.half) hrep := by
    have hregroup : n * Binary64.one * (1 * Binary64.half) =
        n * Binary64.half * Binary64.one := by ring
    have hratio : coarse.gearing.degreesPerMm = coarse.setup.degreesPerMm := rfl
    unfold Gearing.toDegrees
    rw [hratio, coarse_ratio, heq, Binary64.mul_finite, hregroup,
      Binary64.ofUnits_mul _ Binary64.one_pos hrep]
    rfl
  have hwhole : (coarse.gearing.toDegrees (millimetres n)).whole? =
      some (((n + 1) / 2 : Nat) : Int) := by
    have hround : Binary64.wholeUnits (n * Binary64.half) = (n + 1) / 2 := by
      have hregroup : 2 * (n * Binary64.half) + Binary64.one = (n + 1) * Binary64.one := by
        rw [← Binary64.two_mul_half]
        ring
      unfold Binary64.wholeUnits
      rw [hregroup]
      exact Nat.mul_div_mul_right _ _ Binary64.one_pos
    rw [hdegrees, Binary64.whole?_finite, hround]
    rfl
  have hcounts : (coarse.toCounts (millimetres n)).toInt =
      max (-2147483648) (min 2147483647 (((n + 1) / 2 : Nat) : Int)) :=
    Gearing.toInt_toCounts rfl hwhole
  rw [hcounts]
  omega

/-- The axis is `k` millimetres up, and its motor was turned by a count for each of them. -/
structure Climbed (k : Nat) (a : Axis) : Prop where
  obeys : a.motor.Obeys
  setup : a.setup = coarse.setup
  countsPerTurn : a.countsPerTurn = 360
  encoder : a.motor.encoder.toInt = k
  position : a.position = millimetres k

theorem allowedHeight_millimetres (hk : k < 2 ^ 53) :
    AllowedHeight (millimetres k) (millimetres k) := by
  obtain ⟨h, heq⟩ := exists_millimetres hk
  have hrank : (millimetres k).rank = some ((k * Binary64.one : Nat) : Int) := by
    rw [heq]
    rfl
  have hfinite : (millimetres k).isFinite = true := by
    rw [heq]
    rfl
  have hzero : (millimetres k).less 0 = false := by
    unfold Binary64.less
    rw [Binary64.compare_of_rank hrank Binary64.rank_zero]
    exact decide_eq_false (by omega)
  have hself : (millimetres k).less (millimetres k) = false := by
    unfold Binary64.less
    rw [Binary64.compare_of_rank hrank hrank]
    exact decide_eq_false (lt_irrefl _)
  unfold AllowedHeight
  rw [hfinite, hzero, hself]
  rfl

/-- A step of a millimetre turns the motor by a whole count. -/
theorem Climbed.step (ha : a.Climbed k) (hk : k + 1 < 2 ^ 31) :
    (moveToHeight (millimetres (k + 1)) (millimetres (k + 1)) a).ending = .done () ∧
      (moveToHeight (millimetres (k + 1)) (millimetres (k + 1)) a).state.Climbed (k + 1) := by
  have hspeed : a.setup.speed.isPositive := by
    rw [ha.setup]
    decide +kernel
  have hcounts : (a.heightCounts (millimetres (k + 1))).toInt = 1 := by
    have hgearing : a.gearing = coarse.gearing := by
      unfold gearing
      rw [ha.setup, ha.countsPerTurn]
      rfl
    unfold heightCounts toCounts
    rw [ha.position, millimetres_sub (by omega), hgearing]
    exact coarse_toCounts (n := 1) (by decide)
  have hroom : a.HasRoom (a.heightCounts (millimetres (k + 1))) := by
    rw [hasRoom_iff, ha.encoder, hcounts]
    unfold FitsEncoder
    omega
  have hallowed := allowedHeight_millimetres (k := k + 1) (by omega)
  have hdone := ((moveToHeight_of_obeys ha.obeys hspeed hallowed).1 hroom).1
  obtain ⟨-, hposition, hencoder⟩ := moveToHeight_of_done hspeed hdone
  have hstays := staysSimulated_moveToHeight (millimetres (k + 1)) (millimetres (k + 1)) a
  refine ⟨hdone, ?_⟩
  exact
    { obeys := steady_obeys.moveToHeight (fun _ => trivial) a ha.obeys
      setup := hstays.setup.trans ha.setup
      countsPerTurn := hstays.countsPerTurn.trans ha.countsPerTurn
      encoder := by
        rw [hencoder, ha.encoder, hcounts]
        rfl
      position := hposition }

theorem Climbed.run (ha : a.Climbed k) (hn : k + n < 2 ^ 31) :
    (climb (ladder k n) a).ending = .done () ∧
      (climb (ladder k n) a).state.Climbed (k + n) := by
  induction n generalizing k a with
  | zero => exact ⟨rfl, ha⟩
  | succ n ih =>
    obtain ⟨hfirst, hnext⟩ := ha.step (by omega)
    obtain ⟨hdone, hend⟩ := ih hnext (by omega)
    have hsplit : climb (ladder k (n + 1)) a =
        (moveToHeight (millimetres (k + 1)) (millimetres (k + 1)) >>= fun _ =>
          climb (ladder (k + 1) n)) a := rfl
    have hsum : k + (n + 1) = k + 1 + n := by omega
    rw [hsplit, bind_of_done hfirst, hsum]
    exact ⟨hdone, hend⟩

theorem fitsAll_ladder (hn : k + n < 2 ^ 53) :
    coarse.gearing.FitsAll (millimetres k) (ladder k n) := by
  induction n generalizing k with
  | zero => trivial
  | succ n ih =>
    have hone : coarse.gearing.Fits (millimetres 1) := by decide +kernel
    refine ⟨?_, ih (by omega)⟩
    rw [millimetres_sub (by omega)]
    exact hone

/-- **A climb may well lead the encoder that far astray.**  On the coarse axis each of `n` steps
is rounded up to a whole count, so the encoder ends `n / 2` counts above those of the height. -/
theorem encoder_climb_ladder (hn : n < 2 ^ 31) :
    coarse.gearing.FitsAll 0 (ladder 0 n) ∧
      (climb (ladder 0 n) coarse).ending = .done () ∧
      (climb (ladder 0 n) coarse).state.position = millimetres n ∧
      (climb (ladder 0 n) coarse).state.motor.encoder.toInt -
          ((climb (ladder 0 n) coarse).state.toCounts (millimetres n)).toInt = n / 2 := by
  have hzero : millimetres 0 = 0 := rfl
  have hstart : coarse.Climbed 0 :=
    { obeys := fun _ _ => rfl
      setup := rfl
      countsPerTurn := rfl
      encoder := rfl
      position := hzero.symm }
  have hfits := fitsAll_ladder (k := 0) (n := n) (by omega)
  rw [hzero] at hfits
  obtain ⟨hdone, hend⟩ := hstart.run (n := n) (by omega)
  rw [Nat.zero_add] at hend
  have hgearing : (climb (ladder 0 n) coarse).state.gearing = coarse.gearing := by
    unfold gearing
    rw [hend.setup, hend.countsPerTurn]
    rfl
  refine ⟨hfits, hdone, hend.position, ?_⟩
  have hcounts := coarse_toCounts hn
  unfold toCounts at hcounts ⊢
  rw [hgearing, hend.encoder, hcounts]
  omega

end Axis

end TachoPrint
