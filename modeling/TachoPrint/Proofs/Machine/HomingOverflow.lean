import TachoPrint.Proofs.Machine.HomingProtocol
import TachoPrint.Proofs.Motion.Gearing

/-!
# Homing speeds without an opposite

The homing speed is rounded to counts, and what is too low becomes the lowest count.  That one
has no opposite.  The search for the endstop needs the opposite of its speed for the way back,
and for the way there as well if the motor is inverted, so there its arithmetic has no answer:
before the motor is told anything, or when it runs and the endstop is pressed.  With a timeout
of 63 bits and a motor that has room for the offset move nothing else crashes.

## Main definitions

* `Axis.NeedsOpposite` — the search gets to where it needs the opposite of its speed.

## Main results

* `Axis.seek_crashed_iff` — the search crashes exactly where a speed has no opposite.
* `Axis.seekFits_of_forwards` — an axis that is not geared backwards has both speeds.
* `Axis.home_crashed_iff` — **homing crashes exactly where the search does.**
-/

namespace TachoPrint

open TachoPrint.Action

/-- A turn that the encoder has room for does not crash, whether the motor obeys or not. -/
theorem Motor.issue_turn_ne_crashed {m : Motor} {counts : Int32}
    (hroom : (addCounts? m.encoder counts).isSome) :
    (issue (.turn counts) m).ending ≠ .crashed := by
  obtain ⟨sum, hsum⟩ := Option.isSome_iff_exists.mp hroom
  unfold issue
  dsimp only
  split
  · exact fun h => nomatch h
  · rw [obey?_turn, hsum]
    exact fun h => nomatch h

namespace Axis

variable {a : Axis} {e : Endstop} {polling : Polling}

/-! ### What does not crash -/

theorem command_ne_crashed {c : MotorCommand} (hc : c.call ≠ .turn) (a : Axis) :
    (command c a).ending ≠ .crashed := by
  rw [command_apply, Motor.issue_eq a.motor hc]
  exact endingOf_ne_crashed _

/-- Only turns can crash. -/
theorem tell_ne_crashed {cs : List MotorCommand} (hcs : ∀ c ∈ cs, c.call ≠ .turn) (a : Axis) :
    (tell cs a).ending ≠ .crashed := by
  induction cs generalizing a with
  | nil => exact fun h => nomatch h
  | cons c cs ih =>
    obtain ⟨hc, hcs⟩ := List.forall_mem_cons.mp hcs
    rw [← List.singleton_append, tell_append, tell_singleton]
    exact bind_ne_crashed (command_ne_crashed hc a) fun _ _ => ih hcs _

theorem turn_ne_crashed {counts : Int32} (hroom : a.HasRoom counts) (speed : Int32) :
    (turn speed counts a).ending ≠ .crashed := by
  unfold turn
  by_cases h0 : counts = 0
  · rw [if_neg (not_not_intro h0)]
    exact fun h => nomatch h
  rw [if_pos h0]
  have hcall : (MotorCommand.speed speed).call ≠ .turn := by simp [MotorCommand.call]
  apply bind_ne_crashed (command_ne_crashed hcall a)
  intro _ hspeed
  refine bind_ne_crashed ?_ fun _ _ => command_ne_crashed (by decide) _
  -- the motor has taken the speed, and the encoder is still where it was
  rw [command_apply] at hspeed ⊢
  have hencoder : (Motor.issue (.speed speed) a.motor).state.encoder = a.motor.encoder :=
    Int32.toInt_inj.mp (Motor.encoder_of_issue_done hspeed)
  rw [command_apply]
  apply Motor.issue_turn_ne_crashed
  rw [hencoder]
  exact hroom.resolve_left h0

/-- The orders of setting out hold no turn. -/
theorem setOut_ne_crashed (speed : Int32) (a : Axis) :
    (tell [.speed speed, .run] a).ending ≠ .crashed :=
  tell_ne_crashed (by simp [MotorCommand.call]) a

/-! ### The search -/

/-- The search gets to where it needs the opposite of the homing speed: at once if the motor is
inverted, and otherwise when the motor runs and the endstop is pressed. -/
def NeedsOpposite (a : Axis) (polling : Polling) (e : Endstop) : Prop :=
  a.setup.homing.invertMotor = true ∨
    (a.motor.Executes [.speed (a.toCounts a.setup.homing.speed), .run] ∧ ∃ first,
      Endstop.MeetsInTime e.readings a.setup.homing.invertSensor polling e.reads first)

/-- With a speed in either direction the search does not crash. -/
theorem seek_ne_crashed (htimeout : polling.timeout.toNat ≤ 9223372036854775807)
    (hfits : a.SeekFits) : (seek polling a).ending ≠ .crashed := by
  obtain ⟨speed, back, hspeed, hback⟩ := hfits.exists_speeds
  rw [seek_eq_of_speeds hspeed hback]
  apply bind_ne_crashed (setOut_ne_crashed speed a)
  intro _ _
  apply bind_ne_crashed (awaitEndstop_ne_crashed htimeout _ _)
  intro _ _
  apply bind_ne_crashed (setOut_ne_crashed back _)
  intro _ _
  apply bind_ne_crashed (awaitEndstop_ne_crashed htimeout _ _)
  intro _ _
  exact tell_ne_crashed (by simp [MotorCommand.call]) _

/-- **The search crashes exactly where it needs the opposite of a speed without one.** -/
theorem seek_crashed_iff (htimeout : polling.timeout.toNat ≤ 9223372036854775807)
    (he : a.endstop = some e) :
    (seek polling a).ending = .crashed ↔ ¬a.SeekFits ∧ a.NeedsOpposite polling e := by
  by_cases hfits : a.SeekFits
  · exact iff_of_false (seek_ne_crashed htimeout hfits) fun h => h.1 hfits
  rw [and_iff_right hfits]
  have hlowest : a.toCounts a.setup.homing.speed = Int32.minValue := Decidable.not_not.mp hfits
  have hnone : negCounts? Int32.minValue = none := if_pos rfl
  unfold NeedsOpposite
  rw [hlowest]
  cases hinvert : a.setup.homing.invertMotor with
  | true =>
    -- there is no speed for the way there
    have hspeed : a.seekSpeed? = none := by
      unfold seekSpeed?
      rw [hinvert, hlowest]
      exact hnone
    rw [seek_eq, get_bind_apply, hspeed]
    exact iff_of_true rfl (.inl rfl)
  | false =>
    -- there is none for the way back, if the search gets there
    have hspeed : a.seekSpeed? = some Int32.minValue := by
      unfold seekSpeed?
      rw [hinvert, hlowest]
      rfl
    have he' : ({ a with motor := a.motor.executed [.speed Int32.minValue, .run] } : Axis).endstop =
        some e := he
    rw [seek_eq_of_speed hspeed, hnone,
      tell_bind_ending_iff (o := .crashed) (by simp) fun _ => setOut_ne_crashed _ a,
      await_bind_ending_iff (o := .crashed) he' (by simp) fun _ =>
        awaitEndstop_ne_crashed htimeout _ _]
    constructor
    · rintro ⟨hout, first, hfirst, -⟩
      exact .inr ⟨hout, first, hfirst⟩
    · rintro (hfalse | ⟨hout, first, hfirst⟩)
      · cases hfalse
      · exact ⟨hout, first, hfirst, rfl⟩

/-- An axis that is not geared backwards has a homing speed in either direction. -/
theorem seekFits_of_forwards {name : AxisName} (hsetup : a.setup.fault? name = none)
    (hforwards : a.gearing.reverses = false) : a.SeekFits := by
  have hpositive := AxisSetup.homingSpeed_isPositive hsetup
  have hnonneg : 0 ≤ (a.toCounts a.setup.homing.speed).toInt := by
    apply Gearing.toCounts_nonneg
    rw [Binary64.negative_of_isPositive hpositive, hforwards]
    rfl
  intro hlowest
  rw [hlowest] at hnonneg
  exact absurd hnonneg (by decide)

/-! ### Homing -/

/-- The search keeps the room for the offset move. -/
theorem offsetFits_seek (hs : (seek polling a).ending ≠ .crashed) :
    (seek polling a).state.OffsetFits ↔ a.OffsetFits := by
  obtain ⟨hsetup, hcounts⟩ := steady_build.seek polling a
  unfold OffsetFits HasRoom
  rw [toCounts_of_build hsetup hcounts, hsetup, encoder_seek hs]

theorem finishHome_ne_crashed (hroom : a.OffsetFits) : (finishHome a).ending ≠ .crashed := by
  unfold finishHome
  refine bind_ne_crashed ?_ fun _ _ h => nomatch h
  rw [applyOffset_eq]
  exact turn_ne_crashed hroom _

/-- **Homing crashes exactly where the search needs the opposite of a speed without one**, if the
timeout has 63 bits and the encoder has room for the offset move. -/
theorem home_crashed_iff (htimeout : polling.timeout.toNat ≤ 9223372036854775807)
    (hroom : a.OffsetFits) :
    ((home polling a).ending = .crashed ↔
      ¬a.SeekFits ∧ ∃ e, a.endstop = some e ∧ a.NeedsOpposite polling e) ∧
    ∀ name, a.setup.fault? name = none → a.gearing.reverses = false →
      (home polling a).ending ≠ .crashed := by
  have hiff : (home polling a).ending = .crashed ↔
      ¬a.SeekFits ∧ ∃ e, a.endstop = some e ∧ a.NeedsOpposite polling e := by
    cases he : a.endstop with
    | none =>
      rw [home_of_no_endstop (by rw [he]; rfl)]
      simp
    | some e =>
      have hsome : a.endstop.isSome := by rw [he]; rfl
      have hseek := seek_crashed_iff htimeout he
      simp only [Option.some.injEq, exists_eq_left']
      rw [← hseek]
      cases hs : (seek polling a).ending with
      | done u =>
        rw [home_of_seek_done hsome hs]
        refine iff_of_false (finishHome_ne_crashed ?_) nofun
        exact (offsetFits_seek (by simp [hs])).mpr hroom
      | failed cause => rw [home_of_seek_failed hsome hs]
      | crashed => exact iff_of_true (home_of_seek_crashed hsome hs) rfl
  refine ⟨hiff, ?_⟩
  intro name hsetup hforwards hcrash
  exact (hiff.mp hcrash).1 (seekFits_of_forwards hsetup hforwards)

/-- An axis that is geared backwards, so steeply that its homing speed is the lowest count. -/
def backwards : Axis where
  setup :=
    { motorPort := .outA
      sensorPort := .in1
      degreesPerMm := -1e9
      homing := { invertMotor := false } }
  motor := { countsPerTurn := 360 }
  endstop := some .toggling
  countsPerTurn := 360
  position := 0

/-- The setup is without a fault and the motor obeys, yet homing crashes, and it leaves the motor
running. -/
theorem home_crashed_iff_backwards :
    backwards.setup.fault? .x = none ∧ backwards.OffsetFits ∧
      (home .standard backwards).ending = .crashed ∧
      (home .standard backwards).state.motor.running = true := by
  have hlowest : ¬backwards.SeekFits := by decide +kernel
  have hout : backwards.motor.Executes [.speed (backwards.toCounts backwards.setup.homing.speed),
      .run] := by decide +kernel
  have hfits : backwards.OffsetFits := by decide +kernel
  obtain ⟨hiff, -⟩ := home_crashed_iff (show Polling.standard.timeout.toNat ≤ _ by decide) hfits
  refine ⟨by decide +kernel, hfits, hiff.mpr ⟨hlowest, .toggling, rfl, .inr ⟨hout, 0, ?_⟩⟩, ?_⟩
  · decide +kernel
  · decide +kernel

/-- Homing does crash with a usable setup and a motor that obeys. -/
theorem not_home_ne_crashed : ¬∀ (name : AxisName) (a : Axis) (polling : Polling),
    a.setup.fault? name = none → polling.timeout.toNat ≤ 9223372036854775807 →
      a.motor.Obeys → a.OffsetFits → (home polling a).ending ≠ .crashed := by
  intro h
  exact h .x backwards .standard (by decide +kernel) (by decide) (fun _ _ => rfl)
    (by decide +kernel) (by decide +kernel)

end Axis

end TachoPrint
