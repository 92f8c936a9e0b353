import TachoPrint.Proofs.Machine.Steady
import TachoPrint.Proofs.Machine.Stop

/-!
# Homing an axis

An axis that is driven into its endstop is stopped again, also when the search fails.
The move by the homing offset that comes after the search is not cleaned up after: when
it fails, nothing stops the motor.

## Main definitions

* `Axis.SeekFits` — the search has a speed in either direction.
* `Axis.OffsetStarts` — homing gets as far as its offset move.

## Main results

* `Axis.home_of_seek_done`, `Axis.home_of_seek_failed` — homing by how its search ends.
* `Axis.eachStopped_run_home` — every run of the search is followed by a stop.
* `Axis.eachStopped_motion_home_iff`, `Axis.exists_turn_mem_home_iff` — every motion is
  followed by a stop exactly when homing did not get as far as its offset move.
-/

namespace TachoPrint

open TachoPrint.Action

namespace Axis

/-! ### What homing does not change -/

/-- Commands, polls and positions leave alone how an axis is built. -/
theorem steady_build : Steady (fun _ => True)
    fun a _ a' => a'.setup = a.setup ∧ a'.countsPerTurn = a.countsPerTurn where
  chains :=
    { nil := fun _ => ⟨rfl, rfl⟩
      append := fun h h' => ⟨h'.1.trans h.1, h'.2.trans h.2⟩ }
  command c a := by
    rw [command_apply]
    exact ⟨rfl, rfl⟩
  poll inverted polling a := by
    unfold awaitEndstop
    split <;> exact ⟨rfl, rfl⟩
  setPosition p _ a := ⟨rfl, rfl⟩

theorem toCounts_of_build {a b : Axis} (hs : b.setup = a.setup)
    (hc : b.countsPerTurn = a.countsPerTurn) (mm : Binary64) : b.toCounts mm = a.toCounts mm := by
  unfold toCounts gearing
  rw [hs, hc]

/-! ### Homing by how its search ends -/

variable {a : Axis} {polling : Polling}

@[simp] theorem home_of_no_endstop (he : a.endstop.isSome = false) :
    home polling a = ⟨[], { a with position := 0 }, .done ()⟩ := by
  unfold home
  rw [get_bind_apply, he]
  rfl

/-- The part of homing that comes after a search that found the endstop. -/
def finishHome : Act Unit := do
  applyOffset
  setPosition 0

theorem home_of_seek_done (he : a.endstop.isSome) (hs : (seek polling a).ending = .done ()) :
    home polling a = ⟨(seek polling a).trace ++ (finishHome (seek polling a).state).trace,
      (finishHome (seek polling a).state).state, (finishHome (seek polling a).state).ending⟩ := by
  unfold home
  rw [get_bind_apply, if_pos he, bind_of_done (attempt_of_done hs), attempt_trace, attempt_state]
  rfl

theorem home_of_seek_failed {e : DeviceError} (he : a.endstop.isSome)
    (hs : (seek polling a).ending = .failed e) :
    home polling a = ⟨(seek polling a).trace ++ [(seek polling a).state.motor.answer .stop],
      { (seek polling a).state with motor := (seek polling a).state.motor.after .stop },
      .failed e⟩ := by
  have hstop : ∀ b : Axis, ∃ r, attempt stop b =
      ⟨[b.motor.answer .stop], { b with motor := b.motor.after .stop }, .done r⟩ := by
    intro b
    simp only [attempt, stop, command_apply, Motor.issue_stop]
    cases b.motor.fault? .stop with
    | none => exact ⟨_, rfl⟩
    | some fault => exact ⟨_, rfl⟩
  -- the stop may fail as well, but what is reported is how the search failed
  obtain ⟨r, hr⟩ := hstop (seek polling a).state
  unfold home
  rw [get_bind_apply, if_pos he, bind_of_done (attempt_of_failed hs), attempt_trace, attempt_state]
  simp only
  rw [bind_of_done (congrArg Run.ending hr), hr]
  rfl

theorem home_of_seek_crashed (he : a.endstop.isSome) (hs : (seek polling a).ending = .crashed) :
    (home polling a).ending = .crashed := by
  unfold home
  rw [get_bind_apply, if_pos he, bind_of_crashed (attempt_of_crashed hs)]

/-- A search that does not crash has a speed. -/
theorem exists_seekSpeed (hs : (seek polling a).ending ≠ .crashed) :
    ∃ speed, a.seekSpeed? = some speed := by
  cases h : a.seekSpeed? with
  | some speed => exact ⟨speed, rfl⟩
  | none =>
    unfold seek at hs
    rw [get_bind_apply, h] at hs
    exact absurd rfl hs

/-- The search for the endstop has a speed in either direction. -/
def SeekFits (a : Axis) : Prop := a.toCounts a.setup.homing.speed ≠ Int32.minValue

instance (a : Axis) : Decidable a.SeekFits := inferInstanceAs (Decidable (_ ≠ _))

theorem SeekFits.exists_speeds (h : a.SeekFits) :
    ∃ speed back, a.seekSpeed? = some speed ∧ negCounts? speed = some back := by
  unfold SeekFits at h
  let speed := a.toCounts a.setup.homing.speed
  have hneg : negCounts? speed = some (-speed) := if_neg h
  have hback : negCounts? (-speed) = some speed := by
    grind
  unfold seekSpeed?
  dsimp only
  split
  · exact ⟨-speed, speed, hneg, hback⟩
  · exact ⟨speed, -speed, rfl, hneg⟩

/-! ### Commands of the search and of the offset move -/

/-- In the search every motion is followed by a stop, and nothing turns. -/
theorem eachStopped_seekScript (p : MotorCommand → Prop) (hp : ¬p .stop) (speed : Int32) :
    EachStopped p (seekScript speed) := EachStopped.append_stop [_, _, _, _] hp

theorem turn_not_mem_of_seek (hs : (seek polling a).ending ≠ .crashed) (n : Int32) :
    .turn n ∉ commandsOf (seek polling a).trace := by
  obtain ⟨speed, hspeed⟩ := exists_seekSpeed hs
  intro hn
  have := (follows_seek polling hspeed).mem hn
  simp [seekScript] at this

theorem applyOffset_eq (a : Axis) : applyOffset a =
    turn (a.toCounts a.setup.homing.speed.abs) (a.toCounts a.setup.homing.offset) a := by
  unfold applyOffset
  rw [get_bind_apply]

@[simp] theorem finishHome_trace (a : Axis) : (finishHome a).trace = (applyOffset a).trace := by
  unfold finishHome
  cases h : (applyOffset a).ending with
  | done _ =>
    rw [bind_of_done h]
    exact List.append_nil _
  | failed e => rw [bind_of_failed h]
  | crashed => rw [bind_of_crashed h]

/-- The commands of homing after a search that found the endstop. -/
theorem commandsOf_home_of_seek_done (he : a.endstop.isSome)
    (hs : (seek polling a).ending = .done ()) : ∃ speed,
    commandsOf (home polling a).trace =
      seekScript speed ++ commandsOf (applyOffset (seek polling a).state).trace := by
  have hne : (seek polling a).ending ≠ .crashed := by simp [hs]
  obtain ⟨speed, hspeed⟩ := exists_seekSpeed hne
  refine ⟨speed, ?_⟩
  simp [home_of_seek_done he hs, (follows_seek polling hspeed).2 () hs]

/-- The commands of homing after a search that failed. -/
theorem commandsOf_home_of_seek_failed {e : DeviceError} (he : a.endstop.isSome)
    (hs : (seek polling a).ending = .failed e) :
    commandsOf (home polling a).trace = commandsOf (seek polling a).trace ++ [.stop] := by
  rw [home_of_seek_failed he hs, commandsOf_append]
  simp [commandsOf]

theorem stop_not_mem_applyOffset (a : Axis) : .stop ∉ commandsOf (applyOffset a).trace := by
  intro hstop
  rw [applyOffset_eq] at hstop
  have hcall := call_of_mem_turn hstop
  simp [MotorCommand.call] at hcall

theorem run_not_mem_applyOffset (a : Axis) : .run ∉ commandsOf (applyOffset a).trace := by
  intro hrun
  rw [applyOffset_eq] at hrun
  have hcall := call_of_mem_turn hrun
  simp [MotorCommand.call] at hcall

/-- **Homing stops every run of the motor**, whatever fails. -/
theorem eachStopped_run_home (hc : (home polling a).ending ≠ .crashed) :
    EachStopped (· = .run) (commandsOf (home polling a).trace) := by
  cases he : a.endstop.isSome with
  | false =>
    rw [home_of_no_endstop he]
    exact eachStopped_nil
  | true =>
    cases hs : (seek polling a).ending with
    | done _ =>
      obtain ⟨speed, hcmd⟩ := commandsOf_home_of_seek_done he hs
      rw [hcmd]
      refine (eachStopped_seekScript _ (by simp) speed).append (eachStopped_of_forall_not ?_)
      rintro c hcmem rfl
      exact run_not_mem_applyOffset _ hcmem
    | failed e =>
      rw [commandsOf_home_of_seek_failed he hs]
      exact EachStopped.append_stop _ (by simp)
    | crashed => exact absurd (home_of_seek_crashed he hs) hc

/-- **Homing stops every motion of the motor exactly when it does not tell it to make
the offset move.** -/
theorem eachStopped_motion_home_iff (hc : (home polling a).ending ≠ .crashed) :
    EachStopped (·.isMotion) (commandsOf (home polling a).trace) ↔
      ∀ n, .turn n ∉ commandsOf (home polling a).trace := by
  have hstop : ¬MotorCommand.stop.isMotion := by decide
  cases he : a.endstop.isSome with
  | false =>
    rw [home_of_no_endstop he]
    simp
  | true =>
    cases hs : (seek polling a).ending with
    | done _ =>
      obtain ⟨speed, hcmd⟩ := commandsOf_home_of_seek_done he hs
      -- the search is settled, and nothing stops after it
      rw [hcmd, eachStopped_append_iff (eachStopped_seekScript _ hstop _)
        (stop_not_mem_applyOffset _)]
      constructor
      · intro h n hn
        rcases List.mem_append.mp hn with hn | hn
        · simp [seekScript] at hn
        · exact h _ hn rfl
      · intro h c hcmem hmotion
        cases c with
        | run => exact run_not_mem_applyOffset _ hcmem
        | turn n => exact h n (List.mem_append_right _ hcmem)
        | _ => cases hmotion
    | failed e =>
      rw [commandsOf_home_of_seek_failed he hs]
      apply iff_of_true (EachStopped.append_stop _ hstop)
      intro n hn
      rcases List.mem_append.mp hn with hn | hn
      · exact turn_not_mem_of_seek (by simp [hs]) n hn
      · simp at hn
    | crashed => exact absurd (home_of_seek_crashed he hs) hc

/-- A search without an endstop does not succeed. -/
theorem endstop_isSome_of_seek_done (hs : (seek polling a).ending = .done ()) :
    a.endstop.isSome := by
  unfold seek at hs
  rw [get_bind_apply] at hs
  obtain ⟨speed, -, hspeed⟩ := exists_of_bind_done hs
  obtain ⟨_, -, hrun⟩ := exists_of_bind_done hspeed
  obtain ⟨_, -, hrest⟩ := exists_of_bind_done hrun
  obtain ⟨_, hpoll, -⟩ := exists_of_bind_done hrest
  cases he : a.endstop with
  | some e => rfl
  | none =>
    simp [awaitEndstop, command_apply, finish, he] at hpoll

/-- Homing gets as far as its offset move: the search succeeds, there are counts to
move by, and the motor takes the speed. -/
def OffsetStarts (polling : Polling) (a : Axis) : Prop :=
  (seek polling a).ending = .done () ∧ a.toCounts a.setup.homing.offset ≠ 0 ∧
    (seek polling a).state.motor.fails .speed = false

/-- The motor is told to make the offset move exactly when homing gets that far. -/
theorem exists_turn_mem_home_iff (hc : (home polling a).ending ≠ .crashed) :
    (∃ n, .turn n ∈ commandsOf (home polling a).trace) ↔ OffsetStarts polling a := by
  unfold OffsetStarts
  cases he : a.endstop.isSome with
  | false =>
    rw [home_of_no_endstop he]
    apply iff_of_false (by simp)
    intro hstarts
    rw [endstop_isSome_of_seek_done hstarts.1] at he
    cases he
  | true =>
    cases hs : (seek polling a).ending with
    | done _ =>
      obtain ⟨speed, hcmd⟩ := commandsOf_home_of_seek_done he hs
      rw [home_of_seek_done he hs] at hc
      have hoffset := ending_ne_crashed_of_bind hc
      rw [applyOffset_eq] at hoffset
      -- the condition is about the axis before its search, which keeps its setup
      have hturn := exists_turn_mem_iff hoffset
      obtain ⟨hsetup, hcounts⟩ := steady_build.seek polling a
      rw [← applyOffset_eq, hsetup, toCounts_of_build hsetup hcounts] at hturn
      rw [hcmd]
      simp only [true_and]
      rw [← hturn]
      constructor
      · rintro ⟨n, hn⟩
        rcases List.mem_append.mp hn with hn | hn
        · simp [seekScript] at hn
        · exact ⟨n, hn⟩
      · rintro ⟨n, hn⟩
        exact ⟨n, List.mem_append_right _ hn⟩
    | failed e =>
      rw [commandsOf_home_of_seek_failed he hs]
      refine iff_of_false ?_ fun h => by cases h.1
      rintro ⟨n, hn⟩
      rcases List.mem_append.mp hn with hn | hn
      · exact turn_not_mem_of_seek (by simp [hs]) n hn
      · simp at hn
    | crashed => exact absurd (home_of_seek_crashed he hs) hc

/-- An axis that moves back by two millimetres once it is homed; the motor makes the
move, and then the wait for its end fails. -/
def lostWait : Axis where
  setup :=
    { motorPort := .outA
      sensorPort := .in1
      degreesPerMm := 5
      homing := { offset := -2, invertMotor := true } }
  motor :=
    { countsPerTurn := 360
      faults := fun c k => if c = .await ∧ k = 1 then some ⟨"Lost"⟩ else none }
  endstop := some .toggling
  countsPerTurn := 360
  position := 0

/-- A failed homing that leaves its offset move without a stop. -/
theorem not_eachStopped_home_lostWait :
    (home .standard lostWait).ending = .failed (.motor ⟨"Lost"⟩) ∧
      commandsOf (home .standard lostWait).trace = [.speed (-50), .run, .speed 50, .run, .stop,
        .speed 50, .turn (-10), .await] ∧
      ¬EachStopped (·.isMotion) (commandsOf (home .standard lostWait).trace) := by
  refine ⟨by decide +kernel, by decide +kernel, by decide +kernel⟩

end Axis

end TachoPrint
