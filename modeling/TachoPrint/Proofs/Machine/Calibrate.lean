import TachoPrint.Proofs.Machine.Homing

/-!
# Homing several axes

The axes are homed one after the other, so what the motor of one axis is told is what a
single homing tells it.

## Main definitions

* `Head.Silent` — an action gives no command to a motor.
* `Head.HomingCommands` — the commands that one homing of an axis may give.
* `Head.OffsetStarts` — homing every axis gets as far as the offset move of an axis.

## Main results

* `Head.leaves_home` — each axis is homed at most once.
* `Head.exists_turn_mem_calibrate_iff` — when the offset move of an axis is made.
* `Head.stopped_after_failed_homing` — **a failed homing leaves a motor without a stop
  exactly when it got as far as the offset move of its axis.**
-/

namespace TachoPrint

open TachoPrint.Action

namespace Head

/-! ### Homing several axes -/

/-- The action gives no command to the motor of the joint. -/
def Silent {α : Type} (j : Joint) (x : Act α) : Prop := Keeps (fun _ t _ => commandsAt j t = []) x

theorem chains_silent (j : Joint) :
    Chains fun (_ : Head) (t : List Event) (_ : Head) => commandsAt j t = [] where
  nil _ := rfl
  append h h' := by simp [h, h']

theorem silent_onAxis {α : Type} {n : AxisName} {j : Joint} (hj : .axis n ≠ j) (act : Axis.Act α) :
    Silent j (onAxis n act) := by
  intro h
  simp only [onAxis, within]
  simp [hj]

theorem silent_homePlane {n : AxisName} {j : Joint} (hj : .axis n ≠ j) : Silent j (homePlane n) :=
  Keeps.get_bind fun _ => (silent_onAxis hj _).bind (chains_silent j) fun _ => silent_onAxis hj _

theorem silent_homeHeight {j : Joint} (hj : .axis .z ≠ j) : Silent j homeHeight :=
  Keeps.get_bind fun _ => silent_onAxis hj _

theorem Silent.optional {j : Joint} {x : Act Unit} (hx : Silent j x) (c : Prop) [Decidable c] :
    Silent j (if c then x else pure ()) := Keeps.optional (chains_silent j) hx c

section

variable {j : Joint} {α β : Type} {x : Act α} {f : α → Act β} {h : Head}

/-- Of a sequence whose second part is silent the joint sees the first part only. -/
theorem commandsAt_bind_of_silent (hf : ∀ a, Silent j (f a)) :
    commandsAt j ((x >>= f) h).trace = commandsAt j (x h).trace := by
  cases hend : (x h).ending with
  | done a => simp [hend, hf a (x h).state]
  | failed e => rw [bind_of_failed hend]
  | crashed => rw [bind_of_crashed hend]

/-- Of a sequence whose first part is silent the joint sees the second part, if that is
reached. -/
theorem mem_commandsAt_bind_iff {x : Act Unit} {f : Unit → Act β} (hx : Silent j x)
    {c : MotorCommand} : c ∈ commandsAt j ((x >>= f) h).trace ↔
      (x h).ending = .done () ∧ c ∈ commandsAt j (f () (x h).state).trace := by
  have hnil := hx h
  cases hend : (x h).ending with
  | done _ =>
    rw [bind_of_done hend, commandsAt_append, hnil, List.nil_append]
    simp
  | failed e =>
    rw [bind_of_failed hend, hnil]
    simp
  | crashed =>
    rw [bind_of_crashed hend, hnil]
    simp

variable {Q : List MotorCommand → Prop}

theorem leaves_of_silent_right (hx : Leaves (fun t => Q (commandsAt j t)) x)
    (hf : ∀ a, Silent j (f a)) : Leaves (fun t => Q (commandsAt j t)) (x >>= f) := by
  intro h hc
  rw [commandsAt_bind_of_silent hf]
  exact hx h (ending_ne_crashed_of_bind hc)

theorem leaves_of_silent_left (hQ : Q []) (hx : Silent j x)
    (hf : ∀ a, Leaves (fun t => Q (commandsAt j t)) (f a)) :
    Leaves (fun t => Q (commandsAt j t)) (x >>= f) := by
  intro h hc
  cases hend : (x h).ending with
  | done a =>
    rw [bind_of_done hend] at hc ⊢
    simp only [commandsAt_append, hx h, List.nil_append]
    exact hf a _ hc
  | failed e =>
    rw [bind_of_failed hend]
    simp only [hx h, hQ]
  | crashed =>
    rw [bind_of_crashed hend]
    simp only [hx h, hQ]

end

@[simp] theorem commandsAt_onAxis {α : Type} (n : AxisName) (act : Axis.Act α) (h : Head) :
    commandsAt (.axis n) (onAxis n act h).trace = commandsOf (act (h.axis n)).trace := by
  simp only [onAxis, within]
  simp

/-- The brake is told to the motor, whether it obeys or not. -/
theorem commandsAt_brake (n : AxisName) (h : Head) :
    commandsAt (.axis n) (onAxis n (Axis.setStopAction .brake) h).trace =
      [.stopAction .brake] := by
  rw [commandsAt_onAxis, Axis.setStopAction, Axis.command_apply]
  apply Motor.commandsOf_issue_of_ne_crashed
  rw [Motor.issue_eq _ (by decide)]
  exact endingOf_ne_crashed _

/-- The commands that one homing of an axis may give: nothing but the brake, and then
those of a homing that does not crash, or nothing. -/
def HomingCommands (cs : List MotorCommand) : Prop :=
  ∃ before after, cs = before ++ after ∧ (∀ c ∈ before, c = .stopAction .brake) ∧
    (after = [] ∨ ∃ polling a, (Axis.home polling a).ending ≠ .crashed ∧
      after = commandsOf (Axis.home polling a).trace)

theorem homingCommands_nil : HomingCommands [] := ⟨[], [], rfl, by simp, Or.inl rfl⟩

theorem leaves_home_axis (n : AxisName) (polling : Polling) :
    Leaves (fun t => HomingCommands (commandsAt (.axis n) t)) (onAxis n (Axis.home polling)) := by
  intro h hc
  rw [commandsAt_onAxis]
  exact ⟨[], _, rfl, by simp, Or.inr ⟨polling, h.axis n, hc, rfl⟩⟩

theorem leaves_homePlane (n : AxisName) :
    Leaves (fun t => HomingCommands (commandsAt (.axis n) t)) (homePlane n) := by
  intro h hc
  unfold homePlane at hc ⊢
  rw [get_bind_apply] at hc ⊢
  have hbrake := commandsAt_brake n h
  cases hend : (onAxis n (Axis.setStopAction .brake) h).ending with
  | done _ =>
    rw [bind_of_done hend] at hc ⊢
    obtain ⟨before, after, hcs, hbefore, hafter⟩ := leaves_home_axis n h.limits.polling _ hc
    simp only [commandsAt_append, hbrake, hcs]
    refine ⟨.stopAction .brake :: before, after, rfl, ?_, hafter⟩
    intro c hcmem
    rcases List.mem_cons.mp hcmem with rfl | hcmem
    · rfl
    · exact hbefore c hcmem
  | failed e =>
    rw [bind_of_failed hend]
    simp only [hbrake]
    exact ⟨[.stopAction .brake], [], rfl, by simp, Or.inl rfl⟩
  | crashed =>
    rw [bind_of_crashed hend] at hc
    exact absurd rfl hc

theorem Leaves.optional {P : List Event → Prop} (hP : P []) {x : Act Unit} (hx : Leaves P x)
    (c : Prop) [Decidable c] : Leaves P (if c then x else pure ()) := by
  split
  · exact hx
  · intro _ _
    exact hP

/-- **Each axis is homed at most once**, and no other motor is told anything. -/
theorem leaves_home (axes : AxisSet) (n : AxisName) :
    Leaves (fun t => HomingCommands (commandsAt (.axis n) t)) (home axes) := by
  rw [home_eq]
  have hplane := fun n => Leaves.optional (x := homePlane n) homingCommands_nil (leaves_homePlane n)
  -- each axis sees its own part of the sequence, and the other parts are silent
  cases n with
  | x =>
    apply leaves_of_silent_right (hplane .x _)
    intro _
    apply Keeps.bind (chains_silent _) ((silent_homePlane (by simp)).optional _)
    intro _
    exact (silent_homeHeight (by simp)).optional _
  | y =>
    apply leaves_of_silent_left homingCommands_nil ((silent_homePlane (by simp)).optional _)
    intro _
    apply leaves_of_silent_right (hplane .y _)
    intro _
    exact (silent_homeHeight (by simp)).optional _
  | z =>
    apply leaves_of_silent_left homingCommands_nil ((silent_homePlane (by simp)).optional _)
    intro _
    apply leaves_of_silent_left homingCommands_nil ((silent_homePlane (by simp)).optional _)
    intro _
    exact Leaves.optional homingCommands_nil
      (fun h hc => leaves_home_axis .z h.limits.polling h hc) _

theorem silent_home (axes : AxisSet) : Silent .extruder (home axes) := by
  rw [home_eq]
  apply Keeps.bind (chains_silent _) ((silent_homePlane (by simp)).optional _)
  intro _
  apply Keeps.bind (chains_silent _) ((silent_homePlane (by simp)).optional _)
  intro _
  exact (silent_homeHeight (by simp)).optional _

namespace HomingCommands

variable {cs : List MotorCommand}

theorem eachStopped_run (h : HomingCommands cs) : EachStopped (· = .run) cs := by
  obtain ⟨before, after, rfl, hbefore, hafter⟩ := h
  refine (eachStopped_of_forall_not fun c hc => by simp [hbefore c hc]).append ?_
  rcases hafter with rfl | ⟨polling, a, hc, rfl⟩
  · exact eachStopped_nil
  · exact Axis.eachStopped_run_home hc

theorem eachStopped_motion_iff (h : HomingCommands cs) :
    EachStopped (·.isMotion) cs ↔ ∀ n, .turn n ∉ cs := by
  obtain ⟨before, after, rfl, hbefore, hafter⟩ := h
  rw [eachStopped_append_left_iff fun c hc => by rw [hbefore c hc]; nofun]
  -- the brake is no motion, so only the homing itself counts
  have hturn : ∀ n, .turn n ∈ before ++ after ↔ .turn n ∈ after := by
    intro n
    rw [List.mem_append]
    exact or_iff_right fun hn => nomatch hbefore _ hn
  simp only [hturn]
  rcases hafter with rfl | ⟨polling, a, hc, rfl⟩
  · simp
  · exact Axis.eachStopped_motion_home_iff hc

end HomingCommands

/-! ### Offset moves in a homing of every axis -/

/-- Homing one of the plane axes gets as far as its offset move. -/
def PlaneOffsetStarts (n : AxisName) (h : Head) : Prop :=
  (onAxis n (Axis.setStopAction .brake) h).ending = .done () ∧
    Axis.OffsetStarts h.limits.polling ((onAxis n (Axis.setStopAction .brake) h).state.axis n)

theorem exists_turn_mem_homePlane_iff {n : AxisName} {h : Head}
    (hc : (homePlane n h).ending ≠ .crashed) :
    (∃ c, .turn c ∈ commandsAt (.axis n) (homePlane n h).trace) ↔ PlaneOffsetStarts n h := by
  unfold PlaneOffsetStarts
  unfold homePlane at hc ⊢
  rw [get_bind_apply] at hc ⊢
  have hbrake := commandsAt_brake n h
  cases hend : (onAxis n (Axis.setStopAction .brake) h).ending with
  | done _ =>
    rw [bind_of_done hend] at hc ⊢
    rw [← Axis.exists_turn_mem_home_iff hc, commandsAt_append, hbrake, commandsAt_onAxis]
    simp
  | failed e =>
    rw [bind_of_failed hend, hbrake]
    simp
  | crashed =>
    rw [bind_of_crashed hend] at hc
    exact absurd rfl hc

theorem exists_turn_mem_homeHeight_iff {h : Head} (hc : (homeHeight h).ending ≠ .crashed) :
    (∃ c, .turn c ∈ commandsAt (.axis .z) (homeHeight h).trace) ↔
      Axis.OffsetStarts h.limits.polling h.z := by
  have hhome : (Axis.home h.limits.polling h.z).ending ≠ .crashed := hc
  unfold homeHeight
  rw [get_bind_apply, commandsAt_onAxis, ← Axis.exists_turn_mem_home_iff hhome]
  rfl

theorem calibrate_eq : calibrate =
    (homePlane .x >>= fun _ => homePlane .y >>= fun _ => homeHeight) := by
  unfold calibrate
  rw [home_eq]
  rfl

/-- Homing every axis gets as far as the offset move of an axis: the axes before it are
homed, and its own homing gets that far. -/
def OffsetStarts (h : Head) : AxisName → Prop
  | .x => PlaneOffsetStarts .x h
  | .y => (homePlane .x h).ending = .done () ∧ PlaneOffsetStarts .y (homePlane .x h).state
  | .z => (homePlane .x h).ending = .done () ∧
      (homePlane .y (homePlane .x h).state).ending = .done () ∧
        Axis.OffsetStarts (homePlane .y (homePlane .x h).state).state.limits.polling
          (homePlane .y (homePlane .x h).state).state.z

/-- The motor of an axis is told to make its offset move exactly when homing gets that
far. -/
theorem exists_turn_mem_calibrate_iff {h : Head} (hc : (calibrate h).ending ≠ .crashed)
    (n : AxisName) :
    (∃ c, .turn c ∈ commandsAt (.axis n) (calibrate h).trace) ↔ h.OffsetStarts n := by
  rw [calibrate_eq] at hc ⊢
  cases n with
  | x =>
    rw [commandsAt_bind_of_silent fun _ => Keeps.bind (chains_silent _)
      (silent_homePlane (by simp)) fun _ => silent_homeHeight (by simp)]
    exact exists_turn_mem_homePlane_iff (ending_ne_crashed_of_bind hc)
  | y =>
    simp only [mem_commandsAt_bind_iff (silent_homePlane (n := .x) (j := .axis .y) (by simp)),
      exists_and_left]
    apply and_congr_right
    intro hx
    rw [bind_of_done hx] at hc
    rw [commandsAt_bind_of_silent fun _ => silent_homeHeight (by simp)]
    exact exists_turn_mem_homePlane_iff (ending_ne_crashed_of_bind hc)
  | z =>
    simp only [mem_commandsAt_bind_iff (silent_homePlane (n := .x) (j := .axis .z) (by simp)),
      mem_commandsAt_bind_iff (silent_homePlane (n := .y) (j := .axis .z) (by simp)),
      exists_and_left]
    refine and_congr_right fun hx => and_congr_right ?_
    intro hy
    rw [bind_of_done hx, bind_of_done hy] at hc
    exact exists_turn_mem_homeHeight_iff hc

/-! ### Failed homing -/

/-- **What a failed homing leaves running.**  Every motion of a motor is followed by a stop
exactly when homing did not get as far as the offset move of its axis; the same holds for
each axis after a failed homing of every axis. -/
theorem stopped_after_failed_homing (polling : Polling) (a : Axis) (h : Head) (e : DeviceError) :
    ((Axis.home polling a).ending = .failed e →
      (EachStopped (·.isMotion) (commandsOf (Axis.home polling a).trace) ↔
        ¬Axis.OffsetStarts polling a)) ∧
    ((calibrate h).ending = .failed e → ∀ n,
      (EachStopped (·.isMotion) (commandsAt (.axis n) (calibrate h).trace) ↔
        ¬h.OffsetStarts n)) := by
  constructor
  · intro hfail
    have hc : (Axis.home polling a).ending ≠ .crashed := by simp [hfail]
    rw [Axis.eachStopped_motion_home_iff hc, ← Axis.exists_turn_mem_home_iff hc, not_exists]
  · intro hfail n
    have hc : (calibrate h).ending ≠ .crashed := by simp [hfail]
    have hmotion := (leaves_home .all n h hc).eachStopped_motion_iff
    rw [← exists_turn_mem_calibrate_iff hc, not_exists]
    exact hmotion

/-- The axis whose wait is lost gets as far as its offset move; and in a homing of every
axis in which the second run of the second motor fails, that motor is stopped unless its
homing got that far. -/
theorem stopped_after_failed_homing_standard :
    let h := standard fun j c k =>
      if j = .axis .y ∧ c = .run ∧ k = 2 then some ⟨"Stalled"⟩ else none
    (Axis.home .standard Axis.lostWait).ending = .failed (.motor ⟨"Lost"⟩) ∧
      (EachStopped (·.isMotion) (commandsOf (Axis.home .standard Axis.lostWait).trace) ↔
        ¬Axis.OffsetStarts .standard Axis.lostWait) ∧
      (calibrate h).ending = .failed (.motor ⟨"Stalled"⟩) ∧
      (EachStopped (·.isMotion) (commandsAt (.axis .y) (calibrate h).trace) ↔
        ¬h.OffsetStarts .y) := by
  intro h
  have haxis : (Axis.home .standard Axis.lostWait).ending = .failed (.motor ⟨"Lost"⟩) := by
    decide +kernel
  have hhead : (calibrate h).ending = .failed (.motor ⟨"Stalled"⟩) := by decide +kernel
  obtain ⟨hone, -⟩ := stopped_after_failed_homing .standard Axis.lostWait h (.motor ⟨"Lost"⟩)
  obtain ⟨-, hall⟩ := stopped_after_failed_homing .standard Axis.lostWait h (.motor ⟨"Stalled"⟩)
  exact ⟨haxis, hone haxis, hhead, hall hhead .y⟩

end Head

end TachoPrint
