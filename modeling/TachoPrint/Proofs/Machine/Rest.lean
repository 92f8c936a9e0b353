import TachoPrint.Proofs.Machine.Calibrate
import TachoPrint.Proofs.Machine.Program

/-!
# Motors at rest between instructions

Every run of a motor is followed by a stop of that motor within the same instruction,
also when the instruction is refused.  Which motors run can be told from the events
alone, so motors that obey their stops stand still whenever an instruction is over.

## Main definitions

* `RunsStopped` — every run among the commands at a motor is followed by a stop.
* `runningAfter` — whether a motor runs after some events, told from the events alone.
* `Head.AtRest` — no motor of the head runs.
* `Head.StopsObeyed` — no motor failed to stop.

## Main results

* `Head.steady_told` — the events tell which motors run.
* `Head.settles_execute` — every run is followed by a stop within its instruction.
* `Head.runs_end_with_instruction` — **no run outlives its instruction.**
-/

namespace TachoPrint

open TachoPrint.Action

/-! ### Running, told from the events -/

/-- A stop that the motor did not obey. -/
def Event.isLostStop : Event → Bool
  | .device _ (.refused .stop _) => true
  | _ => false

/-- Whether a motor runs after an event. -/
def DeviceEvent.leavesRunning (running : Bool) : DeviceEvent → Bool
  | .obeyed .run => true
  | .obeyed .stop => false
  | .obeyed .reset => false
  | _ => running

/-- Whether a motor runs after some events. -/
def runningAfter (running : Bool) (t : List DeviceEvent) : Bool :=
  t.foldl DeviceEvent.leavesRunning running

@[simp] theorem runningAfter_nil (r : Bool) : runningAfter r [] = r := rfl

@[simp] theorem runningAfter_cons (r : Bool) (e : DeviceEvent) (t : List DeviceEvent) :
    runningAfter r (e :: t) = runningAfter (e.leavesRunning r) t := rfl

@[simp] theorem runningAfter_append (r : Bool) (t u : List DeviceEvent) :
    runningAfter r (t ++ u) = runningAfter (runningAfter r t) u := List.foldl_append

/-- Events that are no commands do not set a motor running. -/
theorem runningAfter_of_silent {t : List DeviceEvent} (h : commandsOf t = []) (r : Bool) :
    runningAfter r t = r := by
  induction t with
  | nil => rfl
  | cons e t ih =>
    cases e with
    | obeyed c => cases h
    | refused c fault => cases h
    | read reading => exact ih h
    | waited millis => exact ih h

/-- A motor that runs, or may come to run, and is told to stop after every run stands
still in the end, if it obeys. -/
theorem runningAfter_eq_false {t : List DeviceEvent} (r : Bool)
    (ht : EachStopped (· = .run) (commandsOf t)) (hobeyed : ∀ fault, .refused .stop fault ∉ t)
    (hr : r = true → .stop ∈ commandsOf t) : runningAfter r t = false := by
  -- by induction on the events: a motor that runs always has a stop ahead of it
  induction t generalizing r with
  | nil =>
    cases r with
    | false => rfl
    | true => cases hr rfl
  | cons e t ih =>
    have hrest : ∀ fault, .refused .stop fault ∉ t := fun fault h =>
      hobeyed fault (List.mem_cons_of_mem e h)
    rw [runningAfter_cons]
    cases e with
    | obeyed c =>
      have hcons : commandsOf (.obeyed c :: t) = c :: commandsOf t := rfl
      rw [hcons, eachStopped_cons] at ht
      rw [hcons] at hr
      apply ih _ ht.2 hrest
      intro hrun
      cases c with
      | run => exact ht.1 rfl
      | stop => cases hrun
      | reset => cases hrun
      | _ => simpa using hr hrun
    | refused c fault =>
      have hcons : commandsOf (.refused c fault :: t) = c :: commandsOf t := rfl
      rw [hcons, eachStopped_cons] at ht
      rw [hcons] at hr
      apply ih _ ht.2 hrest
      intro hrun
      -- the stop ahead is not this one, which failed
      rcases List.mem_cons.mp (hr hrun) with hc | hmem
      · exact absurd List.mem_cons_self (hc ▸ hobeyed fault)
      · exact hmem
    | read reading => exact ih r ht hrest hr
    | waited millis => exact ih r ht hrest hr

/-- What a motor does when it obeys is what the event says. -/
theorem Motor.running_of_obey? {c : MotorCommand} {m m' : Motor} (h : m.obey? c = some m') :
    m'.running = (DeviceEvent.obeyed c).leavesRunning m.running := by
  cases c with
  | turn n =>
    rw [obey?_turn, Option.map_eq_some_iff] at h
    obtain ⟨e, -, rfl⟩ := h
    rfl
  | _ =>
    obtain rfl := Option.some.inj h
    rfl

/-- The events of a command tell whether the motor runs after it. -/
theorem Motor.running_issue (c : MotorCommand) (m : Motor) :
    (issue c m).state.running = runningAfter m.running (issue c m).trace := by
  unfold issue
  dsimp only
  split
  · rfl
  · split
    · next m' h =>
      have hrunning := running_of_obey? h
      exact hrunning
    · rfl

/-- The events at an axis tell whether its motor runs. -/
def Axis.Told (a : Axis) (t : List DeviceEvent) (a' : Axis) : Prop :=
  a'.motor.running = runningAfter a.motor.running t

theorem Axis.steady_told : Axis.Steady (fun _ => True) Axis.Told where
  chains :=
    { nil := fun _ => rfl
      append := fun h h' => by
        unfold Told at h h' ⊢
        rw [h', h, runningAfter_append] }
  command c a := by
    rw [command_apply]
    exact Motor.running_issue c a.motor
  poll inverted polling a := by
    have hsilent := List.prefix_nil.mp (follows_awaitEndstop inverted polling a).1
    unfold Told
    rw [runningAfter_of_silent hsilent]
    unfold awaitEndstop
    split <;> rfl
  setPosition p _ a := rfl

/-- The events at an extruder tell whether its motor runs. -/
def Extruder.Told (e : Extruder) (t : List DeviceEvent) (e' : Extruder) : Prop :=
  e'.motor.running = runningAfter e.motor.running t

theorem Extruder.steady_told : Extruder.Steady Extruder.Told where
  chains :=
    { nil := fun _ => rfl
      append := fun h h' => by
        unfold Told at h h' ⊢
        rw [h', h, runningAfter_append] }
  command c e := by
    rw [command_apply]
    exact Motor.running_issue c e.motor

/-! ### Runs at one axis -/

/-- Every run among the commands at a motor is stopped. -/
def RunsStopped (t : List DeviceEvent) : Prop := EachStopped (· = .run) (commandsOf t)

theorem accumulates_runsStopped : Accumulates RunsStopped where
  nil := eachStopped_nil
  append h h' := by
    unfold RunsStopped
    rw [commandsOf_append]
    exact h.append h'

namespace Axis

theorem leaves_command {c : MotorCommand} (hc : c ≠ .run) : Leaves RunsStopped (command c) := by
  intro a _
  apply eachStopped_of_forall_not
  intro d hd
  rw [List.mem_singleton.mp ((follows_command c a).mem hd)]
  exact hc

theorem leaves_turn (speed counts : Int32) : Leaves RunsStopped (turn speed counts) := by
  intro a _
  apply eachStopped_of_forall_not
  intro d hd
  rintro rfl
  have hcall := call_of_mem_turn hd
  simp [MotorCommand.call] at hcall

/-- A change of height runs nothing without an end. -/
theorem leaves_moveToHeight (height highest : Binary64) :
    Leaves RunsStopped (moveToHeight height highest) := by
  have hP := accumulates_runsStopped
  unfold moveToHeight
  split
  · exact Leaves.finish hP _
  · apply (Leaves.get hP).bind hP
    intro a
    unfold moveTo
    split
    · exact Leaves.finish hP _
    · apply (Leaves.get hP).bind hP
      intro b
      exact (leaves_turn _ _).bind hP fun _ _ _ => hP.nil

theorem leaves_release : Leaves RunsStopped release :=
  (leaves_command (by simp)).bind accumulates_runsStopped fun _ => leaves_command (by simp)

end Axis

theorem Extruder.leaves_command {c : MotorCommand} (hc : c ≠ .run) :
    Leaves RunsStopped (command c) := by
  intro e _
  apply eachStopped_of_forall_not
  intro d hd
  rw [command_apply] at hd
  rw [List.mem_singleton.mp ((Motor.commandsOf_issue c e.motor).1.subset hd)]
  exact hc

theorem Extruder.leaves_release : Leaves RunsStopped release :=
  (leaves_command (by simp)).bind accumulates_runsStopped fun _ => leaves_command (by simp)

/-! ### Runs at the head -/

namespace Head

/-- The events at each joint tell whether its motor runs. -/
def Told : Head → List Event → Head → Prop := Jointwise (fun _ => Axis.Told) Extruder.Told

theorem steady_told : Steady (fun _ _ => True) (fun _ => Axis.Told) Extruder.Told where
  axis _ := Axis.steady_told
  extruder := Extruder.steady_told

/-- The head has a motor at the joint. -/
def has (h : Head) : Joint → Bool
  | .axis _ => true
  | .extruder => h.e.isSome

theorem Told.has_eq {h h' : Head} {t : List Event} (ht : Told h t h') (j : Joint) :
    h'.has j = h.has j := by
  cases j with
  | axis n => rfl
  | extruder => exact ht.extruder.isSome_eq

/-- Nothing happens at a joint without a motor. -/
theorem Told.eventsAt_eq_nil {h h' : Head} {t : List Event} (ht : Told h t h') {j : Joint}
    (hj : h.has j = false) : eventsAt j t = [] := by
  cases j with
  | axis n => cases hj
  | extruder =>
    have he : h.e = none := Option.not_isSome_iff_eq_none.mp ((Bool.not_eq_true _).mpr hj)
    exact ht.extruder.eq_nil he

/-- Stopping every motor tells each joint that has one to stop, and nothing else. -/
@[simp] theorem commandsAt_stopEvents (h : Head) (j : Joint) :
    commandsAt j h.stopEvents = if h.has j then [.stop] else [] := by
  unfold stopEvents motors
  cases j with
  | axis n => cases n <;> cases h.e <;> simp [commandsAt, eventsAt, Event.at?, commandsOf, has]
  | extruder => cases he : h.e <;> simp [commandsAt, eventsAt, Event.at?, commandsOf, has, he]

theorem runsStopped_stopEvents (h : Head) (j : Joint) :
    RunsStopped (eventsAt j h.stopEvents) := by
  apply eachStopped_of_forall_not
  intro c hc
  change c ∈ commandsAt j h.stopEvents at hc
  rw [commandsAt_stopEvents] at hc
  split at hc <;> simp at hc
  simp [hc]

/-! ### Timed moves -/

/-- The last command at a joint with a motor is a stop. -/
def EndsStopped (j : Joint) (x : Act Unit) : Prop :=
  ∀ h, h.has j → (x h).ending ≠ .crashed → ∃ cs, commandsAt j (x h).trace = cs ++ [.stop]

/-- A sequence whose first part is never refused ends like its second part. -/
theorem EndsStopped.bind {j : Joint} {α : Type} {x : Act α} {f : α → Act Unit}
    (hx : Keeps Told x) (hsure : Refuses (fun _ => False) x)
    (hf : ∀ a, EndsStopped j (f a)) : EndsStopped j (x >>= f) := by
  intro h hj hc
  cases hend : (x h).ending with
  | done a =>
    rw [bind_of_done hend] at hc ⊢
    obtain ⟨cs, hcs⟩ := hf a _ (((hx h).has_eq j).trans hj) hc
    refine ⟨commandsAt j (x h).trace ++ cs, ?_⟩
    simp [hcs]
  | failed e => exact (hsure h e hend).elim
  | crashed =>
    rw [bind_of_crashed hend] at hc
    exact absurd rfl hc

/-- Whatever started, the end of a timed move is a stop. -/
theorem endsStopped_settle (j : Joint) (plan : Plan) (started : Except DeviceError Unit) :
    EndsStopped j (settle plan started) := by
  intro h hj _
  rw [settle_trace, commandsAt_stopEvents, if_pos hj]
  exact ⟨[], rfl⟩

theorem endsStopped_runTimed (j : Joint) (plan : Plan) : EndsStopped j (runTimed plan) := by
  rw [runTimed_eq]
  apply EndsStopped.bind (steady_told.start plan).attempt (.attempt _)
  intro started
  refine EndsStopped.bind ?_ ?_ fun _ => endsStopped_settle j plan started
  · exact steady_told.optional _ (steady_told.pause _)
  · intro h e he
    split at he <;> cases he

/-! ### Instructions -/

/-- At the joint every run is stopped, unless there is a crash. -/
def Settles (j : Joint) {α : Type} (x : Act α) : Prop :=
  Leaves (fun t => RunsStopped (eventsAt j t)) x

theorem accumulates_settled (j : Joint) :
    Accumulates fun t : List Event => RunsStopped (eventsAt j t) where
  nil := accumulates_runsStopped.nil
  append h h' := by
    rw [eventsAt_append]
    exact accumulates_runsStopped.append h h'

variable {j : Joint}

theorem settles_onAxis {α : Type} (n : AxisName) {act : Axis.Act α}
    (hact : Leaves RunsStopped act) : Settles j (onAxis n act) := by
  intro h hc
  simp only [onAxis, within] at hc ⊢
  rw [eventsAt_map_device]
  split
  · exact hact _ hc
  · exact eachStopped_nil

theorem settles_onExtruder {act : Extruder.Act Unit} (hact : Leaves RunsStopped act) :
    Settles j (onExtruder act) := by
  intro h hc
  unfold onExtruder at hc ⊢
  split
  · exact eachStopped_nil
  · next e he =>
    rw [he] at hc
    rw [eventsAt_map_device]
    split
    · exact hact _ hc
    · exact eachStopped_nil

theorem settles_pure : Settles j (pure () : Act Unit) := Leaves.pure (accumulates_settled j) ()

theorem Settles.optional {x : Act Unit} (hx : Settles j x) (c : Prop) [Decidable c] :
    Settles j (if c then x else pure ()) := Leaves.optional eachStopped_nil hx c

theorem settles_runTimed (plan : Plan) : Settles j (runTimed plan) := by
  intro h hc
  -- a joint with a motor sees the last stop, and another one sees nothing at all
  cases hj : h.has j with
  | true =>
    obtain ⟨cs, hcs⟩ := endsStopped_runTimed j plan h hj hc
    change EachStopped _ (commandsAt j (runTimed plan h).trace)
    rw [hcs]
    exact EachStopped.append_stop cs (by simp)
  | false =>
    have htold : Told h (runTimed plan h).trace (runTimed plan h).state :=
      steady_told.runTimed trivial trivial h
    rw [htold.eventsAt_eq_nil hj]
    exact eachStopped_nil

theorem settles_carryOut (plan : Plan) : Settles j (carryOut plan) := by
  have hP := accumulates_settled j
  rw [carryOut_eq]
  apply (Leaves.get hP).bind hP
  intro h
  apply (Settles.optional (settles_onAxis .z (Axis.leaves_moveToHeight _ _)) _).bind hP
  intro _
  exact (settles_runTimed plan).optional _

theorem settles_linearMove (m : Move) : Settles j (linearMove m) := by
  have hP := accumulates_settled j
  rw [linearMove_eq]
  refine Leaves.bind hP ?_ fun _ => Settles.optional ?_ _
  · split
    · intro h _
      rw [setVelocity_eq]
      split <;> exact eachStopped_nil
    · exact settles_pure
  · apply (Leaves.get hP).bind hP
    intro h
    exact (Leaves.finish hP _).bind hP fun plan => settles_carryOut plan

theorem settles_home (axes : AxisSet) : Settles j (home axes) := by
  intro h hc
  cases j with
  | axis n => exact (leaves_home axes n h hc).eachStopped_run
  | extruder =>
    change EachStopped _ (commandsAt .extruder (home axes h).trace)
    rw [silent_home axes h]
    exact eachStopped_nil

theorem settles_release (axes : AxisSet) : Settles j (release axes) := by
  have hP := accumulates_settled j
  have hplane := fun n => settles_onAxis (j := j) n Axis.leaves_release
  rw [release_eq]
  apply ((hplane .x).optional _).bind hP
  intro _
  apply ((hplane .y).optional _).bind hP
  intro _
  apply ((hplane .z).optional _).bind hP
  intro _
  exact (settles_onExtruder Extruder.leaves_release).optional _

/-- **Every run is stopped within its instruction.** -/
theorem settles_execute (i : Instruction) : Settles j (execute i) := by
  cases i with
  | move m => exact settles_linearMove m
  | pause micros =>
    intro h _
    simp only [execute, pause, emit]
    rw [eventsAt_map_slept]
    exact eachStopped_nil
  | setPositioning mode =>
    intro _ _
    exact eachStopped_nil
  | setPosition c =>
    intro _ _
    exact eachStopped_nil
  | home axes => exact settles_home axes
  | release axes => exact settles_release axes

/-! ### At rest -/

/-- No motor of the head runs. -/
def AtRest (h : Head) : Prop := ∀ p ∈ h.motors, p.2.running = false

instance (h : Head) : Decidable h.AtRest := inferInstanceAs (Decidable (∀ p ∈ h.motors, _))

theorem atRest_iff (h : Head) :
    h.AtRest ↔ (∀ n, (h.axis n).motor.running = false) ∧ ∀ e ∈ h.e, e.motor.running = false := by
  unfold AtRest motors
  constructor
  · intro hrest
    constructor
    · intro n
      cases n
      · exact hrest (.axis .x, h.x.motor) (by simp)
      · exact hrest (.axis .y, h.y.motor) (by simp)
      · exact hrest (.axis .z, h.z.motor) (by simp)
    · intro e he
      rw [Option.mem_def] at he
      exact hrest (.extruder, e.motor) (by simp [he])
  · rintro ⟨haxis, he⟩ p hp
    simp only [List.mem_append, List.mem_cons, List.not_mem_nil, or_false, Option.mem_toList,
      Option.map_eq_some_iff] at hp
    rcases hp with (rfl | rfl | rfl) | ⟨e, hmem, rfl⟩
    · exact haxis .x
    · exact haxis .y
    · exact haxis .z
    · exact he e hmem

/-- No motor failed to stop. -/
def StopsObeyed (t : List Event) : Prop := ∀ e ∈ t, e.isLostStop = false

instance (t : List Event) : Decidable (StopsObeyed t) := inferInstanceAs (Decidable (∀ e ∈ t, _))

theorem StopsObeyed.not_mem {t : List Event} (ht : StopsObeyed t) (j : Joint)
    (fault : MotorFault) : .refused .stop fault ∉ eventsAt j t := by
  intro hmem
  obtain ⟨e, he, hat⟩ := List.mem_filterMap.mp hmem
  have hlost := ht e he
  cases e with
  | device k d =>
    simp only [Event.at?, Option.ite_none_right_eq_some, Option.some.injEq] at hat
    obtain ⟨-, rfl⟩ := hat
    cases hlost
  | slept micros => cases hat

/-- Motors that obey are at rest after a trace in which every run is stopped. -/
theorem Told.atRest {h h' : Head} {t : List Event} (ht : Told h t h') (hrest : h.AtRest)
    (hruns : ∀ j, RunsStopped (eventsAt j t)) (hobeyed : StopsObeyed t) : h'.AtRest := by
  rw [atRest_iff] at hrest ⊢
  obtain ⟨haxis, hextruder⟩ := hrest
  constructor
  · intro n
    rw [ht.axis n, haxis n]
    exact runningAfter_eq_false false (hruns _) (hobeyed.not_mem _) nofun
  · intro e' he'
    have hat := ht.extruder
    rw [Option.mem_def.mp he'] at hat
    cases he : h.e with
    | none =>
      rw [he] at hat
      exact hat.elim
    | some e =>
      rw [he] at hat
      have hrunning : e'.motor.running = runningAfter e.motor.running (eventsAt .extruder t) := hat
      rw [hrunning, hextruder e he]
      exact runningAfter_eq_false false (hruns _) (hobeyed.not_mem _) nofun

/-- **No run outlives its instruction.**  However an instruction ends, unless by a crash,
each run of a motor during it is followed by a stop of that motor.  So motors that are
at rest and obey their stops are at rest again after each instruction, after each
program and after homing every axis, whether these succeed or not. -/
theorem runs_end_with_instruction :
    (∀ (i : Instruction) (h : Head), (execute i h).ending ≠ .crashed →
      (∀ j, RunsStopped (eventsAt j (execute i h).trace)) ∧
        (h.AtRest → StopsObeyed (execute i h).trace → (execute i h).state.AtRest)) ∧
    (∀ (p : List Instruction) (h : Head), h.AtRest → (runProgram p h).ending ≠ .crashed →
      StopsObeyed (runProgram p h).trace → (runProgram p h).state.AtRest) ∧
    ∀ h : Head, h.AtRest → (calibrate h).ending ≠ .crashed →
      StopsObeyed (calibrate h).trace → (calibrate h).state.AtRest := by
  have htold : ∀ i, Keeps Told (execute i) := keeps_execute steady_told
  refine ⟨?_, ?_, ?_⟩
  · intro i h hc
    have hruns := fun j => settles_execute (j := j) i h hc
    exact ⟨hruns, fun hrest => (htold i h).atRest hrest hruns⟩
  · intro p h hrest hc hobeyed
    have hprogram : Keeps Told (runProgram p) :=
      keeps_runProgram steady_told.chains (fun i _ => htold i) steady_told.stopAll
    have hruns : ∀ j, RunsStopped (eventsAt j (runProgram p h).trace) := fun j =>
      leaves_runProgram (accumulates_settled j) (fun i _ => settles_execute i)
        (fun h' => runsStopped_stopEvents h' j) h hc
    exact (hprogram h).atRest hrest hruns hobeyed
  · intro h hrest hc hobeyed
    exact (htold (.home .all) h).atRest hrest (fun j => settles_home .all h hc) hobeyed

/-- A move in the plane and a homing of every axis, in which the second run of the second
motor fails. -/
theorem runs_end_with_instruction_standard :
    let h := standard fun j c k =>
      if j = .axis .y ∧ c = .run ∧ k = 2 then some ⟨"Stalled"⟩ else none
    let p := [Instruction.move { goal := { x := some 10 } }, .home .all]
    (runProgram p h).ending = .failed (.motor ⟨"Stalled"⟩) ∧ (runProgram p h).state.AtRest ∧
      (calibrate h).ending = .failed (.motor ⟨"Stalled"⟩) ∧ (calibrate h).state.AtRest ∧
      RunsStopped (eventsAt (.axis .y) (execute (.home .all) h).trace) := by
  intro h p
  have hrest : h.AtRest := by decide +kernel
  have hprogram : (runProgram p h).ending = .failed (.motor ⟨"Stalled"⟩) := by decide +kernel
  have hhome : (calibrate h).ending = .failed (.motor ⟨"Stalled"⟩) := by decide +kernel
  obtain ⟨hone, hmany, hall⟩ := runs_end_with_instruction
  have hexecute : (execute (.home .all) h).ending = .failed (.motor ⟨"Stalled"⟩) := hhome
  exact ⟨hprogram, hmany p h hrest (by rw [hprogram]; nofun) (by decide +kernel), hhome,
    hall h hrest (by rw [hhome]; nofun) (by decide +kernel),
    (hone (.home .all) h (by rw [hexecute]; nofun)).1 _⟩

end Head

end TachoPrint
