import TachoPrint.Machine.Head
import TachoPrint.Proofs.Machine.Action

/-!
# The commands that actions give

A command is given when it is attempted, whether the motor obeys it or not.  The
actions of an axis are straight lines: the commands that they give are those of a
script, in order, up to the place where the action breaks off.

## Main definitions

* `commandsOf`, `eventsAt`, `commandsAt` — the commands in a trace, and what a trace
  holds of one joint.
* `DeviceError.IsMotor` — a refusal that is the failure of a motor.
* `endingOf` — how a command ends, by what the driver reports to it.
* `Motor.answer` — the event that a command causes.
* `Action.Follows script x s` — from `s` the action gives the commands of a script.

## Main results

* `Motor.issue_eq` — a command other than a turn always has an answer.
* `Axis.follows_turn`, `Axis.follows_seek` — the scripts of a turn and of driving into
  the endstop and back.
* `Axis.exists_turn_mem_iff` — when a turn is given to the motor.
-/

namespace TachoPrint

/-! ### Commands in a trace -/

/-- The commands among the events at a motor, obeyed or not. -/
def commandsOf (t : List DeviceEvent) : List MotorCommand := t.filterMap DeviceEvent.command?

@[simp] theorem commandsOf_nil : commandsOf [] = [] := rfl

@[simp] theorem commandsOf_append (t u : List DeviceEvent) :
    commandsOf (t ++ u) = commandsOf t ++ commandsOf u := List.filterMap_append

/-- What an event is at one joint. -/
def Event.at? (j : Joint) : Event → Option DeviceEvent
  | .device k e => if k = j then some e else none
  | .slept _ => none

/-- The events at one joint. -/
def eventsAt (j : Joint) (t : List Event) : List DeviceEvent := t.filterMap (Event.at? j)

@[simp] theorem eventsAt_append (j : Joint) (t u : List Event) :
    eventsAt j (t ++ u) = eventsAt j t ++ eventsAt j u := List.filterMap_append

@[simp] theorem eventsAt_map_device (j k : Joint) (t : List DeviceEvent) :
    eventsAt j (t.map (Event.device k)) = if k = j then t else [] := by
  rw [eventsAt, List.filterMap_map]
  split
  · next h =>
    -- at this joint every event is kept, so the filter is the identity
    have : Event.at? j ∘ Event.device k = some := funext fun e => if_pos h
    rw [this, List.filterMap_some]
  · next h => exact List.filterMap_eq_nil_iff.mpr fun e _ => if_neg h

@[simp] theorem eventsAt_map_slept (j : Joint) (t : List UInt32) :
    eventsAt j (t.map Event.slept) = [] := by
  rw [eventsAt, List.filterMap_map]
  exact List.filterMap_eq_nil_iff.mpr fun _ _ => rfl

/-- The commands given to the motor of one joint, obeyed or not. -/
def commandsAt (j : Joint) (t : List Event) : List MotorCommand := commandsOf (eventsAt j t)

@[simp] theorem commandsAt_append (j : Joint) (t u : List Event) :
    commandsAt j (t ++ u) = commandsAt j t ++ commandsAt j u := by
  simp [commandsAt]

@[simp] theorem commandsAt_map_device (j k : Joint) (t : List DeviceEvent) :
    commandsAt j (t.map (Event.device k)) = if k = j then commandsOf t else [] := by
  rw [commandsAt, eventsAt_map_device]
  split <;> rfl

/-! ### One command -/

/-- The refusal is the failure of a motor, whatever its driver reported. -/
def DeviceError.IsMotor (e : DeviceError) : Prop := ∃ fault, e = .motor fault

/-- How a command ends, by what the driver reports to it: with exactly that fault, if there is
one. -/
def endingOf : Option MotorFault → Outcome DeviceError Unit
  | some fault => .failed (.motor fault)
  | none => .done ()

@[simp] theorem endingOf_none : endingOf none = .done () := rfl

@[simp] theorem endingOf_some (fault : MotorFault) :
    endingOf (some fault) = .failed (.motor fault) := rfl

/-- A command has a result where the driver has nothing to report. -/
@[simp] theorem endingOf_eq_done_iff {f : Option MotorFault} {u : Unit} :
    endingOf f = .done u ↔ f = none := by
  cases f with
  | none => simp
  | some fault => simp

/-- A command that is answered does not crash. -/
theorem endingOf_ne_crashed (f : Option MotorFault) : endingOf f ≠ .crashed := by
  cases f with
  | none => simp
  | some fault => simp

namespace Motor

/-- The event that a command causes when the motor is asked to obey it. -/
def answer (m : Motor) (c : MotorCommand) : DeviceEvent :=
  match m.fault? c.call with
  | some fault => .refused c fault
  | none => .obeyed c

@[simp] theorem command?_answer (m : Motor) (c : MotorCommand) :
    (m.answer c).command? = some c := by
  unfold answer
  split <;> rfl

/-- The motor after a command that needs no arithmetic: one more command is counted,
and it is obeyed unless it fails. -/
def after (m : Motor) (c : MotorCommand) : Motor :=
  let counted := { m with tally := m.tally.bump c.call }
  if m.fails c.call then counted else (counted.obey? c).getD counted

@[simp] theorem obey?_turn (m : Motor) (n : Int32) : m.obey? (.turn n) =
    (addCounts? m.encoder n).map fun e => { m with encoder := e } := rfl

/-- A command other than a turn needs no arithmetic. -/
theorem obey?_isSome (m : Motor) {c : MotorCommand} (hc : c.call ≠ .turn) :
    (m.obey? c).isSome := by
  cases c with
  | turn n => exact absurd rfl hc
  | _ => rfl

/-- Every command other than a turn is answered. -/
theorem issue_eq (m : Motor) {c : MotorCommand} (hc : c.call ≠ .turn) :
    issue c m = ⟨[m.answer c], m.after c, endingOf (m.fault? c.call)⟩ := by
  cases hf : m.fault? c.call with
  | some fault => simp [issue, answer, after, fails, hf]
  | none =>
    obtain ⟨m', hm'⟩ := Option.isSome_iff_exists.mp
      (obey?_isSome { m with tally := m.tally.bump c.call } hc)
    simp [issue, answer, after, fails, hf, hm']

theorem issue_stop (m : Motor) :
    issue .stop m = ⟨[m.answer .stop], m.after .stop, endingOf (m.fault? .stop)⟩ :=
  issue_eq m (by decide)

/-- A command is given at most once, and given when it is obeyed. -/
theorem commandsOf_issue (c : MotorCommand) (m : Motor) :
    commandsOf (issue c m).trace <+: [c] ∧
      ((issue c m).ending = .done () → commandsOf (issue c m).trace = [c]) := by
  simp only [issue]
  split
  · exact ⟨List.prefix_rfl, fun _ => rfl⟩
  · split
    · exact ⟨List.prefix_rfl, fun _ => rfl⟩
    · exact ⟨List.nil_prefix, fun h => nomatch h⟩

/-- A command that does not crash is given. -/
theorem commandsOf_issue_of_ne_crashed {c : MotorCommand} {m : Motor}
    (h : (issue c m).ending ≠ .crashed) : commandsOf (issue c m).trace = [c] := by
  simp only [issue] at h ⊢
  cases hf : m.fault? c.call with
  | some fault => rfl
  | none =>
    simp only [hf] at h ⊢
    split
    · rfl
    · next hn =>
      rw [hn] at h
      exact absurd rfl h

/-- A command that is obeyed leaves one event. -/
theorem trace_issue_of_done {c : MotorCommand} {m : Motor} (h : (issue c m).ending = .done ()) :
    (issue c m).trace = [.obeyed c] := by
  simp only [issue] at h ⊢
  cases hf : m.fault? c.call with
  | some fault =>
    rw [hf] at h
    cases h
  | none =>
    simp only [hf] at h ⊢
    split
    · rfl
    · next hn =>
      rw [hn] at h
      cases h

end Motor

/-! ### Scripts -/

namespace Action

variable {σ α β : Type}

/-- From this state the action gives the commands of the script, in order, up to where
it breaks off, and all of them if it has a result. -/
def Follows (script : List MotorCommand) (x : Action DeviceEvent σ DeviceError α) (s : σ) : Prop :=
  commandsOf (x s).trace <+: script ∧
    ∀ a, (x s).ending = .done a → commandsOf (x s).trace = script

namespace Follows

variable {x : Action DeviceEvent σ DeviceError α} {f : α → Action DeviceEvent σ DeviceError β}
  {s : σ} {l m : List MotorCommand}

theorem bind (hx : Follows l x s)
    (hf : ∀ a, (x s).ending = .done a → Follows m (f a) (x s).state) :
    Follows (l ++ m) (x >>= f) s := by
  cases h : (x s).ending with
  | done a =>
    obtain ⟨hpre, hall⟩ := hf a h
    rw [Follows, bind_of_done h]
    simp only [commandsOf_append, hx.2 a h]
    refine ⟨(List.prefix_append_right_inj l).mpr hpre, ?_⟩
    intro b hb
    rw [hall b hb]
  | failed e =>
    rw [Follows, bind_of_failed h]
    exact ⟨hx.1.trans (List.prefix_append l m), fun _ hb => nomatch hb⟩
  | crashed =>
    rw [Follows, bind_of_crashed h]
    exact ⟨hx.1.trans (List.prefix_append l m), fun _ hb => nomatch hb⟩

/-- What ends without a command and without a result follows every script. -/
theorem of_no_result (ht : commandsOf (x s).trace = []) (he : ∀ a, (x s).ending ≠ .done a) :
    Follows l x s :=
  ⟨ht ▸ List.nil_prefix, fun a ha => absurd ha (he a)⟩

/-- What gives no command follows the empty script. -/
theorem of_silent (ht : commandsOf (x s).trace = []) : Follows [] x s :=
  ⟨ht ▸ List.nil_prefix, fun _ _ => ht⟩

/-- The commands given are among those of the script. -/
theorem mem {c : MotorCommand} (hx : Follows l x s) (hc : c ∈ commandsOf (x s).trace) : c ∈ l :=
  hx.1.subset hc

end Follows

end Action

/-! ### The scripts of an axis -/

namespace Axis

open TachoPrint.Action

@[simp] theorem command_apply (c : MotorCommand) (a : Axis) :
    command c a = ⟨(Motor.issue c a.motor).trace, { a with motor := (Motor.issue c a.motor).state },
      (Motor.issue c a.motor).ending⟩ := by
  simp only [command, within, List.map_id_fun, id_eq]

theorem follows_command (c : MotorCommand) (a : Axis) : Follows [c] (command c) a := by
  obtain ⟨hpre, hall⟩ := Motor.commandsOf_issue c a.motor
  rw [Follows, command_apply]
  exact ⟨hpre, fun _ h => hall h⟩

@[simp] theorem commandsOf_pollEvents (readings : Nat → Reading) (step : UInt32)
    (first last : Nat) : commandsOf (Endstop.pollEvents readings step first last) = [] := by
  apply List.filterMap_eq_nil_iff.mpr
  intro e he
  simp only [Endstop.pollEvents, List.mem_append, List.mem_flatMap, List.mem_cons,
    List.not_mem_nil, or_false] at he
  rcases he with ⟨k, -, rfl | rfl⟩ | rfl <;> rfl

/-- Polling gives no command. -/
theorem follows_awaitEndstop (inverted : Bool) (polling : Polling) (a : Axis) :
    Follows [] (awaitEndstop inverted polling) a := by
  apply Follows.of_silent
  simp only [awaitEndstop]
  split
  · rfl
  · exact commandsOf_pollEvents _ _ _ _

/-- The commands of a turn. -/
def turnScript (speed counts : Int32) : List MotorCommand :=
  if counts = 0 then [] else [.speed speed, .turn counts, .await]

theorem follows_turn (speed counts : Int32) (a : Axis) :
    Follows (turnScript speed counts) (turn speed counts) a := by
  unfold turn turnScript
  by_cases h : counts = 0
  · rw [if_pos h, if_neg (not_not_intro h)]
    exact Follows.of_silent rfl
  · rw [if_neg h, if_pos h]
    exact (follows_command _ a).bind fun _ _ =>
      (follows_command _ _).bind fun _ _ => follows_command _ _

/-- A turn gives no commands but those of its script. -/
theorem call_of_mem_turn {speed counts : Int32} {a : Axis} {c : MotorCommand}
    (h : c ∈ commandsOf (turn speed counts a).trace) :
    c.call = .speed ∨ c.call = .turn ∨ c.call = .await := by
  have hmem := (follows_turn speed counts a).mem h
  unfold turnScript at hmem
  split at hmem
  · cases hmem
  · simp only [List.mem_cons, List.not_mem_nil, or_false] at hmem
    rcases hmem with rfl | rfl | rfl
    · exact Or.inl rfl
    · exact Or.inr (Or.inl rfl)
    · exact Or.inr (Or.inr rfl)

/-- A turn that does not crash is given to the motor when there are counts to turn by and
the motor takes the speed. -/
theorem exists_turn_mem_iff {speed counts : Int32} {a : Axis}
    (h : (turn speed counts a).ending ≠ .crashed) :
    (∃ n, .turn n ∈ commandsOf (turn speed counts a).trace) ↔
      counts ≠ 0 ∧ a.motor.fails .speed = false := by
  by_cases h0 : counts = 0
  · simp [turn, h0, pure, finish]
  have hcall : (MotorCommand.speed speed).call ≠ .turn := by simp [MotorCommand.call]
  have hspeed := Motor.issue_eq a.motor hcall
  unfold turn at h ⊢
  rw [if_pos h0] at h ⊢
  have hend : (command (.speed speed) a).ending = endingOf (a.motor.fault? .speed) := by
    rw [command_apply, hspeed]
    rfl
  rw [Motor.fails_eq_false_iff]
  cases hf : a.motor.fault? .speed with
  | some fault =>
    rw [hf] at hend
    rw [bind_of_failed hend]
    constructor
    · rintro ⟨n, hn⟩
      have hmem := (follows_command (.speed speed) a).mem hn
      simp at hmem
    · rintro ⟨-, hn⟩
      cases hn
  | none =>
    rw [hf] at hend
    rw [bind_of_done hend] at h ⊢
    -- the turn itself does not crash, so it is given, whatever comes of it
    refine ⟨fun _ => ⟨h0, rfl⟩, fun _ => ⟨counts, ?_⟩⟩
    have hturn := ending_ne_crashed_of_bind h
    rw [command_apply] at hturn
    have hgiven : commandsOf (command (.turn counts) (command (.speed speed) a).state).trace =
        [.turn counts] := by
      rw [command_apply]
      exact Motor.commandsOf_issue_of_ne_crashed hturn
    have hpre := (trace_prefix_bind (command (.turn counts)) (fun _ => command .await)
      (command (.speed speed) a).state).filterMap DeviceEvent.command?
    rw [commandsOf_append]
    refine List.mem_append_right _ (hpre.subset ?_)
    change MotorCommand.turn counts ∈ commandsOf _
    rw [hgiven]
    exact List.mem_singleton_self _

/-- The commands of driving into the endstop at a speed and back at the opposite
one. -/
def seekScript (speed : Int32) : List MotorCommand :=
  [.speed speed, .run, .speed (-speed), .run, .stop]

theorem follows_seek (polling : Polling) {a : Axis} {speed : Int32}
    (h : a.seekSpeed? = some speed) : Follows (seekScript speed) (seek polling) a := by
  have hback : ∀ (b : Axis) (f : Int32 → Act Unit), (∀ b, Follows [.speed (-speed), .run, .stop]
      (f (-speed)) b) → Follows [.speed (-speed), .run, .stop]
        (finish (.orCrash (negCounts? speed)) >>= f) b := by
    intro b f hf
    unfold negCounts?
    split
    · exact Follows.of_no_result rfl fun _ h => nomatch h
    · exact hf b
  unfold seek
  rw [Follows, get_bind_apply, h]
  -- the script is given in order; the speed for the way back may have no answer
  refine (follows_command (.speed speed) a).bind fun _ _ =>
    (follows_command .run _).bind fun _ _ =>
      (follows_awaitEndstop _ polling _).bind fun _ _ => hback _ _ ?_
  intro b
  exact (follows_command _ b).bind fun _ _ => (follows_command .run _).bind fun _ _ =>
    (follows_awaitEndstop _ polling _).bind fun _ _ => follows_command .stop _

end Axis

@[simp] theorem Extruder.command_apply (c : MotorCommand) (e : Extruder) :
    command c e = ⟨(Motor.issue c e.motor).trace, { e with motor := (Motor.issue c e.motor).state },
      (Motor.issue c e.motor).ending⟩ := by
  simp only [command, Action.within, List.map_id_fun, id_eq]

end TachoPrint
