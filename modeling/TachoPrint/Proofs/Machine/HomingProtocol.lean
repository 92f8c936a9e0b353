import TachoPrint.Proofs.Machine.Orders
import TachoPrint.Proofs.Machine.Place
import TachoPrint.Proofs.Machine.Polling

/-!
# The protocol of homing

Homing is a list of commands for the motor with two waits for the endstop in it.  The motor
alone decides which commands are obeyed, and the endstop alone how long the waits are.  So
homing succeeds when the one executes the whole list and the other meets both levels in time,
and then everything that happens can be written down.

## Main definitions

* `FailedWith`, `Action.BreaksOff` — the last event of an action that fails is the command that
  failed.
* `Motor.Executes`, `Motor.executed` — a motor obeys a list of commands, and what it is then.
* `Axis.offsetScript` — the commands of the offset move.
* `Axis.seekEvents`, `Axis.homedAfter` — what a successful search leaves in the trace, and the axis
  after a successful homing.

## Main results

* `Motor.executes_append` — a list is executed when its parts are, one after the other.
* `Axis.seek_of_meets`, `Axis.seek_done_iff` — the search for the endstop.
* `Axis.home_protocol` — **what homing does, by how it ends.**
-/

namespace TachoPrint

open TachoPrint.Action

/-! ### Where an action breaks off -/

/-- None of the events is a command that failed. -/
def Unrefused (t : List DeviceEvent) : Prop := ∀ c fault, .refused c fault ∉ t

/-- The events of an action that was refused for the cause: if that is a motor, the last event is
the command that failed, with the fault that is the cause, and no other command failed. -/
def FailedWith (cause : DeviceError) (t : List DeviceEvent) : Prop :=
  (∃ fault, cause = .motor fault ∧
      ∃ before c, t = before ++ [.refused c fault] ∧ Unrefused before) ∨
    (¬cause.IsMotor ∧ Unrefused t)

@[simp] theorem unrefused_append {t u : List DeviceEvent} :
    Unrefused (t ++ u) ↔ Unrefused t ∧ Unrefused u := by
  unfold Unrefused
  simp only [List.mem_append, not_or, forall_and]

/-- A trace without events holds no command that failed. -/
@[simp] theorem unrefused_nil : Unrefused [] := fun _ _ => List.not_mem_nil

theorem FailedWith.append {cause : DeviceError} {t u : List DeviceEvent} (ht : Unrefused t)
    (hu : FailedWith cause u) : FailedWith cause (t ++ u) := by
  rcases hu with ⟨fault, hcause, before, c, rfl, hbefore⟩ | ⟨hcause, hu⟩
  · refine .inl ⟨fault, hcause, t ++ before, c, (List.append_assoc _ _ _).symm, ?_⟩
    exact unrefused_append.mpr ⟨ht, hbefore⟩
  · exact .inr ⟨hcause, unrefused_append.mpr ⟨ht, hu⟩⟩

/-- The action gives no command after one that failed. -/
structure Action.BreaksOff {σ α : Type} (x : Action DeviceEvent σ DeviceError α) : Prop where
  done : ∀ {s a}, (x s).ending = .done a → Unrefused (x s).trace
  failed : ∀ {s cause}, (x s).ending = .failed cause → FailedWith cause (x s).trace

namespace Action.BreaksOff

variable {σ α β : Type} {x : Action DeviceEvent σ DeviceError α}
  {f : α → Action DeviceEvent σ DeviceError β}

theorem bind (hx : BreaksOff x) (hf : ∀ a, BreaksOff (f a)) : BreaksOff (x >>= f) where
  done h := by
    obtain ⟨a, ha, hb⟩ := exists_of_bind_done h
    rw [bind_of_done ha]
    exact unrefused_append.mpr ⟨hx.done ha, (hf a).done hb⟩
  failed h := by
    rcases failed_of_bind_failed h with hfirst | ⟨a, ha, hsecond⟩
    · rw [bind_of_failed hfirst]
      exact hx.failed hfirst
    · rw [bind_of_done ha]
      exact ((hf a).failed hsecond).append (hx.done ha)

theorem get_bind {f : σ → Action DeviceEvent σ DeviceError β} (hf : ∀ s, BreaksOff (f s)) :
    BreaksOff (get >>= f) where
  done {s} _ h := (hf s).done h
  failed {s} _ h := (hf s).failed h

/-- What is refused for no cause and leaves no event breaks off nowhere. -/
theorem orCrash (v : Option α) :
    BreaksOff (finish (.orCrash v) : Action DeviceEvent σ DeviceError α) where
  done _ := unrefused_nil
  failed h := by cases v <;> cases h

end Action.BreaksOff

theorem Motor.breaksOff_issue (c : MotorCommand) : BreaksOff (issue c) where
  done {m} _ h := by
    rw [trace_issue_of_done h]
    intro d fault
    simp
  failed {m} cause h := by
    simp only [issue] at h ⊢
    cases hf : m.fault? c.call with
    | some fault =>
      rw [hf] at h
      obtain rfl := Outcome.failed.inj h
      exact .inl ⟨fault, rfl, [], c, rfl, unrefused_nil⟩
    | none =>
      simp only [hf] at h
      split at h <;> cases h

namespace Axis

theorem breaksOff_command (c : MotorCommand) : BreaksOff (command c) where
  done {a} _ h := by
    rw [command_apply] at h ⊢
    exact (Motor.breaksOff_issue c).done h
  failed {a} _ h := by
    rw [command_apply] at h ⊢
    exact (Motor.breaksOff_issue c).failed h

theorem unrefused_pollEvents (readings : Nat → Reading) (step : UInt32) (first last : Nat) :
    Unrefused (Endstop.pollEvents readings step first last) := by
  intro c fault hc
  have hcommand : c ∈ commandsOf (Endstop.pollEvents readings step first last) :=
    List.mem_filterMap.mpr ⟨.refused c fault, hc, rfl⟩
  rw [commandsOf_pollEvents] at hcommand
  cases hcommand

theorem breaksOff_awaitEndstop (inverted : Bool) (polling : Polling) :
    BreaksOff (awaitEndstop inverted polling) where
  done {a} _ h := by
    unfold awaitEndstop at h ⊢
    split
    · exact unrefused_nil
    · exact unrefused_pollEvents _ _ _ _
  failed {a} cause h := by
    unfold awaitEndstop at h ⊢
    split
    · next he =>
      rw [he] at h
      obtain rfl := Outcome.failed.inj h
      exact .inr ⟨by simp [DeviceError.IsMotor], unrefused_nil⟩
    · next e he =>
      refine .inr ⟨?_, unrefused_pollEvents _ _ _ _⟩
      rw [he] at h
      rintro ⟨fault, rfl⟩
      dsimp only at h
      split at h <;> cases h

theorem breaksOff_seek (polling : Polling) : BreaksOff (seek polling) := by
  refine BreaksOff.get_bind fun a => (BreaksOff.orCrash _).bind ?_
  intro speed
  refine (breaksOff_command _).bind fun _ => (breaksOff_command _).bind ?_
  intro _
  refine (breaksOff_awaitEndstop _ _).bind fun _ => (BreaksOff.orCrash _).bind ?_
  intro back
  refine (breaksOff_command _).bind fun _ => (breaksOff_command _).bind ?_
  intro _
  exact (breaksOff_awaitEndstop _ _).bind fun _ => breaksOff_command _

theorem breaksOff_turn (speed counts : Int32) : BreaksOff (turn speed counts) := by
  unfold turn
  split
  · exact (breaksOff_command _).bind fun _ => (breaksOff_command _).bind fun _ =>
      breaksOff_command _
  · exact ⟨fun _ => unrefused_nil, fun h => nomatch h⟩

end Axis

/-! ### Lists of commands -/

namespace Motor

/-- Give commands one after the other, up to the first that is not obeyed. -/
def issueAll : List MotorCommand → Action DeviceEvent Motor DeviceError Unit
  | [] => pure ()
  | c :: cs => do
      issue c
      issueAll cs

/-- The motor obeys the commands when they are given one after the other. -/
def Executes (m : Motor) (cs : List MotorCommand) : Prop := (issueAll cs m).ending = .done ()

instance (m : Motor) (cs : List MotorCommand) : Decidable (m.Executes cs) :=
  inferInstanceAs (Decidable (_ = _))

/-- The motor after commands given one after the other. -/
def executed (m : Motor) (cs : List MotorCommand) : Motor := (issueAll cs m).state

variable {m : Motor} {cs ds : List MotorCommand}

theorem issueAll_append (cs ds : List MotorCommand) :
    issueAll (cs ++ ds) = (issueAll cs >>= fun _ => issueAll ds) := by
  induction cs with
  | nil => rfl
  | cons c cs ih => rw [List.cons_append, issueAll, ih, issueAll, bind_assoc]

/-- **A list is executed when its parts are**, one after the other. -/
@[simp] theorem executes_append :
    m.Executes (cs ++ ds) ↔ m.Executes cs ∧ (m.executed cs).Executes ds := by
  unfold Executes executed
  rw [issueAll_append]
  constructor
  · intro h
    obtain ⟨_, hcs, hds⟩ := exists_of_bind_done h
    exact ⟨hcs, hds⟩
  · rintro ⟨hcs, hds⟩
    rw [bind_of_done hcs]
    exact hds

theorem executed_append (h : m.Executes cs) :
    m.executed (cs ++ ds) = (m.executed cs).executed ds := by
  unfold executed
  rw [issueAll_append, bind_of_done h]

/-- A list that is executed leaves one event for each command. -/
theorem issueAll_of_executes (h : m.Executes cs) :
    issueAll cs m = ⟨cs.map .obeyed, m.executed cs, .done ()⟩ := by
  -- on the commands, with the motor that the earlier ones leave
  induction cs generalizing m with
  | nil => rfl
  | cons c cs ih =>
    obtain ⟨_, hc, hcs⟩ := exists_of_bind_done h
    unfold executed issueAll
    rw [bind_of_done hc, trace_issue_of_done hc, ih hcs]
    rfl

end Motor

namespace Axis

/-- Give the motor commands one after the other, up to the first that is not obeyed. -/
def tell (cs : List MotorCommand) : Act Unit :=
  within (·.motor) (fun a m => { a with motor := m }) id (Motor.issueAll cs)

variable {a : Axis} {cs ds : List MotorCommand}

theorem tell_append (cs ds : List MotorCommand) :
    tell (cs ++ ds) = (tell cs >>= fun _ => tell ds) := by
  unfold tell
  rw [Motor.issueAll_append, within_bind]
  · intro _ _
    rfl
  · intro _ _ _
    rfl

@[simp] theorem tell_singleton (c : MotorCommand) : tell [c] = command c := by
  unfold tell Motor.issueAll Motor.issueAll
  rw [bind_pure]
  rfl

/-- The motor alone decides whether it executes a list. -/
theorem tell_done_iff : (tell cs a).ending = .done () ↔ a.motor.Executes cs := Iff.rfl

theorem tell_of_executes (h : a.motor.Executes cs) :
    tell cs a = ⟨cs.map .obeyed, { a with motor := a.motor.executed cs }, .done ()⟩ := by
  unfold tell within
  simp only [Motor.issueAll_of_executes h, List.map_id_fun, id_eq]

theorem setOut_eq_tell (speed : Int32) : setOut speed = tell [.speed speed, .run] := by
  have hsplit : [MotorCommand.speed speed, .run] = [.speed speed] ++ [.run] := rfl
  rw [hsplit, tell_append, tell_singleton, tell_singleton]
  rfl

theorem turn_eq_tell (speed counts : Int32) :
    turn speed counts = tell (turnScript speed counts) := by
  unfold turn turnScript
  by_cases h : counts = 0
  · rw [if_neg (not_not_intro h), if_pos h]
    rfl
  · have hsplit : [MotorCommand.speed speed, .turn counts, .await] =
        [.speed speed] ++ ([.turn counts] ++ [.await]) := rfl
    rw [if_pos h, if_neg h, hsplit, tell_append, tell_append, tell_singleton, tell_singleton,
      tell_singleton]

/-! ### The search for the endstop -/

variable {e : Endstop} {speed : Int32} {polling : Polling} {first second : Nat}

/-- What a successful search leaves: the way there up to the first reading that shows the
endstop pressed, the way back up to the first one that shows it released, and a stop. -/
def seekEvents (e : Endstop) (polling : Polling) (speed : Int32) (first second : Nat) :
    List DeviceEvent :=
  [.obeyed (.speed speed), .obeyed .run] ++
    (Endstop.pollEvents e.readings polling.step e.reads first ++
      ([.obeyed (.speed (-speed)), .obeyed .run] ++
        (Endstop.pollEvents e.readings polling.step (first + 1) second ++ [.obeyed .stop])))

theorem seekScript_eq (speed : Int32) :
    seekScript speed = [.speed speed, .run] ++ ([.speed (-speed), .run] ++ [.stop]) := rfl

/-- The search as commands and waits, if it has a speed; that of the way back may have no
answer. -/
theorem seek_eq_of_speed (hs : a.seekSpeed? = some speed) : seek polling a =
    (tell [.speed speed, .run] >>= fun _ =>
      awaitEndstop a.setup.homing.invertSensor polling >>= fun _ =>
        finish (.orCrash (negCounts? speed)) >>= fun back => tell [.speed back, .run] >>= fun _ =>
          awaitEndstop (!a.setup.homing.invertSensor) polling >>= fun _ => tell [.stop]) a := by
  simp only [seek_eq, get_bind_apply, hs, setOut_eq_tell, tell_singleton]
  rfl

theorem seek_eq_of_speeds {back : Int32} (hs : a.seekSpeed? = some speed)
    (hback : negCounts? speed = some back) : seek polling a =
      (tell [.speed speed, .run] >>= fun _ =>
        awaitEndstop a.setup.homing.invertSensor polling >>= fun _ =>
          tell [.speed back, .run] >>= fun _ =>
            awaitEndstop (!a.setup.homing.invertSensor) polling >>= fun _ => tell [.stop]) a := by
  rw [seek_eq_of_speed hs, hback]
  rfl

/-- **The search succeeds if the motor executes its commands and both levels are met in
time.** -/
theorem seek_of_meets (he : a.endstop = some e) (hs : a.seekSpeed? = some speed)
    (hmin : speed ≠ Int32.minValue) (hm : a.motor.Executes (seekScript speed))
    (hfirst : Endstop.MeetsInTime e.readings a.setup.homing.invertSensor polling e.reads first)
    (hsecond : Endstop.MeetsInTime e.readings (!a.setup.homing.invertSensor) polling (first + 1)
      second) :
    seek polling a = ⟨seekEvents e polling speed first second,
      { a with
        motor := a.motor.executed (seekScript speed)
        endstop := some { e with reads := second + 1 } }, .done ()⟩ := by
  rw [seekScript_eq] at hm ⊢
  have hout := Motor.executes_append.mp hm
  have hback := Motor.executes_append.mp hout.2
  rw [Motor.executed_append hout.1, Motor.executed_append hback.1]
  rw [seek_eq_of_speeds hs (if_neg hmin)]
  -- every step is written out; the waits leave the motor alone
  have hthere := tell_of_executes hout.1
  rw [bind_of_done (congrArg Run.ending hthere), hthere]
  have hpressed := awaitEndstop_of_meets
    (a := { a with motor := a.motor.executed [.speed speed, .run] }) he hfirst
  rw [bind_of_done (congrArg Run.ending hpressed), hpressed]
  have hreturn := tell_of_executes
    (a := { a with
      motor := a.motor.executed [.speed speed, .run]
      endstop := some { e with reads := first + 1 } }) hback.1
  rw [bind_of_done (congrArg Run.ending hreturn), hreturn]
  have hreleased := awaitEndstop_of_meets
    (a := { a with
      motor := (a.motor.executed [.speed speed, .run]).executed [.speed (-speed), .run]
      endstop := some { e with reads := first + 1 } }) rfl hsecond
  rw [bind_of_done (congrArg Run.ending hreleased), hreleased]
  have hstop := tell_of_executes
    (a := { a with
      motor := (a.motor.executed [.speed speed, .run]).executed [.speed (-speed), .run]
      endstop := some { e with reads := second + 1 } }) hback.2
  rw [hstop]
  rfl

/-- A sequence that starts with commands ends as what follows them, if the motor executes
them. -/
theorem tell_bind_ending_iff {f : Unit → Act Unit} {o : Outcome DeviceError Unit}
    (hfailed : ∀ cause, o ≠ .failed cause)
    (hcrashed : o = .crashed → (tell cs a).ending ≠ .crashed) :
    ((tell cs >>= f) a).ending = o ↔ a.motor.Executes cs ∧
      (f () { a with motor := a.motor.executed cs }).ending = o := by
  rw [bind_ending_iff hfailed hcrashed]
  constructor
  · rintro ⟨_, htell, hf⟩
    exact ⟨htell, hf⟩
  · rintro ⟨htell, hf⟩
    exact ⟨(), htell, hf⟩

/-- A sequence that starts with a wait ends as what follows it, if the level is met in time. -/
theorem await_bind_ending_iff {inverted : Bool} {f : Unit → Act Unit}
    {o : Outcome DeviceError Unit} (he : a.endstop = some e) (hfailed : ∀ cause, o ≠ .failed cause)
    (hcrashed : o = .crashed → (awaitEndstop inverted polling a).ending ≠ .crashed) :
    ((awaitEndstop inverted polling >>= f) a).ending = o ↔
      ∃ last, Endstop.MeetsInTime e.readings inverted polling e.reads last ∧
        (f () { a with endstop := some { e with reads := last + 1 } }).ending = o := by
  rw [bind_ending_iff hfailed hcrashed]
  constructor
  · rintro ⟨_, hwait, hf⟩
    obtain ⟨last, hmeets⟩ := exists_meets_of_awaitEndstop he hwait
    rw [awaitEndstop_of_meets he hmeets] at hf
    exact ⟨last, hmeets, hf⟩
  · rintro ⟨last, hmeets, hf⟩
    have hwait := awaitEndstop_of_meets he hmeets
    refine ⟨(), congrArg Run.ending hwait, ?_⟩
    rw [hwait]
    exact hf

/-- The search succeeds only then. -/
theorem seek_done_iff (he : a.endstop = some e) (hs : a.seekSpeed? = some speed)
    (hmin : speed ≠ Int32.minValue) :
    (seek polling a).ending = .done () ↔
      a.motor.Executes (seekScript speed) ∧ ∃ first second,
        Endstop.MeetsInTime e.readings a.setup.homing.invertSensor polling e.reads first ∧
        Endstop.MeetsInTime e.readings (!a.setup.homing.invertSensor) polling (first + 1)
          second := by
  constructor
  · intro h
    rw [seek_eq_of_speeds hs (if_neg hmin)] at h
    obtain ⟨hthere, h⟩ := (tell_bind_ending_iff (o := .done ()) (by simp) (by simp)).mp h
    have he' : ({ a with motor := a.motor.executed [.speed speed, .run] } : Axis).endstop =
        some e := he
    rw [await_bind_ending_iff (o := .done ()) he' (by simp) (by simp)] at h
    obtain ⟨first, hfirst, h⟩ := h
    obtain ⟨hreturn, h⟩ := (tell_bind_ending_iff (o := .done ()) (by simp) (by simp)).mp h
    rw [await_bind_ending_iff (o := .done ()) rfl (by simp) (by simp)] at h
    obtain ⟨second, hsecond, hstop⟩ := h
    refine ⟨?_, first, second, hfirst, hsecond⟩
    rw [seekScript_eq]
    exact Motor.executes_append.mpr ⟨hthere, Motor.executes_append.mpr ⟨hreturn, hstop⟩⟩
  · rintro ⟨hm, first, second, hfirst, hsecond⟩
    rw [seek_of_meets he hs hmin hm hfirst hsecond]

/-! ### The offset move -/

/-- The commands of the offset move: none if it has no counts. -/
def offsetScript (a : Axis) : List MotorCommand :=
  turnScript (a.toCounts a.setup.homing.speed.abs) (a.toCounts a.setup.homing.offset)

theorem offsetScript_of_build {b : Axis} (hs : b.setup = a.setup)
    (hc : b.countsPerTurn = a.countsPerTurn) : b.offsetScript = a.offsetScript := by
  unfold offsetScript
  rw [toCounts_of_build hs hc, toCounts_of_build hs hc, hs]

/-- The search keeps how the axis is built, so it keeps the offset move. -/
@[simp] theorem offsetScript_seek (polling : Polling) (a : Axis) :
    (seek polling a).state.offsetScript = a.offsetScript :=
  offsetScript_of_build (steady_build.seek polling a).1 (steady_build.seek polling a).2

theorem finishHome_eq (a : Axis) :
    finishHome a = (tell a.offsetScript >>= fun _ => setPosition 0) a := by
  unfold finishHome
  refine bind_congr_at ?_ fun _ _ => rfl
  rw [applyOffset_eq, turn_eq_tell]
  rfl

theorem finishHome_done_iff :
    (finishHome a).ending = .done () ↔ a.motor.Executes a.offsetScript := by
  rw [finishHome_eq]
  constructor
  · intro h
    obtain ⟨_, htell, -⟩ := exists_of_bind_done h
    exact htell
  · intro h
    rw [bind_of_done (tell_done_iff.mpr h)]
    rfl

theorem finishHome_of_executes (h : a.motor.Executes a.offsetScript) :
    finishHome a = ⟨a.offsetScript.map .obeyed,
      { a with motor := a.motor.executed a.offsetScript, position := 0 }, .done ()⟩ := by
  have htell := tell_of_executes h
  rw [finishHome_eq, bind_of_done (congrArg Run.ending htell), htell]
  simp only [setPosition, Action.modify, List.append_nil]

/-- An offset move that fails leaves the position as it is and gives its commands up to the one
that fails. -/
theorem finishHome_failed {cause : DeviceError} (h : (finishHome a).ending = .failed cause) :
    (finishHome a).state.position = a.position ∧
      commandsOf (finishHome a).trace <+: a.offsetScript ∧
        FailedWith cause (finishHome a).trace := by
  rw [finishHome_trace]
  unfold finishHome at h ⊢
  rcases failed_of_bind_failed h with hoffset | ⟨_, -, hzero⟩
  · rw [bind_of_failed hoffset]
    refine ⟨steady_position.applyOffset a, ?_, ?_⟩
    · rw [applyOffset_eq]
      exact (follows_turn _ _ a).1
    · rw [applyOffset_eq] at hoffset ⊢
      exact (breaksOff_turn _ _).failed hoffset
  · cases hzero

/-! ### Homing -/

/-- The axis after a successful homing at that speed, which looked at the endstop up to reading
`second`. -/
def homedAfter (a : Axis) (e : Endstop) (speed : Int32) (second : Nat) : Axis :=
  { a with
    motor := a.motor.executed (seekScript speed ++ a.offsetScript)
    endstop := some { e with reads := second + 1 }
    position := 0 }

/-- Homing succeeds when the search does and the offset move after it. -/
theorem home_done_iff (he : a.endstop.isSome) :
    (home polling a).ending = .done () ↔
      (seek polling a).ending = .done () ∧
        (seek polling a).state.motor.Executes a.offsetScript := by
  rw [← offsetScript_seek polling a, ← finishHome_done_iff]
  cases hs : (seek polling a).ending with
  | done u =>
    rw [home_of_seek_done he hs]
    simp
  | failed cause =>
    rw [home_of_seek_failed he hs]
    simp
  | crashed =>
    rw [home_of_seek_crashed he hs]
    simp

/-- A homing that fails leaves the position as it is.  If the search fails, its commands up to
the one that fails are followed by a stop; otherwise the whole search is followed by the commands
of the offset move up to the one that fails. -/
theorem home_failed {cause : DeviceError} (he : a.endstop = some e) (hs : a.seekSpeed? = some speed)
    (hmin : speed ≠ Int32.minValue) (h : (home polling a).ending = .failed cause) :
    (home polling a).state.position = a.position ∧ ∃ t, FailedWith cause t ∧
      ((commandsOf t <+: seekScript speed ∧ ∃ stop : DeviceEvent, stop.command? = some .stop ∧
          (home polling a).trace = t ++ [stop]) ∨
        (commandsOf t <+: a.offsetScript ∧ ∃ first second,
          (home polling a).trace = seekEvents e polling speed first second ++ t)) := by
  have hsome : a.endstop.isSome := by rw [he]; rfl
  have hposition : (seek polling a).state.position = a.position := steady_position.seek polling a
  cases hseek : (seek polling a).ending with
  | done u =>
    rw [home_of_seek_done hsome hseek] at h ⊢
    obtain ⟨hkeeps, hgiven, hfailed⟩ := finishHome_failed h
    rw [offsetScript_seek] at hgiven
    obtain ⟨hm, first, second, hfirst, hsecond⟩ := (seek_done_iff he hs hmin).mp hseek
    refine ⟨hkeeps.trans hposition, _, hfailed, .inr ⟨hgiven, first, second, ?_⟩⟩
    rw [seek_of_meets he hs hmin hm hfirst hsecond]
  | failed cause' =>
    rw [home_of_seek_failed hsome hseek] at h ⊢
    obtain rfl := Outcome.failed.inj h
    refine ⟨hposition, _, (breaksOff_seek polling).failed hseek, .inl ⟨?_, _, ?_, rfl⟩⟩
    · exact (follows_seek polling hs).1
    · exact Motor.command?_answer _ _
  | crashed =>
    rw [home_of_seek_crashed hsome hseek] at h
    cases h

/-- **What homing does.**  Let an axis have an endstop and a speed to search for it.  Then homing
succeeds exactly if the motor executes the commands of the search and of the offset move, and
the endstop is pressed and then released in time, each within a time of its own.  Everything
that it then does is written down here, and the position is zero.  If it is refused instead, the
position stays; the commands given, the last of which failed with the fault that is reported if it
was a motor that failed, are those of a successful homing up to some place, followed by a stop
unless the search was over. -/
theorem home_protocol (he : a.endstop = some e) (hs : a.seekSpeed? = some speed)
    (hmin : speed ≠ Int32.minValue) (polling : Polling) :
    ((home polling a).ending = .done () ↔
      a.motor.Executes (seekScript speed ++ a.offsetScript) ∧ ∃ first second,
        Endstop.MeetsInTime e.readings a.setup.homing.invertSensor polling e.reads first ∧
        Endstop.MeetsInTime e.readings (!a.setup.homing.invertSensor) polling (first + 1)
          second) ∧
    (∀ first second, a.motor.Executes (seekScript speed ++ a.offsetScript) →
      Endstop.MeetsInTime e.readings a.setup.homing.invertSensor polling e.reads first →
      Endstop.MeetsInTime e.readings (!a.setup.homing.invertSensor) polling (first + 1) second →
      home polling a = ⟨seekEvents e polling speed first second ++ a.offsetScript.map .obeyed,
        a.homedAfter e speed second, .done ()⟩) ∧
    ∀ cause, (home polling a).ending = .failed cause →
      (home polling a).state.position = a.position ∧ ∃ t, FailedWith cause t ∧
        ((commandsOf t <+: seekScript speed ∧ ∃ stop : DeviceEvent, stop.command? = some .stop ∧
            (home polling a).trace = t ++ [stop]) ∨
          (commandsOf t <+: a.offsetScript ∧ ∃ first second,
            (home polling a).trace = seekEvents e polling speed first second ++ t)) := by
  have hsome : a.endstop.isSome := by rw [he]; rfl
  refine ⟨?_, ?_, fun cause h => home_failed he hs hmin h⟩
  · rw [home_done_iff hsome, Motor.executes_append]
    constructor
    · rintro ⟨hseek, hoffset⟩
      obtain ⟨hm, first, second, hfirst, hsecond⟩ := (seek_done_iff he hs hmin).mp hseek
      rw [seek_of_meets he hs hmin hm hfirst hsecond] at hoffset
      exact ⟨⟨hm, hoffset⟩, first, second, hfirst, hsecond⟩
    · rintro ⟨⟨hm, hoffset⟩, first, second, hfirst, hsecond⟩
      rw [seek_of_meets he hs hmin hm hfirst hsecond]
      exact ⟨rfl, hoffset⟩
  · intro first second hexec hfirst hsecond
    obtain ⟨hm, hoffset⟩ := Motor.executes_append.mp hexec
    have hseek := seek_of_meets he hs hmin hm hfirst hsecond
    have hscript := offsetScript_seek polling a
    rw [home_of_seek_done hsome (congrArg Run.ending hseek)]
    rw [hseek] at hscript ⊢
    rw [← hscript] at hoffset
    rw [finishHome_of_executes hoffset, hscript]
    unfold homedAfter
    rw [Motor.executed_append hm]

/-- An endstop that shows it is pressed at the third look and released at the fifth. -/
def slowSwitch : Endstop := .scripted #[.low, .low, .high, .high, .low]

/-- An axis that drives backwards to its endstop and moves on by two millimetres. -/
def withSlowSwitch : Axis where
  setup :=
    { motorPort := .outA
      sensorPort := .in1
      degreesPerMm := 5
      homing := { offset := 2, invertMotor := true } }
  motor := { countsPerTurn := 360 }
  endstop := some slowSwitch
  countsPerTurn := 360
  position := 7

/-- The axis is homed with five looks, three on the way there and two on the way back. -/
theorem home_protocol_withSlowSwitch :
    withSlowSwitch.seekSpeed? = some (-50) ∧
      home .standard withSlowSwitch =
        ⟨seekEvents slowSwitch .standard (-50) 2 4 ++
            [.obeyed (.speed 50), .obeyed (.turn 10), .obeyed .await],
          withSlowSwitch.homedAfter slowSwitch (-50) 4, .done ()⟩ ∧
      (withSlowSwitch.homedAfter slowSwitch (-50) 4).position = 0 := by
  have hs : withSlowSwitch.seekSpeed? = some (-50) := by decide +kernel
  have hoffset : withSlowSwitch.offsetScript = [.speed 50, .turn 10, .await] := by decide +kernel
  obtain ⟨-, hdone, -⟩ := home_protocol rfl hs (by decide) .standard
  have hrun := hdone 2 4 (by decide +kernel) (by decide +kernel) (by decide +kernel)
  rw [hoffset] at hrun
  exact ⟨hs, hrun, rfl⟩

end Axis

end TachoPrint
