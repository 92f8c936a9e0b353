import TachoPrint.Proofs.Machine.Assembly
import TachoPrint.Proofs.Machine.JointCommands

/-!
# What stopping means to a motor

Whether a motor that is stopped turns freely, brakes or holds its place is the stop action that
it was told last.  Putting a head together tells the motors of its axes to hold, a release tells
a motor to coast, and homing tells a motor of the plane to brake.  Nothing else sets it.  So
homing an axis of the plane takes its release back.  Homing the vertical axis does not: once it
was released it coasts from then on.

## Main definitions

* `lastStopAction?` — the stop action that was set last.
* `Head.setsStopAction?` — the stop action that an instruction sets.
* `Head.BrakesAtMost` — no stop action is set but the brake.
* `Head.begun` — the instructions that a program gets to.
* `Head.History` — what heads go through from the time that they are put together.
* `Head.homedStopAction` — the stop action of an axis that has been homed.

## Main results

* `Head.lastStopAction?_execute` — one instruction.
* `Head.lastStopAction?_vertical`, `Head.brakesAtMost_runProgram` — a program.
* `Head.History.lastStopAction?_eq` — the vertical motor in a history.
* `Head.stopAction_after_home` — **what stopping means to the motor of an axis after homing.**
-/

namespace TachoPrint

open TachoPrint.Action

/-! ### Stop actions among commands -/

/-- The stop action that a command sets. -/
def MotorCommand.stopAction? : MotorCommand → Option StopAction
  | .stopAction action => some action
  | _ => none

/-- The stop action that was set last. -/
def lastStopAction? (cs : List MotorCommand) : Option StopAction :=
  lastSet MotorCommand.stopAction? cs

@[simp] theorem lastStopAction?_append (cs ds : List MotorCommand) :
    lastStopAction? (cs ++ ds) = (lastStopAction? ds).or (lastStopAction? cs) :=
  lastSet_append _ cs ds

theorem lastStopAction?_eq_none_of_isPrefix {cs ds : List MotorCommand} (hcs : cs <+: ds)
    (hds : lastStopAction? ds = none) : lastStopAction? cs = none :=
  lastSet_eq_none_of_isPrefix hcs hds

/-- Runs and stops set no stop action. -/
theorem allowsRuns_noStopAction : AllowsRuns (lastStopAction? · = none) where
  nil := rfl
  append {cs ds} hcs hds := by
    rw [lastStopAction?_append, hcs, hds]
    rfl
  run hcs := by
    refine lastStopAction?_eq_none_of_isPrefix hcs ?_
    unfold Axis.runScript
    split
    · rfl
    · rfl

namespace Axis

@[simp] theorem noStopAction_turn (speed counts : Int32) (a : Axis) :
    lastStopAction? (commandsOf (turn speed counts a).trace) = none := by
  refine lastStopAction?_eq_none_of_isPrefix (follows_turn speed counts a).1 ?_
  unfold turnScript
  split
  · rfl
  · rfl

/-- Homing an axis sets no stop action on its own. -/
@[simp] theorem noStopAction_home (polling : Polling) (a : Axis) :
    lastStopAction? (commandsOf (home polling a).trace) = none := by
  have hseek : lastStopAction? (commandsOf (seek polling a).trace) = none :=
    seek_of_script (P := (lastStopAction? · = none)) rfl fun _ _ _ hcs =>
      lastStopAction?_eq_none_of_isPrefix hcs rfl
  apply home_of_seek allowsRuns_noStopAction.toAccumulates hseek rfl
  rw [applyOffset_eq]
  exact noStopAction_turn _ _ _

/-- Homing as the head does it sets the brake in the plane. -/
theorem lastStopAction?_homing {a : Axis} (ha : a.motor.Obeys) (polling : Polling)
    (n : AxisName) : lastStopAction? (commandsOf (homing polling n a).trace) =
      if n = .z then none else some .brake := by
  rw [commandsOf_homing ha, lastStopAction?_append, noStopAction_home, Option.none_or]
  cases n with
  | x => rfl
  | y => rfl
  | z => rfl

end Axis

/-- True of the releases of an axis. -/
def Instruction.releases (n : AxisName) : Instruction → Bool
  | .release axes => axes.has n
  | _ => false

namespace Head

variable {setup : PrinterSetup} {hw : Hardware} {h h' : Head} {is p : List Instruction}
  {t t' : List Event} {n : AxisName} {axes : AxisSet}

/-! ### One instruction -/

/-- The stop action that an instruction sets at the motor of an axis. -/
def setsStopAction? (h : Head) (n : AxisName) : Instruction → Option StopAction
  | .home axes => if h.HomingReaches axes n ∧ n ≠ .z then some .brake else none
  | .release axes => if axes.has n then some .coast else none
  | _ => none

/-- **An instruction sets the stop action in a release, and in the homing of an axis of the
plane.** -/
theorem lastStopAction?_execute (hh : h.Obeys) (i : Instruction) (n : AxisName) :
    lastStopAction? (commandsAt (.axis n) (execute i h).trace) = h.setsStopAction? n i := by
  cases i with
  | move m =>
    have happroach := tells_approach (j := .axis n) allowsRuns_noStopAction.toAccumulates
      (Axis.moveToHeight_of_turn allowsRuns_noStopAction.toAccumulates Axis.noStopAction_turn) m
    exact tells_move allowsRuns_noStopAction (happroach h)
  | pause micros => exact tells_pause allowsRuns_noStopAction.toAccumulates micros h
  | setPositioning mode => rfl
  | setPosition c => rfl
  | home axes =>
    change lastStopAction? (commandsAt (.axis n) (home axes h).trace) =
      if h.HomingReaches axes n ∧ n ≠ .z then some .brake else none
    rw [commandsAt_home]
    by_cases hreaches : h.HomingReaches axes n
    · rw [if_pos hreaches, Axis.lastStopAction?_homing (hh.axis n)]
      by_cases hz : n = .z
      · rw [if_pos hz, if_neg fun hc => hc.2 hz]
      · rw [if_neg hz, if_pos ⟨hreaches, hz⟩]
    · rw [if_neg hreaches, if_neg fun hc => hreaches hc.1]
      rfl
  | release axes =>
    change lastStopAction? (commandsAt (.axis n) (release axes h).trace) =
      if axes.has n then some .coast else none
    rw [commandsAt_release hh]
    split
    · rfl
    · rfl

/-- At the vertical motor only a release sets the stop action. -/
theorem setsStopAction?_vertical (h : Head) (i : Instruction) :
    h.setsStopAction? .z i = if i.releases .z then some .coast else none := by
  cases i with
  | home axes => exact if_neg fun hc => hc.2 rfl
  | _ => rfl

/-- No stop action is set but the brake, and none at the vertical axis. -/
def BrakesAtMost (n : AxisName) (action : Option StopAction) : Prop :=
  action = none ∨ n ≠ .z ∧ action = some .brake

theorem BrakesAtMost.or {earlier later : Option StopAction} (hlater : BrakesAtMost n later)
    (hearlier : BrakesAtMost n earlier) : BrakesAtMost n (later.or earlier) := by
  rcases hlater with rfl | ⟨hn, rfl⟩
  · exact hearlier
  · exact .inr ⟨hn, rfl⟩

/-- What does not release an axis brakes it at most. -/
theorem brakesAtMost_setsStopAction? {i : Instruction} (hi : i.releases n = false) (h : Head) :
    BrakesAtMost n (h.setsStopAction? n i) := by
  cases i with
  | home axes =>
    by_cases hc : h.HomingReaches axes n ∧ n ≠ .z
    · exact .inr ⟨hc.2, if_pos hc⟩
    · exact .inl (if_neg hc)
  | release axes =>
    have hhas : axes.has n = false := hi
    refine .inl (if_neg ?_)
    rw [hhas]
    decide
  | _ => exact .inl rfl

theorem lastStopAction?_stopEvents (h : Head) (n : AxisName) :
    lastStopAction? (commandsAt (.axis n) h.stopEvents) = none :=
  tells_stopEvents allowsRuns_noStopAction _ h

/-! ### Programs -/

/-- The instructions that a program gets to: those that succeed, and the first that does not. -/
def begun : List Instruction → Head → List Instruction
  | [], _ => []
  | i :: rest, h =>
      i :: if (execute i h).ending = .done () then begun rest (execute i h).state else []

theorem begun_cons_of_done {i : Instruction} (hi : (execute i h).ending = .done ())
    (rest : List Instruction) : begun (i :: rest) h = i :: begun rest (execute i h).state := by
  rw [begun, if_pos hi]

theorem begun_cons_of_ne_done {i : Instruction} (hi : (execute i h).ending ≠ .done ())
    (rest : List Instruction) : begun (i :: rest) h = [i] := by
  rw [begun, if_neg hi]

/-- A program that succeeds gets to all of its instructions. -/
theorem Succeeds.begun_eq (hp : Succeeds h p t h') : begun p h = p := by
  induction hp with
  | nil h => rfl
  | cons first later ih => rw [begun_cons_of_done first, ih]

/-- **A program makes the vertical motor coast if it gets to a release**, and sets no stop action
there otherwise. -/
theorem lastStopAction?_vertical (hh : h.Obeys) (p : List Instruction) :
    lastStopAction? (commandsAt (.axis .z) (runProgram p h).trace) =
      if (begun p h).any (·.releases .z) then some .coast else none := by
  induction p generalizing h with
  | nil => rfl
  | cons i p ih =>
    have hfirst := lastStopAction?_execute hh i .z
    rw [setsStopAction?_vertical] at hfirst
    -- an instruction that fails is the last one, and the stops after it set no stop action
    have hlast : (execute i h).ending ≠ .done () →
        (begun (i :: p) h).any (·.releases .z) = i.releases .z := fun hne => by
      rw [begun_cons_of_ne_done hne, List.any_cons, List.any_nil, Bool.or_false]
    cases hend : (execute i h).ending with
    | done _ =>
      rw [runProgram_cons_of_done hend, commandsAt_append, lastStopAction?_append, hfirst,
        ih (hh.execute i), begun_cons_of_done hend, List.any_cons]
      cases i.releases .z <;> cases (begun p (execute i h).state).any (·.releases .z) <;> rfl
    | failed e =>
      rw [runProgram_cons_of_failed hend, commandsAt_append, lastStopAction?_append, hfirst,
        lastStopAction?_stopEvents, Option.none_or, hlast (by rw [hend]; nofun)]
    | crashed => rw [runProgram_cons_of_crashed hend, hfirst, hlast (by rw [hend]; nofun)]

/-- **A program without a release of an axis brakes it at most.** -/
theorem brakesAtMost_runProgram (hh : h.Obeys) (hp : ∀ i ∈ p, i.releases n = false) :
    BrakesAtMost n (lastStopAction? (commandsAt (.axis n) (runProgram p h).trace)) := by
  have hchains : Chains fun (h : Head) t (h' : Head) => h.Obeys →
      h'.Obeys ∧ BrakesAtMost n (lastStopAction? (commandsAt (.axis n) t)) :=
    { nil := fun _ hh => ⟨hh, .inl rfl⟩
      append := fun hfirst hlater hh => by
        obtain ⟨hh₂, hbrakes⟩ := hfirst hh
        obtain ⟨hh₃, hbrakes'⟩ := hlater hh₂
        rw [commandsAt_append, lastStopAction?_append]
        exact ⟨hh₃, hbrakes'.or hbrakes⟩ }
  refine (keeps_runProgram hchains (fun i hi h hh => ⟨hh.execute i, ?_⟩) ?_ h hh).2
  · rw [lastStopAction?_execute hh]
    exact brakesAtMost_setsStopAction? (hp i hi) h
  · intro h hh
    rw [stopAll_eq]
    exact ⟨hh.halted, .inl (lastStopAction?_stopEvents h n)⟩

/-! ### Histories -/

/-- What a head of the setup went through since it was put together: the instructions that it
got to, alone and in programs, and the events. -/
inductive History (setup : PrinterSetup) (hw : Hardware) :
    List Instruction → List Event → Head → Prop where
  | assembled {h : Head} (done : (assemble setup hw ()).ending = .done h) :
      History setup hw [] (assemble setup hw ()).trace h
  | executed {is : List Instruction} {t : List Event} {h : Head} (i : Instruction)
      (before : History setup hw is t h) :
      History setup hw (is ++ [i]) (t ++ (execute i h).trace) (execute i h).state
  | ran {is : List Instruction} {t : List Event} {h : Head} (p : List Instruction)
      (before : History setup hw is t h) :
      History setup hw (is ++ begun p h) (t ++ (runProgram p h).trace) (runProgram p h).state

/-- The stop action of the vertical axis after some instructions. -/
def verticalStopAction (is : List Instruction) : StopAction :=
  if is.any (·.releases .z) then .coast else .hold

theorem verticalStopAction_append (is js : List Instruction) :
    (if js.any (·.releases .z) then some StopAction.coast else none).or
      (some (verticalStopAction is)) = some (verticalStopAction (is ++ js)) := by
  unfold verticalStopAction
  rw [List.any_append]
  cases is.any (·.releases .z) <;> cases js.any (·.releases .z) <;> rfl

namespace History

/-- A history goes on with instructions that succeed. -/
theorem succeeded (hist : History setup hw is t h) (hp : Succeeds h p t' h') :
    History setup hw (is ++ p) (t ++ t') h' := by
  have hran := hist.ran p
  rwa [hp.runProgram_eq, hp.begun_eq] at hran

theorem obeys (hist : History setup hw is t h) (hobeys : ∀ j, (hw.motor j).Obeys) : h.Obeys := by
  induction hist with
  | assembled done =>
    rw [(assemble_of_obeys setup hobeys).1] at done
    obtain rfl := Outcome.done.inj done
    exact obeys_built setup hobeys
  | executed i _ ih => exact ih.execute i
  | ran p _ ih => exact ih.runProgram p

/-- **The vertical motor holds its place until it is released, and coasts from then on.** -/
theorem lastStopAction?_eq (hist : History setup hw is t h) (hobeys : ∀ j, (hw.motor j).Obeys) :
    lastStopAction? (commandsAt (.axis .z) t) = some (verticalStopAction is) := by
  induction hist with
  | assembled done =>
    rw [(assemble_of_obeys setup hobeys).2]
    rfl
  | @executed is t h i before ih =>
    rw [commandsAt_append, lastStopAction?_append, ih,
      lastStopAction?_execute (before.obeys hobeys), setsStopAction?_vertical,
      ← verticalStopAction_append, List.any_cons, List.any_nil, Bool.or_false]
  | ran p before ih =>
    rw [commandsAt_append, lastStopAction?_append, ih,
      lastStopAction?_vertical (before.obeys hobeys), verticalStopAction_append]

end History

/-- The stop action of an axis that has been homed after some instructions. -/
def homedStopAction (is : List Instruction) : AxisName → StopAction
  | .z => verticalStopAction is
  | _ => .brake

/-- Homing an axis sets its stop action in the plane, and leaves it alone at the vertical axis. -/
theorem History.lastStopAction?_homed (hist : History setup hw is t h)
    (hobeys : ∀ j, (hw.motor j).Obeys) (hdone : (execute (.home axes) h).ending = .done ())
    (hhas : axes.has n = true) :
    lastStopAction? (commandsAt (.axis n) (t ++ (execute (.home axes) h).trace)) =
      some (homedStopAction is n) := by
  have hreaches : h.HomingReaches axes n := homingReaches_of_done hhas hdone
  have hplane : n ≠ .z → h.setsStopAction? n (.home axes) = some .brake :=
    fun hn => if_pos ⟨hreaches, hn⟩
  rw [commandsAt_append, lastStopAction?_append, lastStopAction?_execute (hist.obeys hobeys)]
  cases n with
  | x => exact congrArg (Option.or · _) (hplane (by decide))
  | y => exact congrArg (Option.or · _) (hplane (by decide))
  | z =>
    rw [setsStopAction?_vertical, hist.lastStopAction?_eq hobeys]
    rfl

/-- **What stopping means to the motor of an axis after homing.**  A head is put together from
motors that obey, and executes instructions and programs.  Then a program homes an axis, which
succeeds, and whatever follows in that program does not release the axis.  After that an axis of
the plane brakes when it is stopped.  The vertical axis holds its place if it was never released
since the head was put together, and otherwise turns freely: homing does not take that back. -/
theorem stopAction_after_home (hobeys : ∀ j, (hw.motor j).Obeys)
    (hist : History setup hw is t h) (before later : List Instruction)
    (hdone : (runProgram (before ++ [.home axes]) h).ending = .done ()) (hhas : axes.has n = true)
    (hlater : ∀ i ∈ later, i.releases n = false) :
    lastStopAction? (commandsAt (.axis n)
        (t ++ (runProgram (before ++ .home axes :: later) h).trace)) =
      some (homedStopAction (is ++ before) n) := by
  obtain ⟨u, h₂, hs⟩ := (runProgram_done_iff _ h).mp hdone
  have hhist := hist.succeeded hs
  have hhomed : lastStopAction? (commandsAt (.axis n) (t ++ u)) =
      some (homedStopAction (is ++ before) n) := by
    obtain ⟨t₁, h₁, t₂, hbefore, hhome, rfl⟩ := hs.of_append
    cases hhome with
    | cons hfirst hrest =>
      cases hrest
      rw [List.append_nil, ← List.append_assoc]
      exact (hist.succeeded hbefore).lastStopAction?_homed hobeys hfirst hhas
  -- what follows may set the brake once more, but only in the plane
  have hsplit : before ++ .home axes :: later = (before ++ [.home axes]) ++ later := by simp
  rw [hsplit, hs.runProgram_append, ← List.append_assoc, commandsAt_append, lastStopAction?_append,
    hhomed]
  rcases brakesAtMost_runProgram (hhist.obeys hobeys) hlater with hnone | ⟨hn, hbrake⟩
  · rw [hnone, Option.none_or]
  · rw [hbrake]
    cases n with
    | z => exact absurd rfl hn
    | _ => rfl

/-- Every axis of the standard printer is released and homed, and then there is a move. -/
theorem stopAction_after_home_released :
    (runProgram [.release .all, .home .all] (dry .standard)).ending = .done () ∧
      ∀ n, lastStopAction? (commandsAt (.axis n) ((assemble .standard simulated ()).trace ++
        (runProgram [.release .all, .home .all, .move { goal := { x := some 10 } }]
          (dry .standard)).trace)) = some (if n = .z then .coast else .brake) := by
  have hdone : (runProgram [.release .all, .home .all] (dry .standard)).ending = .done () := by
    decide +kernel
  refine ⟨hdone, ?_⟩
  intro n
  have hhas : AxisSet.all.has n = true := by cases n <;> rfl
  have hlast := stopAction_after_home (fun _ _ _ => rfl) (.assembled (assemble_simulated .standard))
    [.release .all] [.move { goal := { x := some 10 } }] hdone hhas
    fun i hi => by rw [List.mem_singleton.mp hi]; rfl
  apply hlast.trans
  cases n <;> rfl

/-- The vertical axis is released and homed, and turns freely. -/
theorem not_stopAction_after_home :
    ¬∀ (setup : PrinterSetup) (hw : Hardware) (is : List Instruction) (t : List Event) (h : Head)
      (before : List Instruction) (axes : AxisSet) (n : AxisName), (∀ j, (hw.motor j).Obeys) →
        History setup hw is t h → (runProgram (before ++ [.home axes]) h).ending = .done () →
          axes.has n = true → ∃ action, (action = .brake ∨ action = .hold) ∧
            lastStopAction? (commandsAt (.axis n)
              (t ++ (runProgram (before ++ [.home axes]) h).trace)) = some action := by
  intro hall
  let height : AxisSet := ⟨false, false, true⟩
  obtain ⟨action, hengaged, hlast⟩ := hall .standard simulated [] _ (dry .standard)
    [.release height] height .z (fun _ _ _ => rfl) (.assembled (assemble_simulated .standard))
    (by decide +kernel) rfl
  have hcoast : lastStopAction? (commandsAt (.axis .z) ((assemble .standard simulated ()).trace ++
      (runProgram ([.release height] ++ [.home height]) (dry .standard)).trace)) =
        some .coast := by
    decide +kernel
  rw [hcoast] at hlast
  obtain rfl := Option.some.inj hlast
  exact absurd hengaged (by decide)

end Head

end TachoPrint
