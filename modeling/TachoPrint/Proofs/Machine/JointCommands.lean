import TachoPrint.Proofs.Machine.Endings
import TachoPrint.Proofs.Machine.LeftOut
import TachoPrint.Proofs.Machine.Orders
import TachoPrint.Proofs.Machine.Simulation

/-!
# What one motor is told by an instruction

Most of what an instruction tells a motor are runs and stops.  Apart from these there are the
turn of the vertical motor in a move, the homing of an axis, and releases.  So a property of
commands that holds of runs and stops need only be looked at there.

## Main definitions

* `lastSet` — what a parameter of a motor was set to last.
* `AllowsRuns P` — runs and stops have the property, wherever they break off.
* `Head.Tells P j act` — what the action tells the motor of a joint has the property.
* `AxisName.earlier` — the axes that are homed before an axis.
* `Axis.braked` — an axis of which homing has set what stopping means.

## Main results

* `Head.tells_move` — a move, but for its approach.
* `Head.commandsAt_approach` — **the approach of a move is a turn of the vertical motor.**
* `Head.commandsAt_home` — **homing tells a motor what the homing of its axis tells it**, if that
  is reached.
* `Head.commandsAt_release` — **a release tells motors to coast and to stop.**
* `Head.Obeys.execute`, `Head.Obeys.runProgram` — motors go on to obey.
-/

namespace TachoPrint

open TachoPrint.Action

/-! ### Parameters -/

section

variable {β : Type} {read : MotorCommand → Option β} {cs ds : List MotorCommand}

/-- What a parameter of the motor was set to last; `read` tells what a command sets it to. -/
def lastSet (read : MotorCommand → Option β) (cs : List MotorCommand) : Option β :=
  (cs.filterMap read).getLast?

theorem lastSet_append (read : MotorCommand → Option β) (cs ds : List MotorCommand) :
    lastSet read (cs ++ ds) = (lastSet read ds).or (lastSet read cs) := by
  rw [lastSet, List.filterMap_append, List.getLast?_append]
  rfl

theorem lastSet_eq_none_iff : lastSet read cs = none ↔ ∀ c ∈ cs, read c = none := by
  rw [lastSet, List.getLast?_eq_none_iff, List.filterMap_eq_nil_iff]

theorem lastSet_eq_none_of_isPrefix (hcs : cs <+: ds) (hds : lastSet read ds = none) :
    lastSet read cs = none := by
  rw [lastSet_eq_none_iff] at hds ⊢
  intro c hc
  exact hds c (hcs.subset hc)

end

/-! ### Runs -/

theorem Axis.follows_runAt (velocity : Binary64) (a : Axis) :
    Follows (runScript (a.toCounts velocity)) (runAt velocity) a := by
  unfold runAt runScript
  rw [Follows, get_bind_apply]
  split
  · exact follows_command .stop a
  · exact (follows_command _ a).bind fun _ _ => follows_command .run _

namespace Extruder

theorem follows_command (c : MotorCommand) (e : Extruder) : Follows [c] (command c) e := by
  obtain ⟨hpre, hall⟩ := Motor.commandsOf_issue c e.motor
  rw [Follows, command_apply]
  exact ⟨hpre, fun _ h => hall h⟩

theorem follows_runAt (velocity : Binary64) (e : Extruder) :
    Follows (Axis.runScript (e.toCounts velocity)) (runAt velocity) e := by
  unfold runAt Axis.runScript
  rw [Follows, get_bind_apply]
  split
  · exact follows_command .stop e
  · exact (follows_command _ e).bind fun _ _ => follows_command .run _

end Extruder

/-- The commands of a release. -/
def releaseScript : List MotorCommand := [.stopAction .coast, .stop]

theorem Axis.follows_release (a : Axis) : Follows releaseScript release a :=
  (follows_command _ a).bind fun _ _ => follows_command .stop _

theorem Extruder.follows_release (e : Extruder) : Follows releaseScript release e :=
  (follows_command _ e).bind fun _ _ => follows_command .stop _

/-- The property holds of nothing and of two lists of commands one after the other, and of the
commands of a run, as far as they are given. -/
structure AllowsRuns (P : List MotorCommand → Prop) : Prop extends Accumulates P where
  run : ∀ {speed : Int32} {cs : List MotorCommand}, cs <+: Axis.runScript speed → P cs

theorem AllowsRuns.stop {P : List MotorCommand → Prop} (hP : AllowsRuns P) : P [.stop] := by
  have hstop : [MotorCommand.stop] <+: Axis.runScript 0 := List.prefix_rfl
  exact hP.run hstop

namespace Head

variable {P : List MotorCommand → Prop} {j : Joint} {α : Type} {h : Head} {m : Move}

/-! ### One joint -/

/-- What the action tells the motor of the joint has the property, however it ends. -/
def Tells (P : List MotorCommand → Prop) (j : Joint) (act : Act α) : Prop :=
  Keeps (fun _ t _ => P (commandsAt j t)) act

theorem chains_tells (hP : Accumulates P) (j : Joint) :
    Chains fun (_ : Head) (t : List Event) (_ : Head) => P (commandsAt j t) where
  nil _ := hP.nil
  append h h' := by
    rw [commandsAt_append]
    exact hP.append h h'

theorem Silent.tells (hP : Accumulates P) {act : Act α} (hact : Silent j act) :
    Tells P j act := by
  intro h
  rw [hact h]
  exact hP.nil

theorem tells_onAxis (hP : Accumulates P) {n : AxisName} {act : Axis.Act α}
    (hact : ∀ a, P (commandsOf (act a).trace)) : Tells P j (onAxis n act) := by
  by_cases hj : .axis n = j
  · subst hj
    intro h
    rw [commandsAt_onAxis]
    exact hact (h.axis n)
  · exact (silent_onAxis hj act).tells hP

theorem tells_onExtruder (hP : Accumulates P) {act : Extruder.Act Unit}
    (hact : ∀ e, P (commandsOf (act e).trace)) : Tells P j (onExtruder act) := by
  intro h
  unfold onExtruder
  split
  · exact hP.nil
  · next e he =>
    dsimp only
    rw [commandsAt_map_device]
    split
    · exact hact e
    · exact hP.nil

theorem tells_pause (hP : Accumulates P) (micros : UInt64) : Tells P j (pause micros) :=
  (silent_pause j micros).tells hP

theorem tells_stopEvents (hP : AllowsRuns P) (j : Joint) (h : Head) :
    P (commandsAt j h.stopEvents) := by
  rw [commandsAt_stopEvents]
  split
  · exact hP.stop
  · exact hP.nil

/-! ### Moves -/

theorem tells_start (hP : AllowsRuns P) (plan : Plan) : Tells P j (start plan) := by
  have haxis : ∀ (n : AxisName) (velocity : Binary64), Tells P j (onAxis n (Axis.runAt velocity)) :=
    fun n velocity => tells_onAxis hP.toAccumulates fun a =>
      hP.run (Axis.follows_runAt velocity a).1
  have hchains := chains_tells hP.toAccumulates j
  refine (haxis .x _).bind hchains fun _ => (haxis .y _).bind hchains ?_
  intro _
  exact tells_onExtruder hP.toAccumulates fun e => hP.run (Extruder.follows_runAt _ e).1

/-- A timed move runs motors and stops them. -/
theorem tells_runTimed (hP : AllowsRuns P) (plan : Plan) : Tells P j (runTimed plan) := by
  have hchains := chains_tells hP.toAccumulates j
  rw [runTimed_eq]
  apply (tells_start hP plan).attempt.bind hchains
  intro started
  apply (Keeps.optional hchains (tells_pause hP.toAccumulates _) _).bind hchains
  intro _ h
  rw [settle_trace]
  exact tells_stopEvents hP j h

/-- A move has the property if its approach has it. -/
theorem tells_move (hP : AllowsRuns P) (happroach : P (commandsAt j (approach m h).trace)) :
    P (commandsAt j (execute (.move m) h).trace) := by
  rw [move_eq]
  apply Keeps.bind_of_done (chains_tells hP.toAccumulates j) happroach
  intro _ _
  cases h.timedPlan? m with
  | none => exact hP.nil
  | some plan => exact tells_runTimed hP plan _

/-- A move starts with its approach. -/
theorem approach_prefix_move (m : Move) (h : Head) :
    commandsAt j (approach m h).trace <+: commandsAt j (execute (.move m) h).trace := by
  rw [move_eq]
  exact ((trace_prefix_bind _ _ h).filterMap _).filterMap _

/-- The approach of a move has the property if changes of height have it. -/
theorem tells_approach (hP : Accumulates P)
    (hheight : ∀ height highest a, P (commandsOf (Axis.moveToHeight height highest a).trace))
    (m : Move) : Tells P j (approach m) := by
  refine keeps_approach (chains_tells hP j) ?_
    (fun height highest => tells_onAxis hP (hheight height highest)) m
  intro velocity h
  rw [setVelocity_eq]
  split
  · exact hP.nil
  · exact hP.nil

/-- The approach of a move is about the vertical axis only. -/
theorem silent_approach_of_ne (hj : .axis .z ≠ j) (m : Move) : Silent j (approach m) := by
  refine keeps_approach (chains_silent j) ?_ (fun _ _ => silent_onAxis hj _) m
  intro velocity h
  rw [setVelocity_eq]
  split <;> rfl

theorem commandsOf_moveToHeight {a : Axis} (hspeed : a.setup.speed.isPositive)
    {height highest : Binary64} (hallowed : Axis.AllowedHeight height highest) :
    commandsOf (Axis.moveToHeight height highest a).trace =
      commandsOf (Axis.turn (a.toCounts a.setup.speed) (a.heightCounts height) a).trace := by
  rw [Axis.moveToHeight_eq hspeed hallowed]
  cases hend : (Axis.turn (a.toCounts a.setup.speed) (a.heightCounts height) a).ending with
  | done _ =>
    rw [bind_of_done hend]
    exact congrArg commandsOf (List.append_nil _)
  | failed e => rw [bind_of_failed hend]
  | crashed => rw [bind_of_crashed hend]

theorem commandsAt_raise (hspeed : h.z.setup.speed.isPositive) (plan : Plan) :
    commandsAt (.axis .z) (raise plan h).trace = (h.planTurn plan).elim [] fun n =>
      commandsOf (Axis.turn (h.z.toCounts h.z.setup.speed) n h.z).trace := by
  unfold raise planTurn
  rw [get_bind_apply]
  cases plan.target.z.equals h.position.z with
  | true => rfl
  | false =>
    simp only [Bool.not_false, Bool.false_eq_true, if_true, if_false]
    rw [commandsAt_onAxis]
    by_cases hallowed : Axis.AllowedHeight plan.target.z h.limits.height
    · rw [if_pos hallowed]
      exact commandsOf_moveToHeight hspeed hallowed
    · rw [if_neg hallowed, Axis.moveToHeight_of_refused hallowed]
      rfl

theorem commandsAt_raiseTo (hspeed : h.z.setup.speed.isPositive) (goal : Coordinates) :
    commandsAt (.axis .z) ((if !goal.isEmpty then raiseTo goal else pure ()) h).trace =
      (h.goalTurn goal).elim [] fun n =>
        commandsOf (Axis.turn (h.z.toCounts h.z.setup.speed) n h.z).trace := by
  unfold goalTurn
  cases goal.isEmpty with
  | true => rfl
  | false =>
    simp only [Bool.not_false, Bool.false_eq_true, if_true, if_false]
    unfold raiseTo
    rw [get_bind_apply]
    cases h.position.plan goal h.mode h.velocity h.limits.travel with
    | done plan => exact commandsAt_raise hspeed plan
    | failed e => rfl
    | crashed => rfl

/-- **The approach of a move is a turn of the vertical motor**, if the height changes and nothing
is refused. -/
theorem commandsAt_approach (hspeed : h.z.setup.speed.isPositive) (m : Move) :
    commandsAt (.axis .z) (approach m h).trace = (h.heightTurn m).elim [] fun n =>
      commandsOf (Axis.turn (h.z.toCounts h.z.setup.speed) n h.z).trace := by
  unfold approach heightTurn
  cases m.feed with
  | none => exact commandsAt_raiseTo hspeed m.goal
  | some feed =>
    dsimp only [Option.getD_some]
    cases hfeed : feed.isPositive with
    | true =>
      have hset := setVelocity_of_isPositive hfeed h
      rw [bind_of_done (congrArg Run.ending hset), hset]
      exact commandsAt_raiseTo (h := { h with velocity := feed }) hspeed m.goal
    | false =>
      -- nothing is planned at a speed that is refused
      have hset := setVelocity_of_not_isPositive hfeed h
      rw [bind_of_failed (congrArg Run.ending hset), hset]
      simp [goalTurn, Position.plan_of_not_isPositive hfeed, commandsAt, eventsAt]

end Head

/-! ### Homing -/

/-- The axes that are homed before an axis. -/
def AxisName.earlier : AxisName → List AxisName
  | .x => []
  | .y => [.x]
  | .z => [.x, .y]

/-- The axes that are homed after an axis. -/
def AxisName.later : AxisName → List AxisName
  | .x => [.y, .z]
  | .y => [.z]
  | .z => []

namespace Axis

variable {a : Axis} {polling : Polling}

/-- What homing tells the motor of an axis of the plane before it sets out. -/
def brakeScript : AxisName → List MotorCommand
  | .z => []
  | _ => [.stopAction .brake]

/-- The axis of which homing has set what stopping means. -/
def braked (n : AxisName) (a : Axis) : Axis :=
  { a with motor := (brakeScript n).foldl Motor.after a.motor }

theorem obeys_braked (ha : a.motor.Obeys) (n : AxisName) : (a.braked n).motor.Obeys := by
  cases n with
  | z => exact ha
  | _ => exact ha.after (c := .stopAction .brake) (by decide)

/-- Homing as the head does it is the brake and then homing. -/
theorem homing_of_obeys (ha : a.motor.Obeys) (polling : Polling) (n : AxisName) :
    homing polling n a = ⟨(brakeScript n).map .obeyed ++ (home polling (a.braked n)).trace,
      (home polling (a.braked n)).state, (home polling (a.braked n)).ending⟩ := by
  have hbrake : setStopAction .brake a = ⟨[.obeyed (.stopAction .brake)],
      { a with motor := a.motor.after (.stopAction .brake) }, .done ()⟩ := by
    rw [setStopAction, command_apply, ha.issue_eq (by decide)]
  have hplane : (setStopAction .brake >>= fun _ => home polling) a =
      ⟨[.obeyed (.stopAction .brake)] ++
        (home polling { a with motor := a.motor.after (.stopAction .brake) }).trace,
        (home polling { a with motor := a.motor.after (.stopAction .brake) }).state,
        (home polling { a with motor := a.motor.after (.stopAction .brake) }).ending⟩ := by
    rw [bind_of_done (congrArg Run.ending hbrake), hbrake]
  cases n with
  | x => exact hplane
  | y => exact hplane
  | z => rfl

theorem commandsOf_homing (ha : a.motor.Obeys) (polling : Polling) (n : AxisName) :
    commandsOf (homing polling n a).trace =
      brakeScript n ++ commandsOf (home polling (a.braked n)).trace := by
  rw [homing_of_obeys ha, commandsOf_append]
  cases n <;> rfl

/-- Homing with an endstop starts with the search for it. -/
theorem seek_prefix_home (he : a.endstop.isSome) :
    commandsOf (seek polling a).trace <+: commandsOf (home polling a).trace := by
  unfold home
  rw [get_bind_apply, if_pos he, ← attempt_trace]
  exact (trace_prefix_bind _ _ a).filterMap _

/-- Homing has a property if its search, its offset move and a stop have it. -/
theorem home_of_seek {P : List MotorCommand → Prop} (hP : Accumulates P)
    (hseek : P (commandsOf (seek polling a).trace)) (hstop : P [.stop])
    (hoffset : P (commandsOf (applyOffset (seek polling a).state).trace)) :
    P (commandsOf (home polling a).trace) := by
  cases he : a.endstop.isSome with
  | false =>
    rw [home_of_no_endstop he]
    exact hP.nil
  | true =>
    cases hs : (seek polling a).ending with
    | done _ =>
      rw [home_of_seek_done he hs, commandsOf_append, finishHome_trace]
      exact hP.append hseek hoffset
    | failed e =>
      rw [commandsOf_home_of_seek_failed he hs]
      exact hP.append hseek hstop
    | crashed =>
      unfold home
      rw [get_bind_apply, if_pos he, bind_of_crashed (attempt_of_crashed hs), attempt_trace]
      exact hseek

/-- The commands of the search are those of its script, as far as it gets. -/
theorem seek_of_script {P : List MotorCommand → Prop} (hnil : P [])
    (hscript : ∀ speed, a.seekSpeed? = some speed → ∀ cs, cs <+: seekScript speed → P cs) :
    P (commandsOf (seek polling a).trace) := by
  cases hspeed : a.seekSpeed? with
  | some speed => exact hscript speed hspeed _ (follows_seek polling hspeed).1
  | none =>
    unfold seek
    rw [get_bind_apply, hspeed]
    exact hnil

/-- A change of height has a property if turns have it. -/
theorem moveToHeight_of_turn {P : List MotorCommand → Prop} (hP : Accumulates P)
    (hturn : ∀ speed counts a, P (commandsOf (turn speed counts a).trace))
    (height highest : Binary64) (a : Axis) :
    P (commandsOf (moveToHeight height highest a).trace) := by
  have hchains : Chains fun (_ : Axis) t (_ : Axis) => P (commandsOf t) :=
    { nil := fun _ => hP.nil
      append := fun h h' => by
        rw [commandsOf_append]
        exact hP.append h h' }
  have hmove : ∀ speed, Keeps (fun _ t _ => P (commandsOf t)) (moveTo height speed) := by
    intro speed
    unfold moveTo
    split
    · exact Keeps.fail hchains _
    · refine Keeps.get_bind fun b => Keeps.bind hchains (hturn _ _) ?_
      intro _ _
      exact hP.nil
  unfold moveToHeight
  split
  · exact hP.nil
  · exact Keeps.get_bind (fun b => hmove _) a

end Axis

namespace Head

variable {P : List MotorCommand → Prop} {α : Type} {h : Head} {axes : AxisSet} {n : AxisName}

theorem homeThrough_append (axes : AxisSet) (ns ms : List AxisName) :
    homeThrough axes (ns ++ ms) = (homeThrough axes ns >>= fun _ => homeThrough axes ms) := by
  induction ns with
  | nil => rfl
  | cons n ns ih => rw [List.cons_append, homeThrough, ih, homeThrough, bind_assoc]

/-- The axis is as it was and nothing was asked of it, and endstops are polled as they were. -/
def Spared (n : AxisName) (h : Head) (t : List Event) (h' : Head) : Prop :=
  Undisturbed n h t h' ∧ h'.limits = h.limits

theorem chains_spared (n : AxisName) : Chains (Spared n) where
  nil h := ⟨(chains_undisturbed n).nil h, rfl⟩
  append h h' := ⟨(chains_undisturbed n).append h.1 h'.1, h'.2.trans h.2⟩

/-- Homing other axes leaves an axis alone. -/
theorem spared_homeThrough (axes : AxisSet) {ns : List AxisName} (hns : n ∉ ns) :
    Keeps (Spared n) (homeThrough axes ns) := by
  induction ns with
  | nil => exact Keeps.pure (chains_spared n) ()
  | cons m ns ih =>
    obtain ⟨hm, hns⟩ := not_or.mp (List.mem_cons.not.mp hns)
    refine Keeps.bind (chains_spared n) ?_ fun _ => ih hns
    intro h
    rw [homeIf_apply]
    split
    · refine ⟨⟨?_, axis_withAxis_of_ne h _ (Ne.symm hm)⟩, limits_withAxis h m _⟩
      change eventsAt _ (List.map _ _) = _
      simp [Ne.symm hm]
    · exact (chains_spared n).nil h

theorem home_eq_through (axes : AxisSet) (n : AxisName) : home axes =
    (homeThrough axes n.earlier >>= fun _ => homeIf axes n >>= fun _ =>
      homeThrough axes n.later) := by
  have hall : [AxisName.x, .y, .z] = n.earlier ++ n :: n.later := by cases n <;> rfl
  rw [home_eq_homeThrough, hall, homeThrough_append]
  rfl

/-- Homing the chosen axes gets to an axis: it is chosen, and the axes before it are homed. -/
def HomingReaches (h : Head) (axes : AxisSet) (n : AxisName) : Prop :=
  axes.has n = true ∧ (homeThrough axes n.earlier h).ending = .done ()

instance (h : Head) (axes : AxisSet) (n : AxisName) : Decidable (h.HomingReaches axes n) :=
  inferInstanceAs (Decidable (_ ∧ _))

/-- **Homing tells a motor what the homing of its axis tells it**, if that is reached. -/
theorem commandsAt_home (h : Head) (axes : AxisSet) (n : AxisName) :
    commandsAt (.axis n) (home axes h).trace = if h.HomingReaches axes n then
      commandsOf (Axis.homing h.limits.polling n (h.axis n)).trace else [] := by
  have hearlier : n ∉ n.earlier := by cases n <;> decide
  have hlater : n ∉ n.later := by cases n <;> decide
  have hsilent : Unit → Silent (.axis n) (homeThrough axes n.later) := fun _ h =>
    congrArg commandsOf (spared_homeThrough axes hlater h).1.1
  obtain ⟨⟨hquiet, haxis⟩, hlimits⟩ := spared_homeThrough axes hearlier h
  have hnone : commandsAt (.axis n) (homeThrough axes n.earlier h).trace = [] :=
    congrArg commandsOf hquiet
  rw [home_eq_through axes n]
  by_cases hdone : (homeThrough axes n.earlier h).ending = .done ()
  · rw [bind_of_done hdone, commandsAt_append, hnone, List.nil_append,
      commandsAt_bind_of_silent hsilent, homeIf_apply]
    by_cases hhas : axes.has n = true
    · rw [if_pos hhas, commandsAt_onAxis, haxis, hlimits, if_pos ⟨hhas, hdone⟩]
    · rw [if_neg hhas, if_neg fun hr => hhas hr.1]
      rfl
  · rw [if_neg fun hr => hdone hr.2]
    cases hend : (homeThrough axes n.earlier h).ending with
    | done _ => exact absurd hend hdone
    | failed e => rw [bind_of_failed hend, hnone]
    | crashed => rw [bind_of_crashed hend, hnone]

/-- A homing that succeeds gets to every chosen axis. -/
theorem homingReaches_of_done (hhas : axes.has n = true)
    (hdone : (home axes h).ending = .done ()) : h.HomingReaches axes n := by
  rw [home_eq_through axes n] at hdone
  obtain ⟨_, hearlier, -⟩ := exists_of_bind_done hdone
  exact ⟨hhas, hearlier⟩

/-! ### Releases -/

theorem tells_release {j : Joint} (hP : Accumulates P) (hscript : ∀ cs, cs <+: releaseScript → P cs)
    (axes : AxisSet) : Tells P j (release axes) := by
  have hchains := chains_tells hP j
  have haxis : ∀ n, Tells P j (onAxis n Axis.release) := fun n =>
    tells_onAxis hP fun a => hscript _ (Axis.follows_release a).1
  have hextruder : Tells P j (onExtruder Extruder.release) :=
    tells_onExtruder hP fun e => hscript _ (Extruder.follows_release e).1
  rw [release_eq]
  apply (Keeps.optional hchains (haxis .x) _).bind hchains
  intro _
  apply (Keeps.optional hchains (haxis .y) _).bind hchains
  intro _
  apply (Keeps.optional hchains (haxis .z) _).bind hchains
  intro _
  exact Keeps.optional hchains hextruder _

/-- The parts of a sequence that starts with orders to motors that obey. -/
theorem commandsAt_bind_of_drives {x : Act Unit} {f : Unit → Act α} (hx : Drives x) (hh : h.Obeys)
    (j : Joint) : (x h).state.Obeys ∧ commandsAt j ((x >>= f) h).trace =
      commandsAt j (x h).trace ++ commandsAt j (f () (x h).state).trace := by
  obtain ⟨⟨u, hdone⟩, -, hobeys⟩ := hx h hh
  refine ⟨hobeys, ?_⟩
  rw [bind_of_done hdone, commandsAt_append]

/-- What the release of an axis tells a motor, if it is asked for. -/
theorem commandsAt_optional_release (hh : h.Obeys) (m n : AxisName) (c : Bool) :
    commandsAt (.axis n) ((if c then onAxis m Axis.release else pure ()) h).trace =
      if m = n then (if c then releaseScript else []) else [] := by
  by_cases hmn : m = n
  · subst hmn
    rw [if_pos rfl]
    cases c with
    | false => rfl
    | true =>
      change commandsAt (.axis m) (onAxis m Axis.release h).trace = releaseScript
      rw [commandsAt_onAxis]
      exact (Axis.follows_release _).2 () (Axis.drives_release.ending_eq (hh.axis m))
  · rw [if_neg hmn]
    exact (silent_onAxis (fun hj => hmn (Joint.axis.inj hj)) _).optional _ h

/-- **A release tells the motors of the chosen axes to coast and to stop**, if they obey. -/
theorem commandsAt_release (hh : h.Obeys) (axes : AxisSet) (n : AxisName) :
    commandsAt (.axis n) (release axes h).trace = if axes.has n then releaseScript else [] := by
  have hdrives : ∀ (m : AxisName) (c : Bool),
      Drives (if c then onAxis m Axis.release else pure ()) := fun m c =>
    drives_optional (drives_onAxis m Axis.drives_release) _
  have hextruder : Silent (.axis n) (if axes.isAll then onExtruder Extruder.release else pure ()) :=
    (silent_onExtruder n _).optional _
  obtain ⟨hx, hfirst⟩ := commandsAt_bind_of_drives (hdrives .x axes.x) hh (.axis n)
  obtain ⟨hy, hsecond⟩ := commandsAt_bind_of_drives (hdrives .y axes.y) hx (.axis n)
  rw [release_eq, hfirst, hsecond, commandsAt_bind_of_silent fun _ => hextruder,
    commandsAt_optional_release hh, commandsAt_optional_release hx, commandsAt_optional_release hy]
  cases n with
  | x => exact List.append_nil _
  | y => exact List.append_nil _
  | z => rfl

/-! ### Motors that go on to obey -/

theorem steady_obeys : Steady (fun _ _ => True)
    (fun _ a _ a' => a.motor.Obeys → a'.motor.Obeys) Extruder.StaysObedient where
  axis _ := Axis.steady_obeys
  extruder := Extruder.steady_staysObedient

/-- **Motors go on to obey**, whatever is executed. -/
theorem Obeys.execute (hh : h.Obeys) (i : Instruction) : (execute i h).state.Obeys := by
  have hkeeps := keeps_execute steady_obeys i h
  refine ⟨fun n => hkeeps.axis n (hh.axis n), ?_⟩
  intro e' he'
  have hat := hkeeps.extruder
  rw [Option.mem_def.mp he'] at hat
  cases he : h.e with
  | none =>
    rw [he] at hat
    exact hat.elim
  | some e =>
    rw [he] at hat
    exact hat (hh.extruder e he)

/-- Telling every motor to stop leaves them obeying. -/
theorem keeps_obeys_stopAll : Keeps (fun h _ h' => h.Obeys → h'.Obeys) stopAll := fun h hh => by
  rw [stopAll_eq]
  exact hh.halted

theorem Obeys.runProgram (hh : h.Obeys) (p : List Instruction) : (runProgram p h).state.Obeys :=
  keeps_runProgram (chains_preserved Obeys) (fun i _ _ hg => hg.execute i) keeps_obeys_stopAll h hh

end Head

end TachoPrint
