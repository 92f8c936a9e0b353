import TachoPrint.Proofs.Command.Session
import TachoPrint.Proofs.Machine.Assembly
import TachoPrint.Proofs.Machine.JointCommands

/-!
# Motors that are set moving at no speed

A motor that is set moving goes at the speed that it was last told.  That speed is rounded to
whole counts per second, and it may come to nothing although the speed of the setup is positive.
A run of a timed move is a stop then.  Homing and changes of height do not look: they set the
motor moving all the same, and wait for a motor that cannot turn.

## Main definitions

* `AtSpeed` — whenever the motor is set moving, the speed it was last told is not zero.
* `Head.Stalls` — an instruction sets a motor moving at no speed.
* `Head.StallsIn` — a program gets as far as such an instruction.
* `PrinterSetup.HasSpeeds` — the speeds of homing and of changes of height come to some counts.

## Main results

* `Head.atSpeed_execute`, `Head.stalled_execute` — one instruction.
* `Head.atSpeed_runProgram`, `Head.stalled_runProgram` — a program.
* `Head.atSpeed_printJob_iff` — **when a job sets every motor moving at some speed.**
-/

namespace TachoPrint

open TachoPrint.Action

/-! ### Speeds among commands -/

/-- The speed that a command sets. -/
def MotorCommand.speed? : MotorCommand → Option Int32
  | .speed counts => some counts
  | _ => none

/-- The speed that was set last. -/
def lastSpeed? (cs : List MotorCommand) : Option Int32 := lastSet MotorCommand.speed? cs

/-- Whenever the motor is set moving, the speed that was set last is not zero. -/
def AtSpeed (cs : List MotorCommand) : Prop :=
  ∀ before c after, cs = before ++ c :: after → c.isMotion →
    ∃ counts, lastSpeed? before = some counts ∧ counts ≠ 0

/-- The motor is told no speed and then set moving. -/
def Stalled (cs : List MotorCommand) : Prop := ∃ c, c.isMotion ∧ [.speed 0, c] <:+: cs

section

variable {cs ds : List MotorCommand} {c : MotorCommand}

@[simp] theorem lastSpeed?_append (cs ds : List MotorCommand) :
    lastSpeed? (cs ++ ds) = (lastSpeed? ds).or (lastSpeed? cs) := lastSet_append _ cs ds

/-- Commands that set nothing moving. -/
theorem atSpeed_of_still (h : ∀ c ∈ cs, ¬c.isMotion) : AtSpeed cs := by
  rintro before c after rfl hc
  exact absurd hc (h c (by simp))

theorem atSpeed_motion {counts : Int32} (hcounts : counts ≠ 0) (c : MotorCommand) :
    AtSpeed [.speed counts, c] := by
  intro before d after hsplit hd
  match before with
  | [] =>
    obtain ⟨rfl, -⟩ := List.cons.inj hsplit
    cases hd
  | [b] =>
    obtain ⟨rfl, -⟩ := List.cons.inj hsplit
    exact ⟨counts, rfl, hcounts⟩
  | _ :: _ :: before => simp at hsplit

theorem AtSpeed.append (hcs : AtSpeed cs) (hds : AtSpeed ds) : AtSpeed (cs ++ ds) := by
  intro before c after hsplit hc
  rcases List.append_eq_append_iff.mp hsplit with ⟨mid, rfl, hmid⟩ | ⟨mid, rfl, hmid⟩
  · -- the motion is one of the later commands
    obtain ⟨counts, hlast, hcounts⟩ := hds mid c after hmid hc
    exact ⟨counts, by rw [lastSpeed?_append, hlast]; rfl, hcounts⟩
  · cases mid with
    | nil =>
      obtain ⟨counts, hlast, -⟩ := hds [] c after hmid.symm hc
      cases hlast
    | cons d mid =>
      obtain ⟨rfl, rfl⟩ := List.cons.inj hmid
      exact hcs before c mid rfl hc

theorem AtSpeed.of_isPrefix (hds : AtSpeed ds) (h : cs <+: ds) : AtSpeed cs := by
  obtain ⟨rest, rfl⟩ := h
  rintro before c after rfl hc
  exact hds before c (after ++ rest) (by simp) hc

/-- A motor that is stalled is set moving at no speed. -/
theorem Stalled.not_atSpeed (h : Stalled cs) : ¬AtSpeed cs := by
  obtain ⟨c, hc, before, after, rfl⟩ := h
  intro hspeed
  obtain ⟨counts, hlast, hcounts⟩ := hspeed (before ++ [.speed 0]) c after (by simp) hc
  rw [lastSpeed?_append] at hlast
  exact hcounts (Option.some.inj hlast).symm

theorem Stalled.of_isInfix (hcs : Stalled cs) (h : cs <:+: ds) : Stalled ds := by
  obtain ⟨c, hc, hin⟩ := hcs
  exact ⟨c, hc, hin.trans h⟩

end

/-! ### Scripts -/

namespace Axis

theorem atSpeed_runScript (speed : Int32) : AtSpeed (runScript speed) := by
  unfold runScript
  split
  · exact atSpeed_of_still (by simp [MotorCommand.isMotion])
  · next h => exact atSpeed_motion h _

theorem atSpeed_turnScript {speed : Int32} (h : speed ≠ 0) (counts : Int32) :
    AtSpeed (turnScript speed counts) := by
  unfold turnScript
  split
  · exact atSpeed_of_still (by simp)
  · have hawait : AtSpeed [.await] := atSpeed_of_still (by simp [MotorCommand.isMotion])
    exact (atSpeed_motion h (.turn counts)).append hawait

theorem atSpeed_seekScript {speed : Int32} (h : speed ≠ 0) : AtSpeed (seekScript speed) := by
  have hback : -speed ≠ 0 := by simpa using h
  have hstop : AtSpeed [.stop] := atSpeed_of_still (by simp [MotorCommand.isMotion])
  exact (atSpeed_motion h .run).append ((atSpeed_motion hback .run).append hstop)

end Axis

theorem allowsRuns_atSpeed : AllowsRuns AtSpeed where
  nil := atSpeed_of_still (by simp)
  append := AtSpeed.append
  run h := (Axis.atSpeed_runScript _).of_isPrefix h

/-! ### Homing one axis -/

namespace Axis

variable {a : Axis} {polling : Polling}

/-- The axis has an endstop, and its homing speed comes to no counts. -/
def HomesAtZero (a : Axis) : Prop := a.endstop.isSome ∧ a.toCounts a.setup.homing.speed = 0

theorem seekSpeed?_ne_zero (h : a.toCounts a.setup.homing.speed ≠ 0) {speed : Int32}
    (hspeed : a.seekSpeed? = some speed) : speed ≠ 0 := by
  unfold seekSpeed? at hspeed
  dsimp only at hspeed
  split at hspeed
  · rintro rfl
    -- the opposite of no speed is none either
    have hneg := negCounts?_eq_some_iff.mp hspeed
    exact h (Int32.toInt_inj.mp (by simpa using hneg.symm))
  · exact Option.some.inj hspeed ▸ h

/-- Homing sets the motor moving at some speed, if the homing speed comes to some counts. -/
theorem atSpeed_home (hpos : a.setup.homing.speed.isPositive) (h : ¬a.HomesAtZero) :
    AtSpeed (commandsOf (home polling a).trace) := by
  cases he : a.endstop.isSome with
  | false =>
    rw [home_of_no_endstop he]
    exact allowsRuns_atSpeed.nil
  | true =>
    have hcounts : a.toCounts a.setup.homing.speed ≠ 0 := fun hzero => h ⟨he, hzero⟩
    refine home_of_seek allowsRuns_atSpeed.toAccumulates ?_ allowsRuns_atSpeed.stop ?_
    · exact seek_of_script allowsRuns_atSpeed.nil fun speed hspeed cs hcs =>
        (atSpeed_seekScript (seekSpeed?_ne_zero hcounts hspeed)).of_isPrefix hcs
    · -- the offset move goes at the homing speed, which is its own absolute value
      obtain ⟨hsetup, hturn⟩ := steady_build.seek polling a
      rw [applyOffset_eq, hsetup, toCounts_of_build hsetup hturn,
        Binary64.abs_of_isPositive hpos]
      exact (atSpeed_turnScript hcounts _).of_isPrefix (follows_turn _ _ _).1

/-- Homing that does not stall sets the motor moving. -/
theorem stalled_home (ha : a.motor.Obeys) (h : a.HomesAtZero) :
    Stalled (commandsOf (home polling a).trace) := by
  obtain ⟨he, hzero⟩ := h
  have hspeed : a.seekSpeed? = some 0 := by
    unfold seekSpeed?
    simp only [hzero]
    split
    · decide
    · rfl
  have hout : commandsOf (setOut 0 a).trace = [.speed 0, .run] := by
    have hfollows : Follows [.speed 0, .run] (setOut 0) a :=
      (follows_command _ a).bind fun _ _ => follows_command .run _
    exact hfollows.2 () ((drives_setOut 0).ending_eq ha)
  have hseek : [.speed 0, .run] <+: commandsOf (seek polling a).trace := by
    rw [← hout, seek_eq, get_bind_apply, hspeed]
    exact (trace_prefix_bind (setOut 0) _ a).filterMap _
  exact ⟨.run, rfl, (hseek.trans (seek_prefix_home he)).isInfix⟩

end Axis

namespace Head

variable {setup : PrinterSetup} {h : Head} {i : Instruction} {p : List Instruction}

/-! ### Heads with motors that obey -/

/-- A head of the setup whose motors obey and take 360 counts for a turn. -/
structure Fitted (setup : PrinterSetup) (h : Head) : Prop where
  obeys : h.Obeys
  setup_eq : ∀ n, (h.axis n).setup = setup.axis n
  countsPerTurn : ∀ n, (h.axis n).countsPerTurn = 360
  endstop : ∀ n, (h.axis n).endstop.isSome → (setup.axis n).touchSensor = true

theorem Fitted.execute (hf : h.Fitted setup) (i : Instruction) :
    (execute i h).state.Fitted setup where
  obeys := hf.obeys.execute i
  setup_eq n := ((staysDry_execute i h).axis n).setup.trans (hf.setup_eq n)
  countsPerTurn n := ((staysDry_execute i h).axis n).countsPerTurn.trans (hf.countsPerTurn n)
  endstop n hn := hf.endstop n (((staysDry_execute i h).axis n).endstop ▸ hn)

theorem Fitted.speed_isPositive (hf : h.Fitted setup) (hsetup : setup.fault? = none) :
    h.z.setup.speed.isPositive := by
  have hz : h.z.setup = setup.axis .z := hf.setup_eq .z
  rw [hz, Binary64.isPositive_iff]
  exact ((PrinterSetup.fault?_eq_none_iff.mp hsetup).axis .z).speed

theorem Fitted.homingSpeed_isPositive (hf : h.Fitted setup) (hsetup : setup.fault? = none)
    (n : AxisName) : (h.axis n).setup.homing.speed.isPositive := by
  rw [hf.setup_eq, Binary64.isPositive_iff]
  exact ((PrinterSetup.fault?_eq_none_iff.mp hsetup).axis n).homingSpeed

theorem fitted_built {hw : Hardware} (hobeys : ∀ j, (hw.motor j).Obeys)
    (hturn : ∀ j, (hw.motor j).countsPerTurn = 360) : (built setup hw).Fitted setup where
  obeys := obeys_built setup hobeys
  setup_eq n := by
    rw [axis_built]
    rfl
  countsPerTurn n := by
    rw [axis_built]
    exact hturn _
  endstop n hn := by
    rw [axis_built] at hn
    unfold Axis.built at hn
    cases ht : (setup.axis n).touchSensor with
    | true => rfl
    | false =>
      rw [ht] at hn
      cases hn

/-! ### One instruction -/

/-- The instruction sets a motor moving at no speed: it turns the vertical motor, or gets to
homing an axis, and the speed for that comes to no counts. -/
def Stalls (h : Head) : Instruction → Prop
  | .move m => h.z.toCounts h.z.setup.speed = 0 ∧
      ∃ counts, h.heightTurn m = some counts ∧ counts ≠ 0 ∧ h.z.HasRoom counts
  | .home axes => ∃ n, h.HomingReaches axes n ∧ (h.axis n).HomesAtZero
  | _ => False

theorem atSpeed_approach (hh : h.Obeys) (hspeed : h.z.setup.speed.isPositive) {m : Move}
    (hstalls : ¬h.Stalls (.move m)) (j : Joint) :
    AtSpeed (commandsAt j (approach m h).trace) := by
  by_cases hj : .axis .z = j
  · subst hj
    rw [commandsAt_approach hspeed]
    cases hturn : h.heightTurn m with
    | none => exact allowsRuns_atSpeed.nil
    | some counts =>
      change AtSpeed (commandsOf (Axis.turn _ counts h.z).trace)
      by_cases hroom : h.z.HasRoom counts
      · by_cases hcounts : counts = 0
        · subst hcounts
          exact (atSpeed_of_still (by simp [Axis.turnScript])).of_isPrefix
            (Axis.follows_turn _ 0 h.z).1
        · refine (Axis.atSpeed_turnScript ?_ counts).of_isPrefix (Axis.follows_turn _ counts h.z).1
          intro hzero
          exact hstalls ⟨hzero, counts, hturn, hcounts, hroom⟩
      · -- a turn without room is not given
        have htrace := ((Axis.turn_of_obeys (hh.axis .z) (h.z.toCounts h.z.setup.speed) counts).2
          hroom).2
        have hspeed : commandsOf (Axis.turn (h.z.toCounts h.z.setup.speed) counts h.z).trace =
            [.speed (h.z.toCounts h.z.setup.speed)] := congrArg commandsOf htrace
        rw [hspeed]
        exact atSpeed_of_still (by simp [MotorCommand.isMotion])
  · rw [silent_approach_of_ne hj]
    exact allowsRuns_atSpeed.nil

theorem atSpeed_home (hh : h.Obeys) (hpos : ∀ n, (h.axis n).setup.homing.speed.isPositive)
    {axes : AxisSet} (hstalls : ¬h.Stalls (.home axes)) (j : Joint) :
    AtSpeed (commandsAt j (home axes h).trace) := by
  cases j with
  | extruder =>
    rw [silent_home]
    exact allowsRuns_atSpeed.nil
  | axis n =>
    rw [commandsAt_home]
    split
    · next hreaches =>
      rw [Axis.commandsOf_homing (hh.axis n)]
      refine AtSpeed.append (atSpeed_of_still ?_) ?_
      · cases n <;> simp [Axis.brakeScript, MotorCommand.isMotion]
      · exact Axis.atSpeed_home (hpos n) fun hzero => hstalls ⟨n, hreaches, hzero⟩
    · exact allowsRuns_atSpeed.nil

/-- **An instruction that does not stall sets motors moving at some speed.** -/
theorem atSpeed_execute (hsetup : setup.fault? = none) (hf : h.Fitted setup)
    (hstalls : ¬h.Stalls i) (j : Joint) : AtSpeed (commandsAt j (execute i h).trace) := by
  cases i with
  | move m =>
    exact tells_move allowsRuns_atSpeed
      (atSpeed_approach hf.obeys (hf.speed_isPositive hsetup) hstalls j)
  | home axes => exact atSpeed_home hf.obeys (hf.homingSpeed_isPositive hsetup) hstalls j
  | release axes =>
    refine tells_release allowsRuns_atSpeed.toAccumulates ?_ axes h
    intro cs hcs
    exact (atSpeed_of_still (by simp [releaseScript, MotorCommand.isMotion])).of_isPrefix hcs
  | pause micros => exact tells_pause allowsRuns_atSpeed.toAccumulates micros h
  | setPositioning mode => exact allowsRuns_atSpeed.nil
  | setPosition c => exact allowsRuns_atSpeed.nil

/-- **An instruction that stalls sets a motor moving at no speed.** -/
theorem stalled_execute (hsetup : setup.fault? = none) (hf : h.Fitted setup)
    (hstalls : h.Stalls i) : ∃ j, Stalled (commandsAt j (execute i h).trace) := by
  cases i with
  | move m =>
    obtain ⟨hzero, counts, hturn, hcounts, hroom⟩ := hstalls
    have hdone := ((Axis.turn_of_obeys (hf.obeys.axis .z) 0 counts).1 hroom).1
    have hcommands : commandsAt (.axis .z) (approach m h).trace = Axis.turnScript 0 counts := by
      rw [commandsAt_approach (hf.speed_isPositive hsetup), hturn, hzero]
      exact (Axis.follows_turn 0 counts h.z).2 () hdone
    refine ⟨.axis .z, .turn counts, rfl, ?_⟩
    have hscript : [.speed 0, .turn counts] <+: commandsAt (.axis .z) (approach m h).trace := by
      rw [hcommands, Axis.turnScript, if_neg hcounts]
      exact ⟨[.await], rfl⟩
    exact (hscript.trans (approach_prefix_move m h)).isInfix
  | home axes =>
    obtain ⟨n, hreaches, hzero⟩ := hstalls
    have hstalled : Stalled (commandsOf (Axis.home h.limits.polling ((h.axis n).braked n)).trace) :=
      Axis.stalled_home (Axis.obeys_braked (hf.obeys.axis n) n) hzero
    refine ⟨.axis n, ?_⟩
    change Stalled (commandsAt (.axis n) (home axes h).trace)
    rw [commandsAt_home, if_pos hreaches, Axis.commandsOf_homing (hf.obeys.axis n)]
    exact hstalled.of_isInfix (List.suffix_append _ _).isInfix
  | _ => exact hstalls.elim

/-! ### Programs -/

/-- The program gets as far as an instruction that stalls. -/
def StallsIn (h : Head) (p : List Instruction) : Prop :=
  ∃ before i rest t h', p = before ++ i :: rest ∧ Succeeds h before t h' ∧ h'.Stalls i

theorem stallsIn_cons_iff : h.StallsIn (i :: p) ↔
    h.Stalls i ∨ (execute i h).ending = .done () ∧ (execute i h).state.StallsIn p := by
  constructor
  · rintro ⟨before, k, rest, t, h', hsplit, hbefore, hstalls⟩
    cases hbefore with
    | nil =>
      obtain ⟨rfl, -⟩ := List.cons.inj hsplit
      exact .inl hstalls
    | cons hfirst hlater =>
      obtain ⟨rfl, rfl⟩ := List.cons.inj hsplit
      exact .inr ⟨hfirst, _, k, rest, _, h', rfl, hlater, hstalls⟩
  · rintro (hstalls | ⟨hfirst, before, k, rest, t, h', rfl, hbefore, hstalls⟩)
    · exact ⟨[], i, p, [], h, rfl, .nil h, hstalls⟩
    · exact ⟨i :: before, k, rest, _, h', rfl, .cons hfirst hbefore, hstalls⟩

/-- **A program that gets to no stall sets motors moving at some speed.** -/
theorem atSpeed_runProgram (hsetup : setup.fault? = none) (hf : h.Fitted setup)
    (hstalls : ¬h.StallsIn p) (j : Joint) : AtSpeed (commandsAt j (runProgram p h).trace) := by
  induction p generalizing h with
  | nil => exact allowsRuns_atSpeed.nil
  | cons i p ih =>
    rw [stallsIn_cons_iff, not_or, not_and] at hstalls
    have hfirst := atSpeed_execute hsetup hf hstalls.1 j
    cases hend : (execute i h).ending with
    | done _ =>
      rw [runProgram_cons_of_done hend, commandsAt_append]
      exact hfirst.append (ih (hf.execute i) (hstalls.2 hend))
    | failed e =>
      rw [runProgram_cons_of_failed hend, commandsAt_append]
      exact hfirst.append (tells_stopEvents allowsRuns_atSpeed j _)
    | crashed =>
      rw [runProgram_cons_of_crashed hend]
      exact hfirst

/-- **A program that gets to a stall sets a motor moving at no speed.** -/
theorem stalled_runProgram (hsetup : setup.fault? = none) (hf : h.Fitted setup)
    (hstalls : h.StallsIn p) : ∃ j, Stalled (commandsAt j (runProgram p h).trace) := by
  induction p generalizing h with
  | nil =>
    obtain ⟨before, i, rest, t, h', hsplit, -⟩ := hstalls
    simp at hsplit
  | cons i p ih =>
    rcases stallsIn_cons_iff.mp hstalls with hfirst | ⟨hend, hlater⟩
    · obtain ⟨j, hstalled⟩ := stalled_execute hsetup hf hfirst
      refine ⟨j, hstalled.of_isInfix ?_⟩
      exact (((execute_prefix_runProgram i p h).filterMap _).filterMap _).isInfix
    · obtain ⟨j, hstalled⟩ := ih (hf.execute i) hlater
      refine ⟨j, hstalled.of_isInfix ?_⟩
      rw [runProgram_cons_of_done hend, commandsAt_append]
      exact (List.suffix_append _ _).isInfix

/-! ### Jobs -/

/-- The instructions of a job: homing every axis, unless that is skipped, and the program. -/
def jobProgram (p : List Instruction) (skip : Bool) : List Instruction :=
  if skip then p else .home .all :: p

/-- What a job that does not skip homing tells a motor. -/
theorem commandsAt_printJob (p : List Instruction) (h : Head) (j : Joint) :
    commandsAt j (printJob p false h).trace = commandsAt j (execute (.home .all) h).trace ++
      if (execute (.home .all) h).ending = .done () then
        commandsAt j (runProgram p (execute (.home .all) h).state).trace else [] := by
  have hready : h.isReady false = true ↔ (execute (.home .all) h).ending = .done () := by
    change (false || (calibrate h).ending.isDone) = true ↔ (calibrate h).ending = .done ()
    rw [Bool.false_or]
    cases (calibrate h).ending <;> simp [Outcome.isDone]
  rw [(printJob_run p false h).1, commandsAt_append]
  apply congrArg (_ ++ ·)
  by_cases hdone : (execute (.home .all) h).ending = .done ()
  · rw [if_pos hdone, if_pos (hready.mpr hdone)]
    rfl
  · rw [if_neg hdone, if_neg fun hr => hdone (hready.mp hr)]
    rfl

theorem atSpeed_printJob (hsetup : setup.fault? = none) (hf : h.Fitted setup) {skip : Bool}
    (hstalls : ¬h.StallsIn (jobProgram p skip)) (j : Joint) :
    AtSpeed (commandsAt j (printJob p skip h).trace) := by
  cases skip with
  | true => exact atSpeed_runProgram hsetup hf hstalls j
  | false =>
    obtain ⟨hhome, hlater⟩ := not_or.mp (stallsIn_cons_iff.not.mp hstalls)
    rw [commandsAt_printJob]
    apply (atSpeed_execute hsetup hf hhome j).append
    split
    · next hdone =>
      exact atSpeed_runProgram hsetup (hf.execute _) (fun hstall => hlater ⟨hdone, hstall⟩) j
    · exact allowsRuns_atSpeed.nil

theorem stalled_printJob (hsetup : setup.fault? = none) (hf : h.Fitted setup) {skip : Bool}
    (hstalls : h.StallsIn (jobProgram p skip)) :
    ∃ j, Stalled (commandsAt j (printJob p skip h).trace) := by
  cases skip with
  | true => exact stalled_runProgram hsetup hf hstalls
  | false =>
    rcases stallsIn_cons_iff.mp hstalls with hhome | ⟨hdone, hlater⟩
    · obtain ⟨j, hstalled⟩ := stalled_execute hsetup hf hhome
      refine ⟨j, hstalled.of_isInfix ?_⟩
      rw [commandsAt_printJob]
      exact (List.prefix_append _ _).isInfix
    · obtain ⟨j, hstalled⟩ := stalled_runProgram hsetup (hf.execute _) hlater
      refine ⟨j, hstalled.of_isInfix ?_⟩
      rw [commandsAt_printJob, if_pos hdone]
      exact (List.suffix_append _ _).isInfix

end Head

/-- With 360 counts for a turn, the homing speed of every axis that has an endstop comes to some
counts per second, and so does the speed of the vertical axis. -/
def PrinterSetup.HasSpeeds (setup : PrinterSetup) : Prop :=
  (∀ n, (setup.axis n).touchSensor = true →
    Gearing.toCounts ⟨(setup.axis n).degreesPerMm, 360⟩ (setup.axis n).homing.speed ≠ 0) ∧
  Gearing.toCounts ⟨setup.z.degreesPerMm, 360⟩ setup.z.speed ≠ 0

namespace Head

theorem Fitted.toCounts_eq {setup : PrinterSetup} {h : Head} (hf : h.Fitted setup) (n : AxisName)
    (mm : Binary64) :
    (h.axis n).toCounts mm = Gearing.toCounts ⟨(setup.axis n).degreesPerMm, 360⟩ mm := by
  rw [Axis.toCounts, Axis.gearing, hf.setup_eq, hf.countsPerTurn]

/-- Where the speeds come to some counts nothing stalls. -/
theorem Fitted.not_stalls {setup : PrinterSetup} {h : Head} (hf : h.Fitted setup)
    (hspeeds : setup.HasSpeeds) (i : Instruction) : ¬h.Stalls i := by
  cases i with
  | move m =>
    rintro ⟨hzero, -⟩
    have hz : h.z.setup = setup.axis .z := hf.setup_eq .z
    rw [hz] at hzero
    exact hspeeds.2 ((hf.toCounts_eq .z _).symm.trans hzero)
  | home axes =>
    rintro ⟨n, -, hendstop, hzero⟩
    rw [hf.toCounts_eq, hf.setup_eq] at hzero
    exact hspeeds.1 n (hf.endstop n hendstop) hzero
  | _ => exact id

theorem Fitted.not_stallsIn {setup : PrinterSetup} {h : Head} (hf : h.Fitted setup)
    (hspeeds : setup.HasSpeeds) (p : List Instruction) : ¬h.StallsIn p := by
  induction p generalizing h with
  | nil =>
    rintro ⟨before, i, rest, t, h', hsplit, -⟩
    simp at hsplit
  | cons i p ih =>
    rw [stallsIn_cons_iff]
    exact not_or.mpr ⟨hf.not_stalls hspeeds i, fun hlater => ih (hf.execute i) hlater.2⟩

/-- **When a job sets every motor moving at some speed.**  A head of a usable setup is put together
from motors that obey and take 360 counts for a turn, and a job runs on it, with or without
homing first.  Then each time a motor is set moving the speed that it was last told is not zero,
exactly if the job does not get as far as an instruction that stalls: a move that turns the
vertical motor although the speed of its axis comes to no counts, or a homing of an axis with an
endstop of which the homing speed comes to none.  Where these speeds come to some counts, no
job stalls. -/
theorem atSpeed_printJob_iff (setup : PrinterSetup) (hw : Hardware) (hsetup : setup.fault? = none)
    (hobeys : ∀ j, (hw.motor j).Obeys) (hturn : ∀ j, (hw.motor j).countsPerTurn = 360) :
    ∃ h, (assemble setup hw ()).ending = .done h ∧ ∀ (p : List Instruction) (skip : Bool),
      ((∀ j, AtSpeed (commandsAt j (printJob p skip h).trace)) ↔
        ¬h.StallsIn (jobProgram p skip)) ∧
      (setup.HasSpeeds → ∀ j, AtSpeed (commandsAt j (printJob p skip h).trace)) := by
  have hf : (built setup hw).Fitted setup := fitted_built hobeys hturn
  refine ⟨built setup hw, (assemble_of_obeys setup hobeys).1, fun p skip => ⟨⟨?_, ?_⟩, ?_⟩⟩
  · intro hspeed hstalls
    obtain ⟨j, hstalled⟩ := stalled_printJob hsetup hf hstalls
    exact hstalled.not_atSpeed (hspeed j)
  · exact atSpeed_printJob hsetup hf
  · intro hspeeds
    exact atSpeed_printJob hsetup hf (hf.not_stallsIn hspeeds _)

/-- No job stalls on the standard printer. -/
theorem atSpeed_printJob_iff_standard :
    PrinterSetup.standard.fault? = none ∧ PrinterSetup.standard.HasSpeeds ∧
      ∃ h, (assemble .standard simulated ()).ending = .done h ∧ ∀ p skip j,
        AtSpeed (commandsAt j (printJob p skip h).trace) := by
  have hsetup : PrinterSetup.standard.fault? = none := by decide +kernel
  have hspeeds : PrinterSetup.standard.HasSpeeds := by
    refine ⟨?_, by decide +kernel⟩
    intro n _
    cases n with
    | x => decide +kernel
    | y => decide +kernel
    | z => decide +kernel
  obtain ⟨h, hassemble, hjobs⟩ := atSpeed_printJob_iff .standard simulated hsetup
    (fun _ _ _ => rfl) fun _ => rfl
  exact ⟨hsetup, hspeeds, h, hassemble, fun p skip => (hjobs p skip).2 hspeeds⟩

/-- The standard printer with a vertical axis that takes a thousand seconds for a millimetre. -/
def sluggish : PrinterSetup :=
  { PrinterSetup.standard with z := { PrinterSetup.standard.z with speed := 0.001 } }

/-- The vertical motor is turned by 1200 counts at no speed. -/
theorem not_atSpeed_printJob :
    ¬∀ (setup : PrinterSetup) (hw : Hardware) (h : Head) (p : List Instruction) (skip : Bool),
      setup.fault? = none → (∀ j, (hw.motor j).Obeys) →
        (∀ j, (hw.motor j).countsPerTurn = 360) → (assemble setup hw ()).ending = .done h →
          ∀ j, AtSpeed (commandsAt j (printJob p skip h).trace) := by
  intro hall
  let lift : List Instruction := [.move { goal := { z := some 5 } }]
  have hspeed := hall sluggish simulated (dry sluggish) lift true (by decide +kernel)
    (fun _ _ _ => rfl) (fun _ => rfl) (assemble_simulated sluggish) (.axis .z)
  have hcommands : commandsAt (.axis .z) (printJob lift true (dry sluggish)).trace =
      [.speed 0, .turn 1200, .await] := by
    decide +kernel
  rw [hcommands] at hspeed
  exact Stalled.not_atSpeed ⟨.turn 1200, rfl, [], [.await], rfl⟩ hspeed

end Head

end TachoPrint
