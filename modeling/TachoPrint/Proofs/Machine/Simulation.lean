import TachoPrint.Proofs.Machine.Obedience
import TachoPrint.Proofs.Machine.Range

/-!
# Simulated hardware

The motors of a dry run obey, and its endstops change at every look.  Nothing that the
head does takes that away, so it holds of every head that a dry run reaches, however many
programs were executed before and however they ended.

## Main definitions

* `Axis.Simulated`, `Head.Dry` — an axis and a head on simulated hardware.
* `Head.dry` — the head of a setup on simulated hardware.
* `Head.DryReached` — the heads that a dry run reaches.

## Main results

* `Head.assemble_simulated` — every setup can be put together on simulated hardware.
* `Head.dry_execute`, `Head.dry_runProgram` — what is executed leaves the hardware simulated.
* `Head.dry_of_reached` — **every head that a dry run reaches is on simulated hardware.**
-/

namespace TachoPrint

open TachoPrint.Action

/-! ### Axes -/

namespace Axis

/-- The motor obeys, and the endstop changes at every look. -/
structure Simulated (a : Axis) : Prop where
  obeys : a.motor.Obeys
  toggles : ∀ e ∈ a.endstop, e.readings = Endstop.toggling.readings

/-- The axis keeps its setup and its endstop, and stays simulated. -/
structure StaysSimulated (a : Axis) (_ : List DeviceEvent) (a' : Axis) : Prop where
  setup : a'.setup = a.setup
  countsPerTurn : a'.countsPerTurn = a.countsPerTurn
  endstop : a'.endstop.isSome = a.endstop.isSome
  simulated : a.Simulated → a'.Simulated

theorem steady_staysSimulated : Steady (fun _ => True) StaysSimulated where
  chains :=
    { nil := fun _ => ⟨rfl, rfl, rfl, id⟩
      append := fun h h' => ⟨h'.setup.trans h.setup, h'.countsPerTurn.trans h.countsPerTurn,
        h'.endstop.trans h.endstop, h'.simulated ∘ h.simulated⟩ }
  command c a := by
    rw [command_apply]
    exact ⟨rfl, rfl, rfl, fun ha => ⟨ha.obeys.issue c, ha.toggles⟩⟩
  poll inverted polling a := by
    unfold awaitEndstop
    split
    · exact ⟨rfl, rfl, rfl, id⟩
    · next e he =>
      refine ⟨rfl, rfl, by rw [he]; rfl, fun ha => ⟨ha.obeys, ?_⟩⟩
      intro f hf
      -- only the number of looks is another one
      obtain rfl := Option.some.inj hf
      exact ha.toggles e he
  setPosition p _ a := ⟨rfl, rfl, rfl, fun ha => ⟨ha.obeys, ha.toggles⟩⟩

/-- An axis that has just been built on simulated hardware: its motor was asked for its
resolution and told its polarity and what stopping means. -/
def fresh (setup : AxisSetup) : Axis where
  setup := setup
  motor := { countsPerTurn := 360, tally := { resolution := 1, polarity := 1, stopAction := 1 } }
  endstop := if setup.touchSensor then some .toggling else none
  countsPerTurn := 360
  position := 0

theorem simulated_fresh (setup : AxisSetup) : (fresh setup).Simulated where
  obeys _ _ := rfl
  toggles e he := by
    unfold fresh at he
    cases ht : setup.touchSensor with
    | true =>
      rw [ht] at he
      obtain rfl := Option.some.inj he
      rfl
    | false =>
      rw [ht] at he
      cases he

end Axis

/-! ### Extruders -/

namespace Extruder

/-- The motor goes on to obey. -/
def StaysObedient (e : Extruder) (_ : List DeviceEvent) (e' : Extruder) : Prop :=
  e.motor.Obeys → e'.motor.Obeys

theorem steady_staysObedient : Steady StaysObedient where
  chains := chains_preserved fun (e : Extruder) => e.motor.Obeys
  command c e he := by
    rw [command_apply]
    exact he.issue c

/-- An extruder that has just been built on simulated hardware. -/
def fresh (setup : ExtruderSetup) : Extruder where
  setup := setup
  motor := { countsPerTurn := 360, tally := { resolution := 1, stopAction := 1 } }
  countsPerTurn := 360

end Extruder

/-! ### Heads -/

namespace Head

/-- A head on simulated hardware, with these limits and with a usable speed for itself
and for its vertical axis. -/
structure Dry (limits : HeadLimits) (h : Head) : Prop where
  axis : ∀ n, (h.axis n).Simulated
  extruder : ∀ e ∈ h.e, e.motor.Obeys
  limits_eq : h.limits = limits
  velocity : h.velocity.isPositive
  speed : h.z.setup.speed.isPositive

variable {limits : HeadLimits} {h h' : Head} {t : List Event}

theorem Dry.obeys (hd : h.Dry limits) : h.Obeys := ⟨fun n => (hd.axis n).obeys, hd.extruder⟩

/-- What a dry run keeps at each of its devices. -/
abbrev StaysDry : Head → List Event → Head → Prop :=
  Jointwise (fun _ => Axis.StaysSimulated) Extruder.StaysObedient

theorem steady_staysDry :
    Steady (fun _ _ => True) (fun _ => Axis.StaysSimulated) Extruder.StaysObedient where
  axis _ := Axis.steady_staysSimulated
  extruder := Extruder.steady_staysObedient

theorem Dry.of_staysDry (hd : h.Dry limits) (hs : StaysDry h t h') : h'.Dry limits where
  axis n := (hs.axis n).simulated (hd.axis n)
  extruder e' he' := by
    have hat := hs.extruder
    rw [Option.mem_def.mp he'] at hat
    cases he : h.e with
    | none =>
      rw [he] at hat
      exact hat.elim
    | some e =>
      rw [he] at hat
      exact hat (hd.extruder e he)
  limits_eq := hs.limits.trans hd.limits_eq
  velocity := hs.velocity hd.velocity
  speed := by
    have hsetup : h'.z.setup = h.z.setup := (hs.axis .z).setup
    rw [hsetup]
    exact hd.speed

theorem staysDry_execute (i : Instruction) : Keeps StaysDry (execute i) :=
  keeps_execute steady_staysDry i

theorem staysDry_runProgram (p : List Instruction) : Keeps StaysDry (runProgram p) :=
  keeps_runProgram steady_staysDry.chains (fun i _ => staysDry_execute i) steady_staysDry.stopAll

/-- **An instruction leaves the hardware simulated**, however it ends. -/
theorem dry_execute (hd : h.Dry limits) (i : Instruction) : (execute i h).state.Dry limits :=
  hd.of_staysDry (staysDry_execute i h)

theorem dry_runProgram (hd : h.Dry limits) (p : List Instruction) :
    (runProgram p h).state.Dry limits := hd.of_staysDry (staysDry_runProgram p h)

/-- Instructions that succeed one after the other leave the hardware simulated. -/
theorem Succeeds.dry {p : List Instruction} (hp : Succeeds h p t h') (hd : h.Dry limits) :
    h'.Dry limits := by
  have hrun := dry_runProgram hd p
  rwa [hp.runProgram_eq] at hrun

/-! ### Assembly -/

/-- The head of a setup on simulated hardware. -/
def dry (setup : PrinterSetup) : Head :=
  ofParts (.fresh setup.x) (.fresh setup.y) (.fresh setup.z) (setup.extruder.map .fresh)
    setup.limits

/-- Every setup can be put together on simulated hardware. -/
@[simp] theorem assemble_simulated (setup : PrinterSetup) :
    (assemble setup simulated ()).ending = .done (dry setup) := by
  obtain ⟨velocity, travel, height, timeout, interval, x, y, z, extruder⟩ := setup
  cases extruder with
  | none => rfl
  | some e => rfl

/-- The head of a usable setup on simulated hardware. -/
theorem dry_dry {setup : PrinterSetup} (hsetup : setup.fault? = none) :
    (dry setup).Dry setup.limits := by
  obtain ⟨hz, hl⟩ := PrinterSetup.eq_none_of_fault? hsetup
  refine ⟨?_, ?_, rfl, hl.velocity, AxisSetup.speed_isPositive hz⟩
  · intro n
    cases n with
    | x => exact Axis.simulated_fresh setup.x
    | y => exact Axis.simulated_fresh setup.y
    | z => exact Axis.simulated_fresh setup.z
  · intro e he
    obtain ⟨s, -, rfl⟩ := Option.map_eq_some_iff.mp he
    intro _ _
    rfl

/-- The heads that a dry run of a setup reaches: a head is put together on simulated
hardware and then executes instructions and programs, which may be refused, and changes its
speed.  Homing every axis is one of the instructions.  Its devices may also be used on their
own, in single steps. -/
inductive DryReached (setup : PrinterSetup) : Head → Prop where
  | assembled {h : Head} (done : (assemble setup simulated ()).ending = .done h) :
      DryReached setup h
  | executed {h : Head} (i : Instruction) (before : DryReached setup h) :
      DryReached setup (execute i h).state
  | ran {h : Head} (p : List Instruction) (before : DryReached setup h) :
      DryReached setup (runProgram p h).state
  | sped {h : Head} (velocity : Binary64) (before : DryReached setup h) :
      DryReached setup (setVelocity velocity h).state
  | commanded {h : Head} (n : AxisName) (c : MotorCommand) (before : DryReached setup h) :
      DryReached setup (onAxis n (Axis.command c) h).state
  | polled {h : Head} (n : AxisName) (inverted : Bool) (polling : Polling)
      (before : DryReached setup h) :
      DryReached setup (onAxis n (Axis.awaitEndstop inverted polling) h).state
  | placed {h : Head} (n : AxisName) (position : Binary64) (before : DryReached setup h) :
      DryReached setup (onAxis n (Axis.setPosition position) h).state
  | fed {h : Head} (c : MotorCommand) (before : DryReached setup h) :
      DryReached setup (onExtruder (Extruder.command c) h).state

/-- **Every head that a dry run reaches is on simulated hardware.** -/
theorem dry_of_reached {setup : PrinterSetup} (hsetup : setup.fault? = none)
    (hr : DryReached setup h) : h.Dry setup.limits := by
  have hsteady := Axis.steady_staysSimulated
  have hstays : ∀ {h : Head} {x : Act Unit}, h.Dry setup.limits → Keeps StaysDry x →
      (x h).state.Dry setup.limits := fun hd hx => hd.of_staysDry (hx _)
  induction hr with
  | assembled done =>
    rw [assemble_simulated] at done
    obtain rfl := Outcome.done.inj done
    exact dry_dry hsetup
  | executed i _ ih => exact dry_execute ih i
  | ran p _ ih => exact dry_runProgram ih p
  | sped velocity _ ih => exact hstays ih (steady_staysDry.setVelocity velocity)
  | commanded n c _ ih => exact hstays ih (steady_staysDry.onAxis (hsteady.command c))
  | polled n inverted polling _ ih =>
    exact hstays ih (steady_staysDry.onAxis (hsteady.poll inverted polling))
  | placed n position _ ih =>
    exact hstays ih (steady_staysDry.onAxis (hsteady.setPosition position trivial))
  | fed c _ ih =>
    exact hstays ih (steady_staysDry.onExtruder (Extruder.steady_staysObedient.command c))

end Head

end TachoPrint
