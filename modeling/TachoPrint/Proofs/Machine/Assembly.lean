import TachoPrint.Proofs.Machine.Obedience
import TachoPrint.Proofs.Setup.Acceptance

/-!
# Heads put together from motors that obey

Putting a head together asks each motor for its resolution and tells it some parameters, so
with motors that obey it succeeds, and what comes of it can be written down: every device is
built as its setup says, and its motor goes on to obey.

## Main definitions

* `Axis.built`, `Extruder.built`, `Head.built` — an axis, an extruder and a head from motors
  that obey.

## Main results

* `Head.assemble_of_obeys` — **a head is put together from motors that obey**, and what the
  motors of its axes are told.
* `Head.obeys_built` — its motors obey.
-/

namespace TachoPrint

open TachoPrint.Action

/-! ### One motor -/

/-- A motor that took commands one after the other. -/
def Motor.afterAll (m : Motor) (cs : List MotorCommand) : Motor := cs.foldl Motor.after m

theorem Motor.Obeys.afterAll {m : Motor} (hm : m.Obeys) {cs : List MotorCommand}
    (hcs : ∀ c ∈ cs, c.call ≠ .turn) : (m.afterAll cs).Obeys := by
  induction cs generalizing m with
  | nil => exact hm
  | cons c cs ih =>
    obtain ⟨hc, hcs⟩ := List.forall_mem_cons.mp hcs
    exact ih (hm.after hc) hcs

/-- A motor that is asked for its resolution tells it. -/
theorem Motor.Obeys.resolution_eq {m : Motor} (hm : m.Obeys) :
    Motor.resolution m = ⟨[.obeyed .resolution], m.after .resolution, .done m.countsPerTurn⟩ := by
  have hask := hm.issue_eq (c := .resolution) (by decide)
  have hcounts : (m.after .resolution).countsPerTurn = m.countsPerTurn := by
    unfold Motor.after
    rw [hm.fails]
    rfl
  unfold Motor.resolution
  rw [bind_of_done (congrArg Run.ending hask), hask, ← hcounts]
  rfl

/-! ### Axes and extruders -/

namespace Axis

/-- What the motor of an axis is told when the axis is put together. -/
def prepareScript (setup : AxisSetup) : List MotorCommand :=
  [.resolution, .polarity (polarityOf setup), .stopAction .hold]

theorem call_of_mem_prepareScript {setup : AxisSetup} {c : MotorCommand}
    (h : c ∈ prepareScript setup) : c.call ≠ .turn := by
  simp only [prepareScript, List.mem_cons, List.not_mem_nil, or_false] at h
  rcases h with rfl | rfl | rfl
  · decide
  · exact fun hc => nomatch hc
  · decide

theorem prepare_of_obeys {m : Motor} (hm : m.Obeys) (setup : AxisSetup) :
    prepare setup m = ⟨(prepareScript setup).map .obeyed, m.afterAll (prepareScript setup),
      .done m.countsPerTurn⟩ := by
  have hask := hm.resolution_eq
  have hasked := hm.after (c := .resolution) (by decide)
  have hturn := hasked.issue_eq (c := .polarity (polarityOf setup)) (by simp [MotorCommand.call])
  have hturned := hasked.after (c := .polarity (polarityOf setup)) (by simp [MotorCommand.call])
  have hhold := hturned.issue_eq (c := .stopAction .hold) (by decide)
  unfold prepare
  rw [bind_of_done (congrArg Run.ending hask), hask, bind_of_done (congrArg Run.ending hturn),
    hturn, bind_of_done (congrArg Run.ending hhold), hhold]
  rfl

/-- An axis that has just been built with a motor that obeys. -/
def built (setup : AxisSetup) (motor : Motor) (endstop : Option Endstop) : Axis where
  setup := setup
  motor := motor.afterAll (prepareScript setup)
  endstop := if setup.touchSensor then endstop else none
  countsPerTurn := motor.countsPerTurn
  position := 0

theorem assemble_of_obeys {m : Motor} (hm : m.Obeys) (setup : AxisSetup)
    (endstop : Option Endstop) :
    assemble setup m endstop () =
      ⟨(prepareScript setup).map .obeyed, (), .done (built setup m endstop)⟩ := by
  have happart : (apart id (prepare setup) m : Action DeviceEvent Unit DeviceError _) () =
      ⟨(prepareScript setup).map .obeyed, (),
        .done (m.countsPerTurn, m.afterAll (prepareScript setup))⟩ := by
    simp only [apart, prepare_of_obeys hm, List.map_id_fun, id_eq]
  unfold assemble
  rw [bind_of_done (congrArg Run.ending happart), happart]
  rfl

end Axis

namespace Extruder

/-- What the motor of an extruder is told when the extruder is put together. -/
def prepareScript : List MotorCommand := [.resolution, .stopAction .brake]

theorem prepare_of_obeys {m : Motor} (hm : m.Obeys) :
    prepare m = ⟨prepareScript.map .obeyed, m.afterAll prepareScript, .done m.countsPerTurn⟩ := by
  have hask := hm.resolution_eq
  have hasked := hm.after (c := .resolution) (by decide)
  have hbrake := hasked.issue_eq (c := .stopAction .brake) (by decide)
  unfold prepare
  rw [bind_of_done (congrArg Run.ending hask), hask, bind_of_done (congrArg Run.ending hbrake),
    hbrake]
  rfl

/-- An extruder that has just been built with a motor that obeys. -/
def built (setup : ExtruderSetup) (motor : Motor) : Extruder where
  setup := setup
  motor := motor.afterAll prepareScript
  countsPerTurn := motor.countsPerTurn

theorem assemble_of_obeys {m : Motor} (hm : m.Obeys) (setup : ExtruderSetup) :
    assemble setup m () = ⟨prepareScript.map .obeyed, (), .done (built setup m)⟩ := by
  have happart : (apart id prepare m : Action DeviceEvent Unit DeviceError _) () =
      ⟨prepareScript.map .obeyed, (), .done (m.countsPerTurn, m.afterAll prepareScript)⟩ := by
    simp only [apart, prepare_of_obeys hm, List.map_id_fun, id_eq]
  unfold assemble
  rw [bind_of_done (congrArg Run.ending happart), happart]
  rfl

end Extruder

/-! ### Heads -/

namespace Head

variable {hw : Hardware} {setup : PrinterSetup}

/-- A head that has just been put together from motors that obey. -/
def built (setup : PrinterSetup) (hw : Hardware) : Head :=
  let axis (n : AxisName) : Axis := .built (setup.axis n) (hw.motor (.axis n)) (hw.endstop n)
  ofParts (axis .x) (axis .y) (axis .z) (setup.extruder.map fun e => .built e (hw.motor .extruder))
    setup.limits

@[simp] theorem axis_built (setup : PrinterSetup) (hw : Hardware) (n : AxisName) :
    (built setup hw).axis n = .built (setup.axis n) (hw.motor (.axis n)) (hw.endstop n) := by
  cases n <;> rfl

/-- The events of putting a device together. -/
def prepareEvents (j : Joint) (cs : List MotorCommand) : List Event :=
  (cs.map DeviceEvent.obeyed).map (Event.device j)

@[simp] theorem commandsAt_prepareEvents (j k : Joint) (cs : List MotorCommand) :
    commandsAt j (prepareEvents k cs) = if k = j then cs else [] := by
  have hcs : commandsOf (cs.map DeviceEvent.obeyed) = cs := by
    unfold commandsOf
    rw [List.filterMap_map]
    exact List.filterMap_some
  rw [prepareEvents, commandsAt_map_device, hcs]

theorem assembleAxis_of_obeys (hhw : ∀ j, (hw.motor j).Obeys) (n : AxisName) (s : AxisSetup) :
    assembleAxis hw n s () = ⟨prepareEvents (.axis n) (Axis.prepareScript s), (),
      .done (.built s (hw.motor (.axis n)) (hw.endstop n))⟩ := by
  let act : Action Event Unit DeviceError (Axis × Unit) :=
    apart (.device (.axis n)) (Axis.assemble s (hw.motor (.axis n)) (hw.endstop n)) ()
  have hact : act () = ⟨prepareEvents (.axis n) (Axis.prepareScript s), (),
      .done (.built s (hw.motor (.axis n)) (hw.endstop n), ())⟩ := by
    simp only [act, apart, Axis.assemble_of_obeys (hhw _)]
    rfl
  change (act >>= fun p => pure p.1) () = _
  rw [bind_of_done (congrArg Run.ending hact), hact]
  exact congrArg (fun t => Run.mk t () _) (List.append_nil _)

theorem assembleExtruder_of_obeys (hhw : ∀ j, (hw.motor j).Obeys) (s : Option ExtruderSetup) :
    assembleExtruder hw s () =
      ⟨s.elim [] fun _ => prepareEvents .extruder Extruder.prepareScript, (),
        .done (s.map fun e => .built e (hw.motor .extruder))⟩ := by
  cases s with
  | none => rfl
  | some e =>
    let act : Action Event Unit DeviceError (Extruder × Unit) :=
      apart (.device .extruder) (Extruder.assemble e (hw.motor .extruder)) ()
    have hact : act () = ⟨prepareEvents .extruder Extruder.prepareScript, (),
        .done (.built e (hw.motor .extruder), ())⟩ := by
      simp only [act, apart, Extruder.assemble_of_obeys (hhw _)]
      rfl
    change (act >>= fun p => pure (some p.1)) () = _
    rw [bind_of_done (congrArg Run.ending hact), hact]
    exact congrArg (fun t => Run.mk t () _) (List.append_nil _)

/-- **A head is put together from motors that obey.**  The motor of each axis is told its
polarity, and to hold its place when it is stopped. -/
theorem assemble_of_obeys (setup : PrinterSetup) (hhw : ∀ j, (hw.motor j).Obeys) :
    (assemble setup hw ()).ending = .done (built setup hw) ∧
      ∀ n, commandsAt (.axis n) (assemble setup hw ()).trace =
        Axis.prepareScript (setup.axis n) := by
  have hx := assembleAxis_of_obeys hhw .x setup.x
  have hy := assembleAxis_of_obeys hhw .y setup.y
  have hz := assembleAxis_of_obeys hhw .z setup.z
  have he := assembleExtruder_of_obeys hhw setup.extruder
  unfold assemble
  rw [bind_of_done (congrArg Run.ending hx), hx, bind_of_done (congrArg Run.ending hy), hy,
    bind_of_done (congrArg Run.ending hz), hz, bind_of_done (congrArg Run.ending he), he]
  refine ⟨rfl, ?_⟩
  intro n
  have hextruder : commandsAt (.axis n) (setup.extruder.elim [] fun _ =>
      prepareEvents .extruder Extruder.prepareScript) = [] := by
    cases setup.extruder with
    | none => rfl
    | some e => exact commandsAt_prepareEvents _ _ _
  simp only [commandsAt_append, commandsAt_prepareEvents, hextruder]
  cases n with
  | x => exact List.append_nil _
  | y => exact List.append_nil _
  | z => exact List.append_nil _

theorem obeys_built (setup : PrinterSetup) (hhw : ∀ j, (hw.motor j).Obeys) :
    (built setup hw).Obeys where
  axis n := by
    rw [axis_built]
    exact (hhw _).afterAll fun c => Axis.call_of_mem_prepareScript
  extruder e he := by
    obtain ⟨s, -, rfl⟩ := Option.map_eq_some_iff.mp he
    exact (hhw _).afterAll (by decide)

end Head

end TachoPrint
