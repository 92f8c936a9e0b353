import TachoPrint.Proofs.Binary64.Zero
import TachoPrint.Proofs.Machine.Range
import TachoPrint.Proofs.Setup.RoundTrip

/-!
# What an accepted setup guarantees

A text is accepted when it spells a setup and the setup passes every check.  The checks are
written for each parameter on its own; together they say that the setup is workable: nothing
is divided by zero, and no speed or limit is endless.  The only number that is not looked at
is the way back from the endstop of each axis, which may be anything.

## Main definitions

* `AxisSetup.Workable`, `PrinterSetup.Workable` — what the checks come to.

## Main results

* `PrinterSetup.fault?_eq_none_iff` — a setup without a fault is a workable one.
* `PrinterSetup.ofToml_eq_ok_iff` — **what an accepted setup guarantees.**
-/

namespace TachoPrint

open TachoPrint.Toml

/-- The setup of an axis. -/
def PrinterSetup.axis (p : PrinterSetup) : AxisName → AxisSetup
  | .x => p.x
  | .y => p.y
  | .z => p.z

/-! ### Checks -/

/-- Travel can be turned into motor degrees and back. -/
structure Binary64.Ratio (a : Binary64) : Prop where
  finite : a.isFinite
  ne_zero : ¬a.equals 0

/-- A speed or a limit. -/
structure Binary64.Positive (a : Binary64) : Prop where
  finite : a.isFinite
  pos : (0 : Binary64).less a

theorem Binary64.isRatio_iff {a : Binary64} : a.isRatio ↔ a.Ratio := by
  rw [isRatio, Bool.and_eq_true, Bool.not_eq_true', ← Bool.not_eq_true]
  exact ⟨fun h => ⟨h.1, h.2⟩, fun h => ⟨h.finite, h.ne_zero⟩⟩

theorem Binary64.isPositive_iff {a : Binary64} : a.isPositive ↔ a.Positive := by
  rw [isPositive, ← zero_eq, Bool.and_eq_true]
  exact ⟨fun h => ⟨h.1, h.2⟩, fun h => ⟨h.finite, h.pos⟩⟩

/-- What the checks of an axis come to. -/
structure AxisSetup.Workable (a : AxisSetup) : Prop where
  ratio : a.degreesPerMm.Ratio
  speed : a.speed.Positive
  homingSpeed : a.homing.speed.Positive

/-- What the checks of a setup come to. -/
structure PrinterSetup.Workable (p : PrinterSetup) : Prop where
  axis : ∀ name, (p.axis name).Workable
  extruder : ∀ e ∈ p.extruder, e.degreesPerMm.Ratio
  velocity : p.velocity.Positive
  travelLimit : p.travelLimit.Positive
  maxHeight : p.maxHeight.Positive
  pollInterval : 1 ≤ p.pollInterval.toNat

theorem AxisSetup.fault?_eq_none_iff {name : AxisName} {a : AxisSetup} :
    a.fault? name = none ↔ a.Workable := by
  simp only [fault?, Option.or_eq_none_iff, orFault_eq_none_iff, Binary64.isRatio_iff,
    Binary64.isPositive_iff]
  exact ⟨fun h => ⟨h.1, h.2.1, h.2.2⟩, fun h => ⟨h.ratio, h.speed, h.homingSpeed⟩⟩

theorem extruderFault?_eq_none_iff {extruder : Option ExtruderSetup} :
    extruderFault? extruder = none ↔ ∀ e ∈ extruder, e.degreesPerMm.Ratio := by
  cases extruder with
  | none => simp [extruderFault?]
  | some e => simp [extruderFault?, orFault_eq_none_iff, Binary64.isRatio_iff]

namespace PrinterSetup

variable {p : PrinterSetup} {text : String}

/-- **A setup without a fault is a workable one.** -/
theorem fault?_eq_none_iff : p.fault? = none ↔ p.Workable := by
  have hpoll : (p.pollInterval != 0) = true ↔ 1 ≤ p.pollInterval.toNat := by
    rw [bne_iff_ne, ne_eq, ← UInt32.toNat_inj]
    exact Nat.one_le_iff_ne_zero.symm
  unfold fault?
  rw [List.findSome?_eq_none_iff]
  simp only [List.mem_cons, List.not_mem_nil, or_false, id_eq, forall_eq_or_imp, forall_eq,
    AxisSetup.fault?_eq_none_iff, extruderFault?_eq_none_iff, orFault_eq_none_iff,
    Binary64.isPositive_iff, hpoll]
  constructor
  · rintro ⟨hx, hy, hz, hextruder, hvelocity, htravel, hheight, hinterval⟩
    refine ⟨?_, hextruder, hvelocity, htravel, hheight, hinterval⟩
    intro name
    cases name with
    | x => exact hx
    | y => exact hy
    | z => exact hz
  · intro h
    exact ⟨h.axis .x, h.axis .y, h.axis .z, h.extruder, h.velocity, h.travelLimit, h.maxHeight,
      h.pollInterval⟩

/-- The numbers of a workable setup are finite, but for the ways back from the endstops. -/
theorem Workable.finite_iff (h : p.Workable) :
    (∀ a ∈ p.numbers, a.isFinite) ↔ ∀ name, (p.axis name).homing.offset.isFinite := by
  have haxis : ∀ name, (∀ a ∈ (p.axis name).numbers, a.isFinite) ↔
      (p.axis name).homing.offset.isFinite := by
    intro name
    simp only [AxisSetup.numbers, HomingSetup.numbers, List.cons_append, List.nil_append,
      List.mem_cons, List.not_mem_nil, or_false, forall_eq_or_imp, forall_eq]
    constructor
    · intro hnumbers
      exact hnumbers.2.2.1
    · intro hoffset
      exact ⟨(h.axis name).speed.finite, (h.axis name).ratio.finite, hoffset,
        (h.axis name).homingSpeed.finite⟩
  rw [forall_mem_numbers]
  constructor
  · rintro ⟨-, hx, hy, hz, -⟩ name
    apply (haxis name).mp
    cases name with
    | x => exact hx
    | y => exact hy
    | z => exact hz
  · intro hoffset
    have hnumbers := fun name => (haxis name).mpr (hoffset name)
    exact ⟨⟨h.velocity.finite, h.travelLimit.finite, h.maxHeight.finite⟩, hnumbers .x,
      hnumbers .y, hnumbers .z, fun e he => (h.extruder e he).finite⟩

/-- **What an accepted setup guarantees.**  A text is accepted for a setup exactly if it spells
that setup and the setup is workable: its ratios are finite and not zero, its speeds and limits
finite and positive, and endstops are polled with breaks.  All of its numbers are finite exactly
if the ways back from the endstops are, at which no check looks. -/
theorem ofToml_eq_ok_iff (text : String) (p : PrinterSetup) :
    (ofToml text = .ok p ↔ (Toml.ofText? text).bind Setup.printer? = some p ∧ p.Workable) ∧
      (ofToml text = .ok p →
        ((∀ a ∈ p.numbers, a.isFinite) ↔ ∀ name, (p.axis name).homing.offset.isFinite)) := by
  have hchecked : ∀ q : PrinterSetup, q.checked = .ok p ↔ q = p ∧ p.Workable := by
    intro q
    unfold checked
    cases hfault : q.fault? with
    | none =>
      rw [Except.ok.injEq]
      constructor
      · rintro rfl
        exact ⟨rfl, fault?_eq_none_iff.mp hfault⟩
      · rintro ⟨rfl, -⟩
        rfl
    | some fault =>
      apply iff_of_false (by simp)
      rintro ⟨rfl, hworkable⟩
      rw [fault?_eq_none_iff.mpr hworkable] at hfault
      cases hfault
  have haccepted : ofToml text = .ok p ↔
      (Toml.ofText? text).bind Setup.printer? = some p ∧ p.Workable := by
    unfold ofToml
    cases (Toml.ofText? text).bind Setup.printer? with
    | none => simp
    | some q => rw [hchecked, Option.some.injEq]
  exact ⟨haccepted, fun h => (haccepted.mp h).2.finite_iff⟩

/-- The empty text spells the standard printer, whose numbers are all finite. -/
theorem ofToml_eq_ok_iff_empty :
    ofToml "" = .ok .standard ∧ standard.Workable ∧ ∀ a ∈ standard.numbers, a.isFinite := by
  have hread : ofToml "" = .ok .standard := by decide +kernel
  obtain ⟨haccepted, hfinite⟩ := ofToml_eq_ok_iff "" .standard
  refine ⟨hread, (haccepted.mp hread).2, (hfinite hread).mpr ?_⟩
  intro name
  cases name with
  | x => decide +kernel
  | y => decide +kernel
  | z => decide +kernel

/-- An X axis that is to be moved back without end. -/
def endlessWayText : String :=
  "[x]\nmotor_port = \"OutA\"\nsensor_port = \"In1\"\ndeg_mm_ratio = 5.0\n" ++
    "[x.calibration]\noffset = inf\n"

/-- An accepted setup may hold a number that is not finite. -/
theorem not_finite_of_ofToml :
    ¬∀ text p, ofToml text = .ok p → ∀ a ∈ p.numbers, a.isFinite := by
  intro h
  have hread : ofToml endlessWayText =
      .ok { standard with x := { standard.x with homing := { offset := .inf false } } } := by
    decide +kernel
  have hoffset : (Binary64.inf false).isFinite := h _ _ hread _ (by decide +kernel)
  cases hoffset

end PrinterSetup

end TachoPrint
