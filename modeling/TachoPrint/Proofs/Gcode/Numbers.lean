import TachoPrint.Gcode.Program
import TachoPrint.Proofs.Binary64.Value
import TachoPrint.Proofs.Motion.Plan

/-!
# The numbers of a program

A word whose value is not finite is refused, and a feed rate for a second is no more than
the one for a minute.  So every number in a program that is read is finite.

## Main definitions

* `Instruction.numbers` — the numbers of an instruction.
* `Instruction.Finite` — all of them are finite.

## Main results

* `Gcode.Command.finite_of_instruction` — a command with parameters gives finite numbers.
* `Instruction.finite_of_ofBytes` — **every number in a program is finite.**
-/

namespace TachoPrint

/-! ### Numbers of instructions -/

/-- The numbers that coordinates give. -/
def Coordinates.numbers (c : Coordinates) : List Binary64 :=
  c.x.toList ++ c.y.toList ++ c.z.toList ++ c.e.toList

theorem Coordinates.forall_mem_numbers {P : Binary64 → Prop} {c : Coordinates} :
    (∀ a ∈ c.numbers, P a) ↔
      (∀ a ∈ c.x, P a) ∧ (∀ a ∈ c.y, P a) ∧ (∀ a ∈ c.z, P a) ∧ ∀ a ∈ c.e, P a := by
  simp [numbers, or_imp, forall_and]

theorem Coordinates.finite_iff {c : Coordinates} : c.Finite ↔ ∀ a ∈ c.numbers, a.isFinite :=
  forall_mem_numbers.symm

theorem Coordinates.finite_empty : ({} : Coordinates).Finite := by
  simp [Finite]

namespace Instruction

/-- The numbers of an instruction. -/
def numbers : Instruction → List Binary64
  | .move m => m.goal.numbers ++ m.feed.toList
  | .setPosition c => c.numbers
  | _ => []

/-- Every number of the instruction is finite. -/
def Finite (i : Instruction) : Prop := ∀ a ∈ i.numbers, a.isFinite

instance (i : Instruction) : Decidable i.Finite := inferInstanceAs (Decidable (∀ a ∈ _, _))

theorem forall_mem_numbers_move {P : Binary64 → Prop} {m : Move} :
    (∀ a ∈ (move m).numbers, P a) ↔ (∀ a ∈ m.goal.numbers, P a) ∧ ∀ v ∈ m.feed, P v := by
  simp [numbers, or_imp, forall_and]

theorem finite_move_iff {m : Move} :
    (move m).Finite ↔ m.goal.Finite ∧ ∀ v ∈ m.feed, v.isFinite := by
  rw [Finite, forall_mem_numbers_move, Coordinates.finite_iff]

theorem finite_setPosition_iff {c : Coordinates} : (setPosition c).Finite ↔ c.Finite :=
  Coordinates.finite_iff.symm

end Instruction

/-! ### Words -/

instance decidableEqExcept {ε α : Type} [DecidableEq ε] [DecidableEq α] :
    DecidableEq (Except ε α)
  | .ok a, .ok b => decidable_of_iff (a = b) ⟨congrArg _, Except.ok.inj⟩
  | .error e, .error f => decidable_of_iff (e = f) ⟨congrArg _, Except.error.inj⟩
  | .ok _, .error _ => .isFalse (by simp)
  | .error _, .ok _ => .isFalse (by simp)

/-- A sequence succeeds when its parts do. -/
theorem bind_eq_ok_iff {ε α β : Type} {x : Except ε α} {f : α → Except ε β} {b : β} :
    (x >>= f) = .ok b ↔ ∃ a, x = .ok a ∧ f a = .ok b := by
  cases x with
  | error e => simp [bind, Except.bind]
  | ok a => simp [bind, Except.bind]

namespace Gcode

theorem Word.isFinite_of_number {w : Word} {a : Binary64} (h : w.number = .ok a) :
    a.isFinite := by
  unfold number at h
  split at h
  · cases h
  · split at h
    · split at h
      · next hfinite =>
        obtain rfl := Except.ok.inj h
        exact hfinite
      · cases h
    · cases h

/-- What every step of a fold keeps holds of its result. -/
theorem of_foldlM_ok {ε α β : Type} {P : β → Prop} {step : β → α → Except ε β}
    (hstep : ∀ {b a b'}, P b → step b a = .ok b' → P b') {l : List α} {b b' : β} (hb : P b)
    (h : l.foldlM step b = .ok b') : P b' := by
  induction l generalizing b with
  | nil =>
    obtain rfl := Except.ok.inj h
    exact hb
  | cons a l ih =>
    rw [List.foldlM_cons, bind_eq_ok_iff] at h
    obtain ⟨c, hc, hrest⟩ := h
    exact ih (hstep hb hc) hrest

/-- A word replaces one coordinate by its value, or none. -/
theorem finite_of_coordinateStep {c c' : Coordinates} {w : Word} (hc : c.Finite)
    (h : coordinateStep c w = .ok c') : c'.Finite := by
  obtain ⟨hx, hy, hz, he⟩ := hc
  have hvalue : ∀ {a : Binary64}, w.number = .ok a → ∀ p ∈ some a, p.isFinite := by
    rintro a ha p hp
    obtain rfl := Option.some.inj hp
    exact Word.isFinite_of_number ha
  unfold coordinateStep at h
  split at h
  all_goals first
    | obtain ⟨a, ha, hend⟩ := bind_eq_ok_iff.mp h
      obtain rfl := Except.ok.inj hend
    | obtain rfl := Except.ok.inj h
  · exact ⟨hvalue ha, hy, hz, he⟩
  · exact ⟨hx, hvalue ha, hz, he⟩
  · exact ⟨hx, hy, hvalue ha, he⟩
  · exact ⟨hx, hy, hz, hvalue ha⟩
  · exact ⟨hx, hy, hz, he⟩

/-- A feed rate for a second is no more than the one for a minute. -/
theorem isFinite_div_sixty {a : Binary64} (h : a.isFinite) : (a / 60).isFinite := by
  obtain ⟨hsixty, hliteral⟩ := Binary64.ofRatio_natCast false (n := 60) (by decide)
  change (a / Binary64.ofRatio false 60 1).isFinite
  rw [hliteral]
  exact Binary64.isFinite_div h (Nat.mul_le_mul_right Binary64.one (by decide)) false hsixty

theorem finite_of_moveStep {m m' : Move} {w : Word} (hm : (Instruction.move m).Finite)
    (h : moveStep m w = .ok m') : (Instruction.move m').Finite := by
  rw [Instruction.finite_move_iff] at hm ⊢
  unfold moveStep at h
  split at h
  · obtain ⟨a, ha, hfeed⟩ := bind_eq_ok_iff.mp h
    split at hfeed
    · obtain rfl := Except.ok.inj hfeed
      exact hm
    · obtain rfl := Except.ok.inj hfeed
      refine ⟨hm.1, ?_⟩
      intro v hv
      obtain rfl := Option.some.inj hv
      exact isFinite_div_sixty (Word.isFinite_of_number ha)
  · obtain ⟨c, hc, hgoal⟩ := bind_eq_ok_iff.mp h
    obtain rfl := Except.ok.inj hgoal
    exact ⟨finite_of_coordinateStep hm.1 hc, hm.2⟩

/-! ### Lines and programs -/

theorem finite_zeroCoordinates : zeroCoordinates.Finite := by
  have hzero : ∀ p ∈ some (0 : Binary64), p.isFinite := by
    rintro p hp
    obtain rfl := Option.some.inj hp
    exact Binary64.isFinite_zero
  exact ⟨hzero, hzero, hzero, hzero⟩

/-- **A command with parameters gives finite numbers.** -/
theorem Command.finite_of_instruction {c : Command} {ws : List Word} {i : Instruction}
    (h : c.instruction ws = .ok i) : i.Finite := by
  cases c with
  | move =>
    simp only [instruction, bind_eq_ok_iff] at h
    obtain ⟨m, hm, hi⟩ := h
    cases hi
    refine of_foldlM_ok (P := fun m => (Instruction.move m).Finite) finite_of_moveStep ?_ hm
    exact Instruction.finite_move_iff.mpr ⟨Coordinates.finite_empty, by simp⟩
  | pause =>
    simp only [instruction, bind_eq_ok_iff] at h
    obtain ⟨micros, -, hi⟩ := h
    cases hi
    exact List.forall_mem_nil _
  | setPosition =>
    simp only [instruction, bind_eq_ok_iff] at h
    obtain ⟨c, hc, hi⟩ := h
    cases hi
    rw [Instruction.finite_setPosition_iff]
    split
    · exact finite_zeroCoordinates
    · exact of_foldlM_ok finite_of_coordinateStep Coordinates.finite_empty hc
  | home | absolute | relative | release =>
    cases h
    exact List.forall_mem_nil _

theorem finite_of_instructionOf? {ws : List Word} {i : Instruction}
    (h : instructionOf? ws = .ok (some i)) : i.Finite := by
  unfold instructionOf? at h
  split at h
  · cases h
  · split at h
    · cases h
    · obtain ⟨j, hj, hi⟩ := bind_eq_ok_iff.mp h
      obtain rfl := Option.some.inj (Except.ok.inj hi)
      exact Command.finite_of_instruction hj

theorem finite_of_instructionOfBytes? {n : Nat} {line : List UInt8} {i : Instruction}
    (h : instructionOfBytes? n line = .ok (some i)) : i.Finite := by
  unfold instructionOfBytes? at h
  split at h
  · cases h
  · next text _ =>
    cases hi : Instruction.ofLine? text with
    | error e =>
      rw [hi] at h
      cases h
    | ok found =>
      rw [hi] at h
      obtain rfl := Except.ok.inj h
      exact finite_of_instructionOf? hi

theorem finite_of_instructionsFrom {read p : List Instruction} {n : Nat}
    {lines : List (List UInt8)} (hread : ∀ i ∈ read, i.Finite)
    (h : instructionsFrom read n lines = .ok p) : ∀ i ∈ p, i.Finite := by
  induction lines generalizing read n with
  | nil =>
    obtain rfl := Except.ok.inj h
    simpa using hread
  | cons line lines ih =>
    unfold instructionsFrom at h
    split at h
    · cases h
    · exact ih hread h
    · next i hi => exact ih (List.forall_mem_cons.mpr ⟨finite_of_instructionOfBytes? hi, hread⟩) h

end Gcode

/-- **Every number in a program is finite.** -/
theorem Instruction.finite_of_ofBytes {bytes : List UInt8} {p : List Instruction}
    (h : ofBytes bytes = .ok p) : ∀ i ∈ p, i.Finite :=
  Gcode.finite_of_instructionsFrom (by simp) h

end TachoPrint
