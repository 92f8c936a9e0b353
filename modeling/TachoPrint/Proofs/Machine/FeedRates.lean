import TachoPrint.Proofs.Machine.Program

/-!
# Feed rates on their own

A feed rate comes with the coordinates of a move, or in a move of its own before it.  A
program does the same either way: the feed rate is what a move looks at first, and a move
that states nothing else is over then.

## Main definitions

* `Instruction.isMixed` — the moves with a feed rate and coordinates.
* `Instruction.feedFirst` — such a move as two, the feed rate first.
* `Head.Expands i p` — wherever `i` stands in a program, `p` may stand.

## Main results

* `Head.expands_of_sequence` — an instruction that does what two others do one after the
  other.
* `Head.runProgram_flatMap` — instructions may be replaced one by one.
* `Head.runProgram_feedFirst` — **feed rates may be moved in front.**
-/

namespace TachoPrint

open TachoPrint.Action

namespace Instruction

/-- A move with a feed rate and at least one coordinate. -/
def isMixed : Instruction → Bool
  | .move m => m.feed.isSome && !m.goal.isEmpty
  | _ => false

/-- A move with a feed rate and coordinates as two moves: the feed rate alone, and then
the coordinates alone.  Other instructions stay. -/
def feedFirst (i : Instruction) : List Instruction :=
  match i with
  | .move m => if i.isMixed then [.move { feed := m.feed }, .move { goal := m.goal }] else [i]
  | _ => [i]

theorem feedFirst_of_not_isMixed {i : Instruction} (h : i.isMixed = false) :
    i.feedFirst = [i] := by
  cases i with
  | move m => simp [feedFirst, h]
  | _ => rfl

/-- No move that is left has both. -/
theorem isMixed_of_mem_feedFirst {i j : Instruction} (h : j ∈ i.feedFirst) :
    j.isMixed = false := by
  cases hi : i.isMixed with
  | false =>
    rw [feedFirst_of_not_isMixed hi, List.mem_singleton] at h
    rw [h, hi]
  | true =>
    cases i with
    | move m =>
      simp only [feedFirst, hi, if_true, List.mem_cons, List.not_mem_nil, or_false] at h
      rcases h with rfl | rfl
      · -- a feed rate without coordinates
        simp [isMixed, Coordinates.isEmpty]
      · -- coordinates without a feed rate
        simp [isMixed]
    | _ => cases hi

end Instruction

namespace Head

/-! ### Replacing instructions -/

/-- Wherever the instruction stands in a program, the others may stand in its place. -/
def Expands (i : Instruction) (p : List Instruction) : Prop :=
  ∀ rest h, runProgram (p ++ rest) h = runProgram (i :: rest) h

/-- An instruction may stay what it is. -/
theorem expands_self (i : Instruction) : Expands i [i] := fun _ _ => rfl

/-- An instruction that does what two others do one after the other may be replaced by
them. -/
theorem expands_of_sequence {i a b : Instruction}
    (h : execute i = (execute a >>= fun _ => execute b)) : Expands i [a, b] := by
  intro rest s
  change runProgram (a :: b :: rest) s = _
  cases ha : (execute a s).ending with
  | done _ =>
    have hi := (congrFun h s).trans (bind_of_done ha)
    rw [runProgram_cons_of_done ha]
    cases hb : (execute b (execute a s).state).ending with
    | done _ =>
      have hdone : (execute i s).ending = .done () := by rw [hi, hb]
      rw [runProgram_cons_of_done hb, runProgram_cons_of_done hdone, hi, List.append_assoc]
    | failed e =>
      have hfailed : (execute i s).ending = .failed e := by rw [hi, hb]
      rw [runProgram_cons_of_failed hb, runProgram_cons_of_failed hfailed, hi,
        List.append_assoc]
    | crashed =>
      have hcrashed : (execute i s).ending = .crashed := by rw [hi, hb]
      rw [runProgram_cons_of_crashed hb, runProgram_cons_of_crashed hcrashed, hi]
  | failed e =>
    -- the second one is never reached, so the motors are stopped after the same trace
    have hi := (congrFun h s).trans (bind_of_failed ha)
    have hfailed : (execute i s).ending = .failed e := by rw [hi]
    rw [runProgram_cons_of_failed ha, runProgram_cons_of_failed hfailed, hi]
  | crashed =>
    have hi := (congrFun h s).trans (bind_of_crashed ha)
    have hcrashed : (execute i s).ending = .crashed := by rw [hi]
    rw [runProgram_cons_of_crashed ha, runProgram_cons_of_crashed hcrashed, hi]

/-- A program goes on alike when what follows its first instruction does. -/
theorem runProgram_cons_congr {p q : List Instruction}
    (h : ∀ s, runProgram p s = runProgram q s) (i : Instruction) (s : Head) :
    runProgram (i :: p) s = runProgram (i :: q) s := by
  cases hi : (execute i s).ending with
  | done _ => rw [runProgram_cons_of_done hi, runProgram_cons_of_done hi, h]
  | failed e => rw [runProgram_cons_of_failed hi, runProgram_cons_of_failed hi]
  | crashed => rw [runProgram_cons_of_crashed hi, runProgram_cons_of_crashed hi]

/-- **Instructions may be replaced one by one**, each by what expands it. -/
theorem runProgram_flatMap {f : Instruction → List Instruction} (hf : ∀ i, Expands i (f i))
    (p : List Instruction) (s : Head) : runProgram (p.flatMap f) s = runProgram p s := by
  induction p generalizing s with
  | nil => rfl
  | cons i rest ih =>
    rw [List.flatMap_cons, hf i]
    exact runProgram_cons_congr ih i s

/-! ### Feed rates -/

/-- A move states its feed rate first and then does what it does without one. -/
theorem execute_move_eq (m : Move) : execute (.move m) =
    (execute (.move { feed := m.feed }) >>= fun _ => execute (.move { goal := m.goal })) := by
  have hgoal : execute (.move { goal := m.goal }) =
      if !m.goal.isEmpty then follow m.goal else pure () :=
    (linearMove_eq { goal := m.goal }).trans (pure_bind _ _)
  have hfeed : execute (.move { feed := m.feed }) = _ :=
    (linearMove_eq { feed := m.feed }).trans (bind_pure _)
  rw [hgoal, hfeed]
  exact linearMove_eq m

theorem expands_feedFirst (i : Instruction) : Expands i i.feedFirst := by
  cases hi : i.isMixed with
  | false =>
    rw [Instruction.feedFirst_of_not_isMixed hi]
    exact expands_self i
  | true =>
    cases i with
    | move m =>
      have hsplit : (Instruction.move m).feedFirst =
          [.move { feed := m.feed }, .move { goal := m.goal }] := by
        simp [Instruction.feedFirst, hi]
      rw [hsplit]
      exact expands_of_sequence (execute_move_eq m)
    | _ => cases hi

/-- **Feed rates may be moved in front of their coordinates.**  No move of the program has
both any more, and from every head it runs as before: with the same trace, to the same
head, and with the same ending, also where a feed rate is refused. -/
theorem runProgram_feedFirst (p : List Instruction) :
    (p.flatMap Instruction.feedFirst).any Instruction.isMixed = false ∧
      ∀ h, runProgram (p.flatMap Instruction.feedFirst) h = runProgram p h := by
  refine ⟨?_, runProgram_flatMap expands_feedFirst p⟩
  rw [List.any_eq_false]
  intro i hi
  obtain ⟨j, -, hj⟩ := List.mem_flatMap.mp hi
  exact Bool.eq_false_iff.mp (Instruction.isMixed_of_mem_feedFirst hj)

/-- A feed rate that is refused ends both programs alike. -/
example : let p : List Instruction := [.move ⟨{ x := some 10 }, some 20⟩,
      .move ⟨{ x := some 0 }, some (-1)⟩, .move { goal := { z := some 1 } }]
    p.flatMap Instruction.feedFirst =
      [.move { feed := some 20 }, .move { goal := { x := some 10 } },
        .move { feed := some (-1) }, .move { goal := { x := some 0 } },
        .move { goal := { z := some 1 } }] ∧
      (runProgram (p.flatMap Instruction.feedFirst) (standard fun _ _ _ => none)).ending =
        .failed (.motion (.badVelocity (-1))) := by
  decide +kernel

end Head

end TachoPrint
