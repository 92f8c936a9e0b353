import TachoPrint.Proofs.Machine.Parts

/-!
# Programs end at their first failure

A program is executed instruction by instruction.  The first instruction that is
refused ends it: every motor is told to stop once more, and the refusal is reported
whatever comes of that.

## Main definitions

* `Head.Succeeds h p t h'` — executing `p` from `h` succeeds instruction by
  instruction, with the trace `t`, and leaves `h'`.

## Main results

* `Head.runProgram_cons_of_done`, `Head.runProgram_cons_of_failed` — a program by what
  its first instruction does.
* `Head.runProgram_first_failure` — **a program succeeds when each of its instructions
  does, and otherwise ends with the first refusal and one stop of every motor.**
-/

namespace TachoPrint

open TachoPrint.Action

namespace Head

/-! ### A program by its first instruction -/

/-- Stopping after a refusal reports the refusal, whatever the motors do. -/
theorem stopAndFail_eq (e : DeviceError) (h : Head) :
    stopAndFail e h = ⟨h.stopEvents, h.halted, .failed e⟩ := by
  obtain ⟨r, hr⟩ := attempt_stopAll h
  unfold stopAndFail
  rw [bind_of_done (congrArg Run.ending hr), hr]
  simp only [fail, finish, List.append_nil]

/-- The traces of instructions already done stand before the rest. -/
theorem runFrom_append (p : List Instruction) (past more : List (List Event)) (h : Head) :
    runFrom (past ++ more) p h = ⟨more.reverse.flatten ++ (runFrom past p h).trace,
      (runFrom past p h).state, (runFrom past p h).ending⟩ := by
  -- the pile grows at its top, so what lies at the bottom comes along unchanged
  induction p generalizing past h with
  | nil => simp [runFrom]
  | cons i rest ih =>
    simp only [runFrom]
    cases (execute i h).ending with
    | done _ => exact ih ((execute i h).trace :: past) (execute i h).state
    | failed e => simp
    | crashed => simp

@[simp] theorem runProgram_nil (h : Head) : runProgram [] h = ⟨[], h, .done ()⟩ := rfl

variable {i : Instruction} {h : Head}

@[simp] theorem runProgram_cons_of_done (hi : (execute i h).ending = .done ())
    (rest : List Instruction) :
    runProgram (i :: rest) h =
      ⟨(execute i h).trace ++ (runProgram rest (execute i h).state).trace,
        (runProgram rest (execute i h).state).state,
        (runProgram rest (execute i h).state).ending⟩ := by
  have happ := runFrom_append rest [] [(execute i h).trace] (execute i h).state
  simp only [runProgram, runFrom, hi]
  simpa using happ

@[simp] theorem runProgram_cons_of_failed {e : DeviceError}
    (hi : (execute i h).ending = .failed e) (rest : List Instruction) :
    runProgram (i :: rest) h = ⟨(execute i h).trace ++ (execute i h).state.stopEvents,
      (execute i h).state.halted, .failed e⟩ := by
  simp [runProgram, runFrom, hi, stopAndFail_eq]

@[simp] theorem runProgram_cons_of_crashed (hi : (execute i h).ending = .crashed)
    (rest : List Instruction) :
    runProgram (i :: rest) h = ⟨(execute i h).trace, (execute i h).state, .crashed⟩ := by
  simp [runProgram, runFrom, hi]

/-- A program starts with all that its first instruction does. -/
theorem execute_prefix_runProgram (i : Instruction) (p : List Instruction) (h : Head) :
    (execute i h).trace <+: (runProgram (i :: p) h).trace := by
  cases hend : (execute i h).ending with
  | done _ =>
    simp [hend]
  | failed e =>
    simp [hend]
  | crashed => simp [hend]

/-! ### What programs keep and leave -/

/-- A program keeps what its instructions keep, and stopping every motor. -/
theorem keeps_runProgram {R : Head → List Event → Head → Prop} (hR : Chains R)
    {p : List Instruction} (hp : ∀ i ∈ p, Keeps R (execute i)) (hstop : Keeps R stopAll) :
    Keeps R (runProgram p) := by
  induction p with
  | nil => exact hR.nil
  | cons i rest ih =>
    intro h
    have hi := hp i List.mem_cons_self h
    cases he : (execute i h).ending with
    | done _ =>
      rw [runProgram_cons_of_done he]
      exact hR.append hi (ih (fun j hj => hp j (List.mem_cons_of_mem i hj)) _)
    | failed e =>
      -- what follows a refusal is the trace of stopping every motor, and nothing else
      have hlast := hstop (execute i h).state
      rw [stopAll_eq] at hlast
      rw [runProgram_cons_of_failed he]
      exact hR.append hi hlast
    | crashed =>
      rw [runProgram_cons_of_crashed he]
      exact hi

/-- A program leaves what its instructions leave, if a stop of every motor may follow. -/
theorem leaves_runProgram {P : List Event → Prop} (hP : Accumulates P) {p : List Instruction}
    (hp : ∀ i ∈ p, Leaves P (execute i)) (hstop : ∀ h : Head, P h.stopEvents) :
    Leaves P (runProgram p) := by
  induction p with
  | nil =>
    intro _ _
    exact hP.nil
  | cons i rest ih =>
    intro h hc
    have hi := hp i List.mem_cons_self h
    cases he : (execute i h).ending with
    | done _ =>
      rw [runProgram_cons_of_done he] at hc ⊢
      exact hP.append (hi (by simp [he])) (ih (fun j hj => hp j (List.mem_cons_of_mem i hj)) _ hc)
    | failed e =>
      rw [runProgram_cons_of_failed he]
      exact hP.append (hi (by simp [he])) (hstop _)
    | crashed =>
      rw [runProgram_cons_of_crashed he] at hc
      exact absurd rfl hc

/-! ### Instruction by instruction -/

/-- Executing the instructions one after the other succeeds, with this trace and this
head at the end. -/
inductive Succeeds : Head → List Instruction → List Event → Head → Prop where
  | nil (h : Head) : Succeeds h [] [] h
  | cons {h : Head} {i : Instruction} {rest : List Instruction} {t : List Event} {h' : Head}
      (first : (execute i h).ending = .done ())
      (later : Succeeds (execute i h).state rest t h') :
      Succeeds h (i :: rest) ((execute i h).trace ++ t) h'

/-- A program goes on from where instructions that succeed have left the head. -/
theorem Succeeds.runProgram_append {h h' : Head} {p : List Instruction} {t : List Event}
    (hp : Succeeds h p t h') (q : List Instruction) :
    runProgram (p ++ q) h = ⟨t ++ (runProgram q h').trace, (runProgram q h').state,
      (runProgram q h').ending⟩ := by
  induction hp with
  | nil h => rfl
  | cons first later ih =>
    rw [List.cons_append, runProgram_cons_of_done first, ih, List.append_assoc]

theorem Succeeds.runProgram_eq {h h' : Head} {p : List Instruction} {t : List Event}
    (hp : Succeeds h p t h') : runProgram p h = ⟨t, h', .done ()⟩ := by
  have happ := hp.runProgram_append []
  simpa using happ

/-- What succeeds has a first part that does. -/
theorem Succeeds.of_append {h h' : Head} {p q : List Instruction} {t : List Event}
    (hs : Succeeds h (p ++ q) t h') :
    ∃ t₁ h₁ t₂, Succeeds h p t₁ h₁ ∧ Succeeds h₁ q t₂ h' ∧ t = t₁ ++ t₂ := by
  induction p generalizing h t with
  | nil => exact ⟨[], h, t, .nil h, hs, rfl⟩
  | cons i p ih =>
    cases hs with
    | cons first later =>
      obtain ⟨t₁, h₁, t₂, hp, hq, rfl⟩ := ih later
      exact ⟨_, h₁, t₂, .cons first hp, hq, (List.append_assoc ..).symm⟩

/-- Every program either succeeds instruction by instruction, or has a first
instruction that does not. -/
theorem succeeds_or_first (p : List Instruction) (h : Head) :
    (∃ t h', Succeeds h p t h') ∨
      ∃ before i rest t h₁, p = before ++ i :: rest ∧ Succeeds h before t h₁ ∧
        (execute i h₁).ending ≠ .done () := by
  induction p generalizing h with
  | nil => exact Or.inl ⟨[], h, .nil h⟩
  | cons i rest ih =>
    by_cases hi : (execute i h).ending = .done ()
    · rcases ih (execute i h).state with ⟨t, h', hrest⟩ | ⟨before, j, later, t, h₁, rfl, hb, hj⟩
      · exact Or.inl ⟨_, h', .cons hi hrest⟩
      · exact Or.inr ⟨i :: before, j, later, _, h₁, rfl, .cons hi hb, hj⟩
    · exact Or.inr ⟨[], i, rest, [], h, rfl, .nil h, hi⟩

/-- A program whose first failure is a refusal. -/
theorem Succeeds.runProgram_of_failed {h h₁ : Head} {before : List Instruction} {t : List Event}
    {e : DeviceError} (hb : Succeeds h before t h₁) (hi : (execute i h₁).ending = .failed e)
    (rest : List Instruction) :
    runProgram (before ++ i :: rest) h =
      ⟨t ++ ((execute i h₁).trace ++ (execute i h₁).state.stopEvents),
        (execute i h₁).state.halted, .failed e⟩ := by
  rw [hb.runProgram_append, runProgram_cons_of_failed hi]

/-- A program has a result exactly when each instruction has one. -/
theorem runProgram_done_iff (p : List Instruction) (h : Head) :
    (runProgram p h).ending = .done () ↔ ∃ t h', Succeeds h p t h' := by
  constructor
  · intro hp
    -- a program with an instruction that does not succeed ends as that one does
    rcases succeeds_or_first p h with hs | ⟨before, i, rest, t, h₁, rfl, hb, hi⟩
    · exact hs
    · rw [hb.runProgram_append] at hp
      cases he : (execute i h₁).ending with
      | done _ => exact absurd he hi
      | failed e =>
        simp [he] at hp
      | crashed =>
        simp [he] at hp
  · rintro ⟨t, h', hs⟩
    rw [hs.runProgram_eq]

/-- A program is refused exactly when one of its instructions is, and those before it
succeed. -/
theorem exists_of_runProgram_failed {p : List Instruction} {h : Head} {e : DeviceError}
    (hp : (runProgram p h).ending = .failed e) :
    ∃ before i rest t h₁, p = before ++ i :: rest ∧ Succeeds h before t h₁ ∧
      (execute i h₁).ending = .failed e := by
  rcases succeeds_or_first p h with ⟨t, h', hs⟩ | ⟨before, i, rest, t, h₁, rfl, hb, hi⟩
  · rw [hs.runProgram_eq] at hp
    cases hp
  · refine ⟨before, i, rest, t, h₁, rfl, hb, ?_⟩
    rw [hb.runProgram_append] at hp
    cases he : (execute i h₁).ending with
    | done _ => exact absurd he hi
    | failed e' =>
      rw [runProgram_cons_of_failed he] at hp
      exact hp
    | crashed =>
      simp [he] at hp

/-- A program crashes exactly when one of its instructions does, and those before it
succeed. -/
theorem runProgram_crashed_iff {p : List Instruction} {h : Head} :
    (runProgram p h).ending = .crashed ↔ ∃ before i rest t h₁, p = before ++ i :: rest ∧
      Succeeds h before t h₁ ∧ (execute i h₁).ending = .crashed := by
  constructor
  · intro hp
    rcases succeeds_or_first p h with ⟨t, h', hs⟩ | ⟨before, i, rest, t, h₁, rfl, hb, hi⟩
    · rw [hs.runProgram_eq] at hp
      cases hp
    · refine ⟨before, i, rest, t, h₁, rfl, hb, ?_⟩
      rw [hb.runProgram_append] at hp
      cases he : (execute i h₁).ending with
      | done _ => exact absurd he hi
      | failed e =>
        simp [he] at hp
      | crashed => rfl
  · rintro ⟨before, i, rest, t, h₁, rfl, hb, he⟩
    rw [hb.runProgram_append, runProgram_cons_of_crashed he]

/-- **A program ends at its first failure.**  It has a result exactly when its
instructions succeed one after the other.  A program that does not crash and has no
result is refused for the cause of its first instruction that is refused, down to the fault
that a driver reported.  What stands behind that one has no effect: its trace is followed by
one stop of each motor, which change motors only, and whose own faults are never the cause.
So a program goes on from where a first part that succeeds leaves the head, and a first part
that is refused is all of it. -/
theorem runProgram_first_failure :
    (∀ (p : List Instruction) (h : Head), (runProgram p h).ending ≠ .crashed →
      ((runProgram p h).ending = .done () ↔ ∃ t h', Succeeds h p t h') ∧
      (∀ t h', Succeeds h p t h' → runProgram p h = ⟨t, h', .done ()⟩) ∧
      ((¬∃ t h', Succeeds h p t h') → ∃ before i rest t h₁ e, p = before ++ i :: rest ∧
        Succeeds h before t h₁ ∧ (execute i h₁).ending = .failed e ∧
        runProgram p h = ⟨t ++ ((execute i h₁).trace ++ (execute i h₁).state.stopEvents),
          (execute i h₁).state.halted, .failed e⟩ ∧
        (runProgram p h).state.position = (execute i h₁).state.position ∧
        (runProgram p h).state.velocity = (execute i h₁).state.velocity ∧
        (runProgram p h).state.mode = (execute i h₁).state.mode)) ∧
    (∀ (a b : List Instruction) (h : Head), (runProgram a h).ending = .done () →
      runProgram (a ++ b) h =
        ⟨(runProgram a h).trace ++ (runProgram b (runProgram a h).state).trace,
          (runProgram b (runProgram a h).state).state,
          (runProgram b (runProgram a h).state).ending⟩) ∧
    ∀ (a b : List Instruction) (h : Head) (e : DeviceError),
      (runProgram a h).ending = .failed e → runProgram (a ++ b) h = runProgram a h := by
  refine ⟨fun p h hc => ⟨runProgram_done_iff p h, fun t h' hs => hs.runProgram_eq, ?_⟩, ?_, ?_⟩
  · intro hns
    cases he : (runProgram p h).ending with
    | done _ => exact absurd ((runProgram_done_iff p h).mp he) hns
    | failed e =>
      obtain ⟨before, i, rest, t, h₁, rfl, hb, hi⟩ := exists_of_runProgram_failed he
      have hrun := hb.runProgram_of_failed hi rest
      refine ⟨before, i, rest, t, h₁, e, rfl, hb, hi, hrun, ?_⟩
      rw [hrun]
      exact ⟨rfl, rfl, rfl⟩
    | crashed => exact absurd he hc
  · intro a b h ha
    obtain ⟨t, h', hs⟩ := (runProgram_done_iff a h).mp ha
    rw [hs.runProgram_append, hs.runProgram_eq]
  · intro a b h e ha
    -- the failure is the same one whatever stands behind it
    obtain ⟨before, i, rest, t, h₁, rfl, hb, hi⟩ := exists_of_runProgram_failed ha
    rw [List.append_assoc, List.cons_append, hb.runProgram_of_failed hi,
      hb.runProgram_of_failed hi]

/-- A pause and two moves in the plane. -/
def pauseAndMoves : List Instruction :=
  [.pause 5, .move { goal := { x := some 10 } }, .move { goal := { y := some 10 } }]

/-- The first motor does not run, and no motor stops. -/
def blocked : Head := standard fun j c _ =>
  if c = .stop then some ⟨"Unplugged"⟩
  else if j = .axis .x ∧ c = .run then some ⟨"Stalled"⟩
  else none

/-- The move is refused for the run that failed, though every stop after it fails in another
way. -/
theorem runProgram_first_failure_blocked :
    (runProgram pauseAndMoves blocked).ending ≠ .crashed ∧
      (¬∃ t h', Succeeds blocked pauseAndMoves t h') ∧
      (∃ before i rest t h₁, pauseAndMoves = before ++ i :: rest ∧ Succeeds blocked before t h₁ ∧
        (execute i h₁).ending = .failed (.motor ⟨"Stalled"⟩) ∧
        runProgram pauseAndMoves blocked =
          ⟨t ++ ((execute i h₁).trace ++ (execute i h₁).state.stopEvents),
            (execute i h₁).state.halted, .failed (.motor ⟨"Stalled"⟩)⟩) ∧
      (stopAll (runProgram (pauseAndMoves.take 2) blocked).state).ending =
        .failed (.motor ⟨"Unplugged"⟩) ∧
      (runProgram [.pause 5] blocked).ending = .done () ∧
      runProgram (pauseAndMoves.take 2 ++ pauseAndMoves.drop 2) blocked =
        runProgram (pauseAndMoves.take 2) blocked := by
  obtain ⟨hfirst, -, happ⟩ := runProgram_first_failure
  have hc : (runProgram pauseAndMoves blocked).ending ≠ .crashed := by decide +kernel
  have hns : ¬∃ t h', Succeeds blocked pauseAndMoves t h' := by
    rw [← runProgram_done_iff]
    decide +kernel
  have hf : (runProgram (pauseAndMoves.take 2) blocked).ending =
      .failed (.motor ⟨"Stalled"⟩) := by decide +kernel
  obtain ⟨before, i, rest, t, h₁, e, hp, hb, hi, hrun, -⟩ :=
    (hfirst pauseAndMoves blocked hc).2.2 hns
  have he : e = .motor ⟨"Stalled"⟩ := by
    have hend : (runProgram pauseAndMoves blocked).ending = .failed (.motor ⟨"Stalled"⟩) := by
      decide +kernel
    rw [hrun] at hend
    exact Outcome.failed.inj hend
  subst he
  exact ⟨hc, hns, ⟨before, i, rest, t, h₁, hp, hb, hi, hrun⟩, by decide +kernel,
    by decide +kernel, happ _ _ blocked _ hf⟩

end Head

end TachoPrint
