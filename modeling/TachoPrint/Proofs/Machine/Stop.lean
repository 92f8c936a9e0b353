import TachoPrint.Proofs.Machine.Commands

/-!
# Commands followed by a stop

## Main definitions

* `MotorCommand.isMotion` — the commands that set a motor moving.
* `EachStopped p cs` — every command of a kind is followed by a stop.

## Main results

* `EachStopped.append_stop` — a stop at the end settles everything before it.
* `eachStopped_append_iff` — commands after which nothing stops decide the matter.
-/

namespace TachoPrint

/-- The commands that set a motor moving. -/
def MotorCommand.isMotion : MotorCommand → Bool
  | .run => true
  | .turn _ => true
  | _ => false

/-- Every command of the kind is followed by a stop. -/
def EachStopped (p : MotorCommand → Prop) (cs : List MotorCommand) : Prop :=
  ∀ before c after, cs = before ++ c :: after → p c → .stop ∈ after

variable {p : MotorCommand → Prop} {cs ds : List MotorCommand}

@[simp] theorem eachStopped_nil : EachStopped p [] := by
  intro before c after h
  cases before <;> cases h

@[simp] theorem eachStopped_cons (c : MotorCommand) (cs : List MotorCommand) :
    EachStopped p (c :: cs) ↔ (p c → .stop ∈ cs) ∧ EachStopped p cs := by
  constructor
  · intro h
    refine ⟨h [] c cs rfl, ?_⟩
    intro before d after hcs hd
    exact h (c :: before) d after (by rw [hcs, List.cons_append]) hd
  · rintro ⟨hc, hcs⟩ before d after h hd
    -- the command in question is the first one, or one of the others
    cases before with
    | nil =>
      obtain ⟨rfl, rfl⟩ := List.cons.inj h
      exact hc hd
    | cons b before =>
      obtain ⟨rfl, rfl⟩ := List.cons.inj h
      exact hcs before d after rfl hd

/-- Where no command is of the kind there is nothing to stop. -/
theorem eachStopped_of_forall_not (h : ∀ c ∈ cs, ¬p c) : EachStopped p cs := by
  rintro before c after rfl hc
  exact absurd hc (h c (by simp))

theorem EachStopped.append (hcs : EachStopped p cs) (hds : EachStopped p ds) :
    EachStopped p (cs ++ ds) := by
  induction cs with
  | nil => exact hds
  | cons c cs ih =>
    rw [eachStopped_cons] at hcs
    rw [List.cons_append, eachStopped_cons]
    exact ⟨fun hc => List.mem_append_left ds (hcs.1 hc), ih hcs.2⟩

/-- A stop among settled commands settles all that comes before them. -/
theorem EachStopped.append_of_mem (cs : List MotorCommand) (hds : EachStopped p ds)
    (hstop : .stop ∈ ds) : EachStopped p (cs ++ ds) := by
  induction cs with
  | nil => exact hds
  | cons c cs ih =>
    rw [List.cons_append, eachStopped_cons]
    exact ⟨fun _ => List.mem_append_right cs hstop, ih⟩

/-- A stop at the end settles everything before it. -/
theorem EachStopped.append_stop (cs : List MotorCommand) (hp : ¬p .stop) :
    EachStopped p (cs ++ [.stop]) :=
  .append_of_mem cs (by simp [hp]) (by simp)

/-- Commands that hold no stop are settled when none of them is of the kind, after
settled ones. -/
theorem eachStopped_append_iff (hcs : EachStopped p cs) (hds : .stop ∉ ds) :
    EachStopped p (cs ++ ds) ↔ ∀ d ∈ ds, ¬p d := by
  constructor
  · intro h d hd hpd
    -- a stop after it would be one among the last commands, and there is none
    obtain ⟨before, after, rfl⟩ := List.append_of_mem hd
    have hstop := h (cs ++ before) d after (by simp) hpd
    exact hds (by simp [hstop])
  · intro h
    exact hcs.append (eachStopped_of_forall_not h)

/-- Commands of other kinds before the rest change nothing. -/
theorem eachStopped_append_left_iff (hcs : ∀ c ∈ cs, ¬p c) :
    EachStopped p (cs ++ ds) ↔ EachStopped p ds := by
  induction cs with
  | nil => rfl
  | cons c cs ih =>
    rw [List.cons_append, eachStopped_cons, ih fun d hd => hcs d (List.mem_cons_of_mem c hd)]
    exact and_iff_right fun hc => absurd hc (hcs c List.mem_cons_self)

instance decidableEachStopped [DecidablePred p] : (cs : List MotorCommand) →
    Decidable (EachStopped p cs)
  | [] => .isTrue eachStopped_nil
  | c :: cs =>
    have := decidableEachStopped cs
    decidable_of_iff _ (eachStopped_cons c cs).symm

end TachoPrint
