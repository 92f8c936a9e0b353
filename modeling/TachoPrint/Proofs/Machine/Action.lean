import TachoPrint.Machine.Action

/-!
# Relations that actions keep

What an action does is stated as a relation between the state before it, its trace
and the state after it.  A relation that holds of doing nothing, and of two things
done one after the other when it holds of each, is kept by a sequence as soon as it
is kept by its parts; where the sequence breaks off does not matter.

## Main definitions

* `Action.Chains R` — the relation holds of nothing and can be chained.
* `Action.Keeps R x` — the action keeps the relation, however it ends.
* `Action.Leaves P x` — unless it crashes, the action leaves a trace with a property.
* `Action.Refuses E x` — the action is refused for causes of a kind only.

## Main results

* `Action.Keeps.bind`, `Action.Leaves.bind`, `Action.Refuses.bind` — sequences.
* `Action.Keeps.bind_of_done` — a sequence from one state, where the second part may
  use what is known of the result of the first.
-/

namespace TachoPrint.Action

variable {ω ω' σ τ ε ε' α β : Type}

/-! ### Sequences by the ending of their first part -/

@[simp] theorem bind_of_done {x : Action ω σ ε α} {f : α → Action ω σ ε β} {s : σ} {a : α}
    (h : (x s).ending = .done a) :
    (x >>= f) s = ⟨(x s).trace ++ (f a (x s).state).trace, (f a (x s).state).state,
      (f a (x s).state).ending⟩ := by
  change andThen x f s = _
  simp only [andThen, h]

@[simp] theorem bind_of_failed {x : Action ω σ ε α} {f : α → Action ω σ ε β} {s : σ} {e : ε}
    (h : (x s).ending = .failed e) : (x >>= f) s = ⟨(x s).trace, (x s).state, .failed e⟩ := by
  change andThen x f s = _
  simp only [andThen, h]

@[simp] theorem bind_of_crashed {x : Action ω σ ε α} {f : α → Action ω σ ε β} {s : σ}
    (h : (x s).ending = .crashed) : (x >>= f) s = ⟨(x s).trace, (x s).state, .crashed⟩ := by
  change andThen x f s = _
  simp only [andThen, h]

/-- A sequence starts with all that its first part does. -/
theorem trace_prefix_bind (x : Action ω σ ε α) (f : α → Action ω σ ε β) (s : σ) :
    (x s).trace <+: ((x >>= f) s).trace := by
  cases h : (x s).ending with
  | done a =>
    simp [h]
  | failed e => simp [h]
  | crashed => simp [h]

/-- A sequence that does not crash has a first part that does not. -/
theorem ending_ne_crashed_of_bind {x : Action ω σ ε α} {f : α → Action ω σ ε β} {s : σ}
    (h : ((x >>= f) s).ending ≠ .crashed) : (x s).ending ≠ .crashed := by
  intro hx
  rw [bind_of_crashed hx] at h
  exact h rfl

/-- A sequence that has a result is one whose parts have results. -/
theorem exists_of_bind_done {x : Action ω σ ε α} {f : α → Action ω σ ε β} {s : σ} {b : β}
    (h : ((x >>= f) s).ending = .done b) :
    ∃ a, (x s).ending = .done a ∧ (f a (x s).state).ending = .done b := by
  cases hx : (x s).ending with
  | done a =>
    rw [bind_of_done hx] at h
    exact ⟨a, rfl, h⟩
  | failed e =>
    simp [hx] at h
  | crashed =>
    simp [hx] at h

/-- A sequence is refused for what one of its parts is refused for. -/
theorem failed_of_bind_failed {x : Action ω σ ε α} {f : α → Action ω σ ε β} {s : σ} {e : ε}
    (h : ((x >>= f) s).ending = .failed e) :
    (x s).ending = .failed e ∨
      ∃ a, (x s).ending = .done a ∧ (f a (x s).state).ending = .failed e := by
  cases hx : (x s).ending with
  | done a =>
    rw [bind_of_done hx] at h
    exact Or.inr ⟨a, rfl, h⟩
  | failed e' =>
    rw [bind_of_failed hx] at h
    cases h
    exact Or.inl rfl
  | crashed =>
    simp [hx] at h

/-- How a sequence ends that is not refused: its first part has a result, unless the sequence
crashes there. -/
theorem bind_ending_iff {x : Action ω σ ε α} {f : α → Action ω σ ε β} {s : σ} {o : Outcome ε β}
    (hfailed : ∀ e, o ≠ .failed e) (hcrashed : o = .crashed → (x s).ending ≠ .crashed) :
    ((x >>= f) s).ending = o ↔ ∃ a, (x s).ending = .done a ∧ (f a (x s).state).ending = o := by
  cases hx : (x s).ending with
  | done a =>
    simp [hx]
  | failed e =>
    rw [bind_of_failed hx]
    simp [(hfailed e).symm]
  | crashed =>
    rw [bind_of_crashed hx]
    simp only [reduceCtorEq, false_and, exists_false, iff_false]
    rintro rfl
    exact hcrashed rfl hx

/-- A sequence whose parts do not crash does not crash. -/
theorem bind_ne_crashed {x : Action ω σ ε α} {f : α → Action ω σ ε β} {s : σ}
    (hx : (x s).ending ≠ .crashed)
    (hf : ∀ a, (x s).ending = .done a → (f a (x s).state).ending ≠ .crashed) :
    ((x >>= f) s).ending ≠ .crashed := by
  intro h
  rw [bind_ending_iff (o := .crashed) nofun fun _ => hx] at h
  obtain ⟨a, ha, hcrash⟩ := h
  exact hf a ha hcrash

/-- Two sequences from one state do the same if their first parts do, and their second parts
from where these lead. -/
theorem bind_congr_at {x y : Action ω σ ε α} {f g : α → Action ω σ ε β} {s : σ} (hxy : x s = y s)
    (hfg : ∀ a, (x s).ending = .done a → f a (x s).state = g a (x s).state) :
    (x >>= f) s = (y >>= g) s := by
  cases h : (x s).ending with
  | done a => rw [bind_of_done h, bind_of_done (hxy ▸ h), hfg a h, hxy]
  | failed e => rw [bind_of_failed h, bind_of_failed (hxy ▸ h), hxy]
  | crashed => rw [bind_of_crashed h, bind_of_crashed (hxy ▸ h), hxy]

@[simp] theorem pure_bind_apply (a : α) (f : α → Action ω σ ε β) (s : σ) :
    ((pure a : Action ω σ ε α) >>= f) s = f a s := rfl

@[simp] theorem get_bind_apply (f : σ → Action ω σ ε β) (s : σ) :
    (get >>= f) s = f s s := rfl

@[simp] theorem attempt_trace (x : Action ω σ ε α) (s : σ) :
    (attempt x s).trace = (x s).trace := by
  simp only [attempt]
  cases (x s).ending <;> rfl

@[simp] theorem attempt_state (x : Action ω σ ε α) (s : σ) :
    (attempt x s).state = (x s).state := by
  simp only [attempt]
  cases (x s).ending <;> rfl

theorem attempt_of_done {x : Action ω σ ε α} {s : σ} {a : α} (h : (x s).ending = .done a) :
    (attempt x s).ending = .done (.ok a) := by
  simp only [attempt, h]

theorem attempt_of_failed {x : Action ω σ ε α} {s : σ} {e : ε} (h : (x s).ending = .failed e) :
    (attempt x s).ending = .done (.error e) := by
  simp only [attempt, h]

theorem attempt_of_crashed {x : Action ω σ ε α} {s : σ} (h : (x s).ending = .crashed) :
    (attempt x s).ending = .crashed := by
  simp only [attempt, h]

theorem mapError_of_done {f : ε → ε'} {x : Action ω σ ε α} {s : σ} {a : α}
    (h : (x s).ending = .done a) : (mapError f x s).ending = .done a := by
  simp only [mapError, h, Outcome.mapError]

theorem apart_of_done {label : ω → ω'} {x : Action ω τ ε α} {t : τ} {s : σ} {a : α}
    (h : (x t).ending = .done a) : (apart label x t s).ending = .done (a, (x t).state) := by
  simp only [apart, h]

theorem apart_of_failed {label : ω → ω'} {x : Action ω τ ε α} {t : τ} {s : σ} {e : ε}
    (h : (x t).ending = .failed e) : (apart label x t s).ending = .failed e := by
  simp only [apart, h]

theorem apart_of_crashed {label : ω → ω'} {x : Action ω τ ε α} {t : τ} {s : σ}
    (h : (x t).ending = .crashed) : (apart label x t s).ending = .crashed := by
  simp only [apart, h]

/-- What two actions on a part of the state do, one after the other, is what their sequence
does there. -/
theorem within_bind {part : σ → τ} {put : σ → τ → σ} {label : ω → ω'}
    (hpart : ∀ s t, part (put s t) = t) (hput : ∀ s t u, put (put s t) u = put s u)
    (x : Action ω τ ε α) (f : α → Action ω τ ε β) :
    (within part put label x >>= fun a => within part put label (f a)) =
      within part put label (x >>= f) := by
  funext s
  cases hend : (x (part s)).ending with
  | done a =>
    have hfirst : (within part put label x s).ending = .done a := hend
    rw [bind_of_done hfirst]
    unfold within
    rw [bind_of_done hend]
    simp only [hpart, hput, List.map_append]
  | failed e =>
    have hfirst : (within part put label x s).ending = .failed e := hend
    rw [bind_of_failed hfirst]
    unfold within
    rw [bind_of_failed hend]
  | crashed =>
    have hfirst : (within part put label x s).ending = .crashed := hend
    rw [bind_of_crashed hfirst]
    unfold within
    rw [bind_of_crashed hend]

/-- What an action on a state of its own gives is its result. -/
theorem done_of_apart_done {label : ω → ω'} {x : Action ω τ ε α} {t t' : τ} {s : σ} {a : α}
    (h : (apart label x t s).ending = .done (a, t')) : (x t).ending = .done a := by
  simp only [apart] at h
  cases hx : (x t).ending with
  | done b =>
    rw [hx] at h
    cases h
    rfl
  | failed e =>
    rw [hx] at h
    cases h
  | crashed =>
    rw [hx] at h
    cases h

/-! ### Kept relations -/

/-- The relation holds of doing nothing, and of two things done one after the other
when it holds of each. -/
structure Chains (R : σ → List ω → σ → Prop) : Prop where
  nil : ∀ s, R s [] s
  append : ∀ {s t s' u s''}, R s t s' → R s' u s'' → R s (t ++ u) s''

/-- That a property of the state is not lost can be chained. -/
theorem chains_preserved (P : σ → Prop) :
    Chains fun (s : σ) (_ : List ω) (s' : σ) => P s → P s' where
  nil _ := id
  append h h' := h' ∘ h

/-- The relation holds between the state before, the trace and the state after, in
whatever way the action ends. -/
def Keeps (R : σ → List ω → σ → Prop) (x : Action ω σ ε α) : Prop :=
  ∀ s, R s (x s).trace (x s).state

namespace Keeps

variable {R : σ → List ω → σ → Prop} {x : Action ω σ ε α} {f : α → Action ω σ ε β}

theorem finish (hR : Chains R) (o : Outcome ε α) : Keeps R (Action.finish o) := fun s => hR.nil s

theorem fail (hR : Chains R) (e : ε) : Keeps R (Action.fail e : Action ω σ ε α) :=
  finish hR _

theorem pure (hR : Chains R) (a : α) : Keeps R (Pure.pure a : Action ω σ ε α) :=
  finish hR _

theorem attempt (hx : Keeps R x) : Keeps R (Action.attempt x) := by
  intro s
  rw [attempt_trace, attempt_state]
  exact hx s

/-- A sequence from one state: the second part need only keep the relation for the
result that the first one has there. -/
theorem bind_of_done (hR : Chains R) {s : σ} (hx : R s (x s).trace (x s).state)
    (hf : ∀ a, (x s).ending = .done a →
      R (x s).state (f a (x s).state).trace (f a (x s).state).state) :
    R s ((x >>= f) s).trace ((x >>= f) s).state := by
  cases h : (x s).ending with
  | done a =>
    rw [Action.bind_of_done h]
    exact hR.append hx (hf a h)
  | failed e =>
    rw [bind_of_failed h]
    exact hx
  | crashed =>
    rw [bind_of_crashed h]
    exact hx

theorem bind (hR : Chains R) (hx : Keeps R x) (hf : ∀ a, Keeps R (f a)) : Keeps R (x >>= f) :=
  fun s => bind_of_done hR (hx s) fun a _ => hf a _

/-- An action that is done only if it is asked for. -/
theorem optional (hR : Chains R) {x : Action ω σ ε Unit} (hx : Keeps R x) (c : Prop)
    [Decidable c] : Keeps R (if c then x else Pure.pure ()) := by
  split
  · exact hx
  · exact Keeps.pure hR ()

/-- A sequence that starts by looking at the state. -/
theorem get_bind {f : σ → Action ω σ ε β} (hf : ∀ a, Keeps R (f a)) :
    Keeps R (Action.get >>= f) := fun s => hf s s

end Keeps

/-! ### Traces left without a crash -/

/-- Unless the action crashes, its trace has the property. -/
def Leaves (P : List ω → Prop) (x : Action ω σ ε α) : Prop :=
  ∀ s, (x s).ending ≠ .crashed → P (x s).trace

/-- The property holds of no events, and of two traces one after the other when it
holds of each. -/
structure Accumulates (P : List ω → Prop) : Prop where
  nil : P []
  append : ∀ {t u}, P t → P u → P (t ++ u)

namespace Leaves

variable {P : List ω → Prop} {x : Action ω σ ε α} {f : α → Action ω σ ε β}

theorem finish (hP : Accumulates P) (o : Outcome ε α) :
    Leaves P (Action.finish o : Action ω σ ε α) := fun _ _ => hP.nil

theorem get (hP : Accumulates P) : Leaves P (Action.get : Action ω σ ε σ) := fun _ _ => hP.nil

theorem pure (hP : Accumulates P) (a : α) : Leaves P (Pure.pure a : Action ω σ ε α) :=
  finish hP _

theorem bind (hP : Accumulates P) (hx : Leaves P x) (hf : ∀ a, Leaves P (f a)) :
    Leaves P (x >>= f) := by
  intro s hs
  cases h : (x s).ending with
  | done a =>
    rw [bind_of_done h] at hs ⊢
    exact hP.append (hx s (by simp [h])) (hf a _ hs)
  | failed e =>
    rw [bind_of_failed h]
    exact hx s (by simp [h])
  | crashed =>
    rw [bind_of_crashed h] at hs
    exact absurd rfl hs

end Leaves

/-! ### Causes of refusal -/

/-- The action is refused for causes of this kind only. -/
def Refuses (E : ε → Prop) (x : Action ω σ ε α) : Prop := ∀ s e, (x s).ending = .failed e → E e

namespace Refuses

variable {E : ε → Prop} {x : Action ω σ ε α} {f : α → Action ω σ ε β}

theorem bind (hx : Refuses E x) (hf : ∀ s a, (x s).ending = .done a → Refuses E (f a)) :
    Refuses E (x >>= f) := by
  intro s e h
  rcases failed_of_bind_failed h with hfirst | ⟨a, hdone, hsecond⟩
  · exact hx s e hfirst
  · exact hf s a hdone _ e hsecond

/-- An attempt is not refused for anything. -/
theorem attempt (x : Action ω σ ε α) : Refuses E (Action.attempt x) := by
  intro s e h
  cases hend : (x s).ending with
  | done a =>
    rw [attempt_of_done hend] at h
    cases h
  | failed e' =>
    rw [attempt_of_failed hend] at h
    cases h
  | crashed =>
    rw [attempt_of_crashed hend] at h
    cases h

/-- What an attempt reports is what the action is refused for. -/
theorem of_attempt (hx : Refuses E x) {s : σ} {e : ε}
    (h : (Action.attempt x s).ending = .done (.error e)) : E e := by
  cases hend : (x s).ending with
  | done a =>
    rw [attempt_of_done hend] at h
    cases h
  | failed e' =>
    rw [attempt_of_failed hend] at h
    obtain rfl := Except.error.inj (Outcome.done.inj h)
    exact hx s e' hend
  | crashed =>
    rw [attempt_of_crashed hend] at h
    cases h

end Refuses

end TachoPrint.Action
