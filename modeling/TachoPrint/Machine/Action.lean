import TachoPrint.Outcome

/-!
# Actions

An action of the machine reads and changes a state, and leaves a trace: the list of
the events that it caused, in order.  The trace and the state are there whatever the
ending, so a failed action still shows what it did.

## Main definitions

* `Run` — what an action leaves: trace, state and ending.
* `Action` — from a state to a run, a monad.
* `Action.attempt` — a refusal becomes a result.
* `Action.mapError` — a refusal is seen from further away.
* `Action.within` — an action on a part of the state, with its events relabelled.
* `Action.apart` — an action on a state of its own.

## Main results

* `Action.andThen_assoc` — the bracketing of a sequence does not matter; with it
  actions are a lawful monad.
-/

namespace TachoPrint

/-- What an action leaves. -/
structure Run (ω σ ε α : Type) where
  /-- The events, in order. -/
  trace : List ω
  /-- The state at the end. -/
  state : σ
  /-- How it ended. -/
  ending : Outcome ε α

/-- An action with events `ω` on states `σ`, refused for causes `ε`. -/
def Action (ω σ ε α : Type) : Type := σ → Run ω σ ε α

namespace Action

variable {ω ω' σ τ ε ε' α β γ : Type}

/-- No event, no change, and a known ending. -/
def finish (ending : Outcome ε α) : Action ω σ ε α := fun s => ⟨[], s, ending⟩

/-- One action after another; the second runs only if the first has a result. -/
def andThen (x : Action ω σ ε α) (f : α → Action ω σ ε β) : Action ω σ ε β := fun s =>
  let first := x s
  match first.ending with
  | .done a =>
      let second := f a first.state
      ⟨first.trace ++ second.trace, second.state, second.ending⟩
  | .failed e => ⟨first.trace, first.state, .failed e⟩
  | .crashed => ⟨first.trace, first.state, .crashed⟩

instance : Monad (Action ω σ ε) where
  pure a := finish (.done a)
  bind := andThen

/-- Doing nothing afterwards changes nothing. -/
theorem andThen_finish_done (x : Action ω σ ε α) :
    x.andThen (fun a => finish (.done a)) = x := by
  funext s
  simp only [andThen, finish]
  cases h : (x s).ending with
  | done a => simp only [List.append_nil, ← h]
  | failed e => simp only [← h]
  | crashed => simp only [← h]

/-- It does not matter how a sequence of actions is bracketed. -/
theorem andThen_assoc (x : Action ω σ ε α) (f : α → Action ω σ ε β) (g : β → Action ω σ ε γ) :
    (x.andThen f).andThen g = x.andThen fun a => (f a).andThen g := by
  funext s
  simp only [andThen]
  cases (x s).ending with
  | done a =>
    simp only
    cases (f a (x s).state).ending with
    | done b => simp only [List.append_assoc]
    | failed e => rfl
    | crashed => rfl
  | failed e => rfl
  | crashed => rfl

instance : LawfulMonad (Action ω σ ε) :=
  LawfulMonad.mk' _ andThen_finish_done (fun _ _ => rfl) andThen_assoc

/-- Refuse for a cause. -/
def fail (e : ε) : Action ω σ ε α := finish (.failed e)

/-- Look at the state. -/
def get : Action ω σ ε σ := fun s => ⟨[], s, .done s⟩

/-- Change the state. -/
def modify (f : σ → σ) : Action ω σ ε Unit := fun s => ⟨[], f s, .done ()⟩

/-- Leave events in the trace. -/
def emit (events : List ω) : Action ω σ ε Unit := fun s => ⟨events, s, .done ()⟩

/-- A refusal of the action becomes a result, a crash stays one. -/
def attempt (x : Action ω σ ε α) : Action ω σ ε (Except ε α) := fun s =>
  let run := x s
  match run.ending with
  | .done a => ⟨run.trace, run.state, .done (.ok a)⟩
  | .failed e => ⟨run.trace, run.state, .done (.error e)⟩
  | .crashed => ⟨run.trace, run.state, .crashed⟩

/-- The same action with its cause of refusal seen through `f`. -/
def mapError (f : ε → ε') (x : Action ω σ ε α) : Action ω σ ε' α := fun s =>
  let run := x s
  ⟨run.trace, run.state, run.ending.mapError f⟩

/-- An action on a part of the state; `label` says whose events they are. -/
def within (part : σ → τ) (put : σ → τ → σ) (label : ω → ω') (x : Action ω τ ε α) :
    Action ω' σ ε α := fun s =>
  let run := x (part s)
  ⟨run.trace.map label, put s run.state, run.ending⟩

/-- An action on a state of its own, which becomes part of the result. -/
def apart (label : ω → ω') (x : Action ω τ ε α) (t : τ) : Action ω' σ ε (α × τ) := fun s =>
  let run := x t
  ⟨run.trace.map label, s,
    match run.ending with
    | .done a => .done (a, run.state)
    | .failed e => .failed e
    | .crashed => .crashed⟩

end Action

end TachoPrint
