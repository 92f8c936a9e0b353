/-!
# Outcomes

An operation of the printer ends in one of three ways: it has a result, it is
refused for a stated cause, or the program crashes because its arithmetic has no
answer.  A crash is not a cause: nothing catches it.

## Main definitions

* `Outcome` — the three endings, a monad.
* `Outcome.ofExcept`, `Outcome.orCrash` — from a refusal, and from a missing answer.
-/

namespace TachoPrint

/-- How an operation ends. -/
inductive Outcome (ε α : Type) where
  /-- It has a result. -/
  | done (a : α) : Outcome ε α
  /-- It is refused. -/
  | failed (e : ε) : Outcome ε α
  /-- Its arithmetic has no answer and the program stops. -/
  | crashed : Outcome ε α
  deriving DecidableEq, Repr, Inhabited

namespace Outcome

variable {ε ε' α β : Type}

/-- Go on with the result, if there is one. -/
def bind (x : Outcome ε α) (f : α → Outcome ε β) : Outcome ε β :=
  match x with
  | done a => f a
  | failed e => failed e
  | crashed => crashed

instance : Monad (Outcome ε) where
  pure := done
  bind := bind

instance : LawfulMonad (Outcome ε) :=
  LawfulMonad.mk' _ (fun x => by cases x <;> rfl) (fun _ _ => rfl)
    (fun x _ _ => by cases x <;> rfl)

/-- A refusal or a result. -/
def ofExcept : Except ε α → Outcome ε α
  | .ok a => done a
  | .error e => failed e

/-- A missing answer is a crash. -/
def orCrash : Option α → Outcome ε α
  | some a => done a
  | none => crashed

/-- The same ending with the cause seen through `f`. -/
def mapError (f : ε → ε') : Outcome ε α → Outcome ε' α
  | done a => done a
  | failed e => failed (f e)
  | crashed => crashed

/-- True when there is a result. -/
def isDone : Outcome ε α → Bool
  | done _ => true
  | _ => false

end Outcome

end TachoPrint
