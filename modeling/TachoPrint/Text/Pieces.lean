/-!
# Pieces

A list is cut at every occurrence of a mark.

## Main definitions

* `pieces` — what lies between the marks, in order.

## Main results

* `pieces_ne_nil` — there is always a piece.
* `pieces_of_not_mem` — without a mark there is one piece, the whole.
-/

namespace TachoPrint

variable {α : Type} [DecidableEq α]

/-- One more item in front: a mark starts a new piece, any other item joins the
first one. -/
def pieceStep (mark : α) (x : α) (s : List α × List (List α)) : List α × List (List α) :=
  if x = mark then ([], s.1 :: s.2) else (x :: s.1, s.2)

/-- The pieces between marks, in order; they may be empty. -/
def pieces (mark : α) (xs : List α) : List (List α) :=
  let (first, rest) := xs.foldr (pieceStep mark) ([], [])
  first :: rest

theorem pieces_ne_nil (mark : α) (xs : List α) : pieces mark xs ≠ [] := List.cons_ne_nil _ _

theorem foldr_pieceStep_of_not_mem {mark : α} {xs : List α} (h : mark ∉ xs) :
    xs.foldr (pieceStep mark) ([], []) = (xs, []) := by
  induction xs with
  | nil => rfl
  | cons x xs ih =>
    rw [List.mem_cons, not_or] at h
    rw [List.foldr_cons, ih h.2, pieceStep, if_neg (Ne.symm h.1)]

theorem pieces_of_not_mem {mark : α} {xs : List α} (h : mark ∉ xs) : pieces mark xs = [xs] := by
  rw [pieces, foldr_pieceStep_of_not_mem h]

end TachoPrint
