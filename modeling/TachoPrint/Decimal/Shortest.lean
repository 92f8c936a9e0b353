import TachoPrint.Decimal.Basic

/-!
# Shortest decimal numerals

The numeral that is printed for a number is the shortest one that reads back as
the same number, and of those the nearest to it.  A numeral reads back as a number
when it lies in the interval of reals that round to the number; the ends belong to
the interval when the last of the 53 bits is zero, since a tie goes to the even
neighbour.

A numeral whose last digit counts `10 ^ k` is a point of the grid of multiples of
`10 ^ k`.  A coarser grid means fewer digits, so the grids are tried from the
coarsest down.  If any point of a grid lies in the interval, one of the two
neighbours of the number on that grid does.

## Main definitions

* `Tie` — which of two equally near points is taken.
* `Interval` — the reals that round to a number, in quarter units.
* `Interval.onGrid?` — the best numeral on one grid.
* `Binary64.shortest` — the shortest numeral of a number.
-/

namespace TachoPrint

/-- What happens to a number exactly halfway between two grid points. -/
inductive Tie where
  /-- The larger magnitude is taken. -/
  | away
  /-- The point with an even last digit is taken. -/
  | even
  deriving DecidableEq, Repr, Inhabited

/-- The magnitudes that round to a number.  All three are in quarters of a unit,
so that every bound is whole. -/
structure Interval where
  /-- Halfway to the neighbour below. -/
  low : Nat
  /-- The number itself. -/
  value : Nat
  /-- Halfway to the neighbour above. -/
  high : Nat
  /-- The two ends round to the number too. -/
  closed : Bool
  deriving DecidableEq, Repr, Inhabited

namespace Interval

/-- The interval of a number of `n` units.  The gap below a power of two is half
the gap above it. -/
def ofUnits (n : Nat) : Interval :=
  let gap := Binary64.gap n
  { low := 4 * n - if 2 * n = Binary64.significandEnd * gap ∧ 1 < gap then gap else 2 * gap
    value := 4 * n
    high := 4 * n + 2 * gap
    closed := n / gap % 2 == 0 }

/-- The magnitude `n / scale` lies in the interval. -/
def holds (i : Interval) (scale n : Nat) : Bool :=
  if i.closed then decide (i.low * scale ≤ n ∧ n ≤ i.high * scale)
  else decide (i.low * scale < n ∧ n < i.high * scale)

/-- The nearest multiple of `10 ^ k` in the interval, counted in `10 ^ k`. -/
def onGrid? (i : Interval) (tie : Tie) (k : Int) : Option Nat :=
  let scale := Nat.pow 10 (-k).toNat
  let step := 4 * Binary64.one * Nat.pow 10 k.toNat
  let value := i.value * scale
  let d := value / step
  match i.holds scale (d * step), i.holds scale ((d + 1) * step) with
  | true, true =>
      let below := value - d * step
      let above := (d + 1) * step - value
      if below < above then some d
      else if above < below then some (d + 1)
      else match tie with
        | .away => some (d + 1)
        | .even => some (d + d % 2)
  | true, false => some d
  | false, true => some (d + 1)
  | false, false => none

end Interval

/-- A power of ten above every magnitude of `n` units, by at most a thousandfold:
`log₁₀ 2` is just under `30103 / 100000`. -/
def Binary64.gridTop (n : Nat) : Int := ((n.log2 : Int) - 1074) * 30103 / 100000 + 2

/-- The shortest numeral of a number of `n` units: its digits and their power of
ten.  Seventeen digits always suffice, so twenty grids do. -/
def Binary64.shortestUnits (tie : Tie) (n : Nat) : Nat × Int :=
  let i := Interval.ofUnits n
  let top := gridTop n
  ((List.range 20).findSome? fun (j : Nat) =>
    (i.onGrid? tie (top - j)).map fun d => (d, top - j)).getD (0, 0)

/-- The shortest numeral of a finite number. -/
def Binary64.shortest (tie : Tie) (negative : Bool) (n : Nat) : Decimal :=
  if n = 0 then ⟨negative, 0, 0⟩
  else
    let (d, k) := shortestUnits tie n
    ⟨negative, d, k⟩

end TachoPrint
