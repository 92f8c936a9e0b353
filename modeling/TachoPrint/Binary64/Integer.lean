import TachoPrint.Binary64.Arith

/-!
# From numbers to machine integers

Tacho counts and microseconds are whole: a number goes to the nearest integer, a
half away from zero, and a number out of range to the nearest integer in range.

## Main definitions

* `Binary64.nearestInt` — the nearest integer between two bounds.
* `Binary64.toInt32`, `Binary64.toUInt64` — the same for the two machine widths.
-/

namespace TachoPrint.Binary64

/-- The whole number nearest to `n` units, a half going up. -/
def wholeUnits (n : Nat) : Nat := (2 * n + one) / (2 * one)

/-- The integer between `low` and `high` that is nearest to a number, a half going
away from zero; NaN counts as zero. -/
def nearestInt (low high : Int) : Binary64 → Int
  | .nan => 0
  | .inf s => if s then low else high
  | .finite s n _ => max low (min high (signed s (wholeUnits n)))

/-- The nearest signed 32-bit integer. -/
def toInt32 (a : Binary64) : Int32 := Int32.ofInt (a.nearestInt (-2147483648) 2147483647)

/-- The nearest unsigned 64-bit integer. -/
def toUInt64 (a : Binary64) : UInt64 := UInt64.ofNat (a.nearestInt 0 18446744073709551615).toNat

end TachoPrint.Binary64
