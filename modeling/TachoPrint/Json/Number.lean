import TachoPrint.Decimal.Basic

/-!
# Reading numbers

Which number a numeral stands for is up to its reader.  One rounds the exact value once;
another, which is common for its speed, rounds the digits and then scales them, and is off by
a little where both roundings matter.  Texts are read with a reader of numbers as a parameter.

## Main definitions

* `Json.NumberReader` — from the parts of a numeral to a number.
* `Json.NumberReader.nearest` — the number nearest to the exact value.
* `Json.NumberReader.scaled` — the number nearest to the digits, scaled by a power of ten.
-/

namespace TachoPrint.Json

/-- What number a numeral stands for: by its sign, the digits of its whole part and of its
fraction, and its exponent.  There is none past the largest finite number. -/
abbrev NumberReader : Type :=
  (negative : Bool) → (whole fraction : List Char) → (exponent : Int) → Option Binary64

namespace NumberReader

/-- The number nearest to the exact value. -/
def nearest : NumberReader := fun negative whole fraction exponent =>
  let a := (Decimal.ofParts negative whole fraction exponent).toBinary64
  if a.isFinite then some a else none

/-! ### Scaling -/

/-- The whole number that digits behind `n` spell as long as it fits in 64 bits, and how many
digits there are from the first that does not fit. -/
def accumulate (n : Nat) : List Char → Nat × Nat
  | [] => (n, 0)
  | c :: cs =>
      let m := 10 * n + (c.toNat - '0'.toNat)
      if m < 18446744073709551616 then accumulate m cs else (n, cs.length + 1)

/-- The exponent of the largest power of ten that is a number. -/
def maxPower : Nat := 308

/-- The number nearest to a power of ten. -/
def power (k : Nat) : Binary64 := .ofRatio false (Nat.pow 10 k) 1

/-- A number divided by the largest power of ten a number of times, unless it gets zero. -/
def shrink (a : Binary64) : Nat → Binary64
  | 0 => a
  | times + 1 => if a.equals 0 then a else shrink (a / power maxPower) times

/-- A number times a power of ten.  Each step is rounded on its own. -/
def scale (a : Binary64) (exponent : Int) : Option Binary64 :=
  if exponent < 0 then
    let k := (-exponent).toNat
    let times := (k - 1) / maxPower
    some (shrink a times / power (k - maxPower * times))
  else if exponent ≤ maxPower then
    let b := a * power exponent.toNat
    if b.isFinite then some b else none
  else if a.equals 0 then some a
  else none

/-- The number nearest to the digits, as many as fit in 64 bits, scaled by a power of ten.
Whole digits that do not fit count in the exponent, digits of the fraction are ignored. -/
def scaled : NumberReader := fun negative whole fraction exponent =>
  let (n, beyond) := accumulate 0 whole
  let (m, ignored) := accumulate n fraction
  let digits : Int := fraction.length - ignored
  (scale (.ofInt m) (exponent + beyond - digits)).map fun a => if negative then a.neg else a

end NumberReader

end TachoPrint.Json
