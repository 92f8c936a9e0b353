import TachoPrint.Binary64.Arith

/-!
# Decimal numerals

A decimal numeral is a signed whole number of a power of ten.  It is what a reader
finds in a text and what a printer chooses for a number.

## Main definitions

* `Decimal` — sign, digits and power of ten.
* `Decimal.toBinary64` — the nearest double precision number.
* `Decimal.ofUnsigned?` — the numeral that a text without a sign spells.
* `Binary64.ofText?` — the number that a text spells, which may be infinite or NaN by name.
* `wordNumber?` — a whole number that fits in 32 bits.
-/

namespace TachoPrint

/-- A decimal numeral: `digits * 10 ^ exponent` with a sign. -/
structure Decimal where
  /-- Below zero, or negative zero. -/
  negative : Bool
  /-- The digits, read as one whole number. -/
  digits : Nat
  /-- The power of ten that the last digit counts. -/
  exponent : Int
  deriving DecidableEq, Repr, Inhabited

namespace Decimal

/-- The double precision number nearest to a numeral.  `10 ^ e` is at least
`2 ^ (3 * e)`, which settles far-off exponents without building the power: the
numeral is then past the overflow threshold, or less than half a unit. -/
def toBinary64 (d : Decimal) : Binary64 :=
  if d.digits = 0 then
    .zero d.negative
  else if 0 ≤ d.exponent then
    if 1030 < 3 * d.exponent then .inf d.negative
    else .ofRatio d.negative (d.digits * Nat.pow 10 d.exponent.toNat) 1
  else if d.digits.log2 + 1 + 3 * d.exponent < -1080 then
    .zero d.negative
  else
    .ofRatio d.negative d.digits (Nat.pow 10 (-d.exponent).toNat)

/-! ### Reading -/

/-- The whole number that a list of digits spells. -/
def ofDigits (cs : List Char) : Nat := cs.foldl (fun n c => 10 * n + (c.toNat - '0'.toNat)) 0

/-- The numeral with these digits before and after the point. -/
def ofParts (negative : Bool) (whole fraction : List Char) (exponent : Int) : Decimal :=
  ⟨negative, ofDigits (whole ++ fraction), exponent - fraction.length⟩

/-- A leading sign, and the text after it. -/
def splitSign : List Char → Bool × List Char
  | '-' :: cs => (true, cs)
  | '+' :: cs => (false, cs)
  | cs => (false, cs)

/-- An optional fraction: a point and the digits after it. -/
def splitFraction : List Char → List Char × List Char
  | '.' :: cs => (cs.takeWhile Char.isDigit, cs.dropWhile Char.isDigit)
  | cs => ([], cs)

/-- The value of an exponent that makes up the whole text: nothing at all, or the
letter `e` in either case, an optional sign and at least one digit. -/
def exponent? : List Char → Option Int
  | [] => some 0
  | c :: cs =>
      let (negative, ds) := splitSign cs
      if (c = 'e' ∨ c = 'E') ∧ ds ≠ [] ∧ ds.all Char.isDigit then
        some (if negative then -(ofDigits ds : Int) else ofDigits ds)
      else
        none

/-- The numeral that a text without a sign spells: digits with an optional point,
at least one digit in all, and an optional exponent. -/
def ofUnsigned? (negative : Bool) (cs : List Char) : Option Decimal :=
  let whole := cs.takeWhile Char.isDigit
  let (fraction, rest) := splitFraction (cs.dropWhile Char.isDigit)
  if whole = [] ∧ fraction = [] then none
  else (exponent? rest).map (ofParts negative whole fraction)

end Decimal

/-- The number that a text spells: `inf`, `infinity` or `nan` in any case, or a
decimal numeral, with an optional sign. -/
def Binary64.ofText? (cs : List Char) : Option Binary64 :=
  let (negative, rest) := Decimal.splitSign cs
  let name := String.ofList (rest.map Char.toLower)
  if name = "inf" ∨ name = "infinity" then some (.inf negative)
  else if name = "nan" then some .nan
  else (Decimal.ofUnsigned? negative rest).map Decimal.toBinary64

/-- The whole number below `2 ^ 32` that a text spells: at least one digit, after
an optional plus sign. -/
def wordNumber? (cs : List Char) : Option Nat :=
  let ds := match cs with
    | '+' :: ds => ds
    | ds => ds
  if ds ≠ [] ∧ ds.all Char.isDigit ∧ Decimal.ofDigits ds < 4294967296 then
    some (Decimal.ofDigits ds)
  else
    none

end TachoPrint
