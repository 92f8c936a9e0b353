import TachoPrint.Decimal.Shortest

/-!
# How numbers are written

The digits of a number are its shortest numeral; a layout says how they are set
out.  Each format of the printer has a layout of its own.

## Main definitions

* `Layout` — the choices of a format.
* `Decimal.plain`, `Decimal.scientific` — the two ways to set out digits.
* `Layout.chars`, `Layout.text` — the text of a number.
* `Layout.message` — the layout of numbers inside messages.
-/

namespace TachoPrint

/-- The choices of a number format. -/
structure Layout where
  /-- Between two equally near shortest numerals. -/
  tie : Tie
  /-- The exponents of the leading digit that are written without an `e`. -/
  isPlain : Int → Bool
  /-- What follows a whole number that is written without an `e`. -/
  wholeMark : List Char
  /-- The name of NaN. -/
  nanName : List Char
  /-- The name of infinity. -/
  infName : List Char

namespace Decimal

/-- The decimal digits of a whole number. -/
def digitChars (n : Nat) : List Char := Nat.toDigits 10 n

/-- Digits that count `10 ^ exponent`, set out with a point and no `e`. -/
def plain (wholeMark ds : List Char) (exponent : Int) : List Char :=
  let places := (-exponent).toNat
  if places = 0 then
    ds ++ List.replicate exponent.toNat '0' ++ wholeMark
  else if places < ds.length then
    ds.take (ds.length - places) ++ '.' :: ds.drop (ds.length - places)
  else
    '0' :: '.' :: (List.replicate (places - ds.length) '0' ++ ds)

/-- Digits with a point after the first and the exponent of the first, whose sign
is always written. -/
def scientific (ds : List Char) (leading : Int) : List Char :=
  let point := match ds.drop 1 with
    | [] => []
    | rest => '.' :: rest
  ds.take 1 ++ point ++ 'e' :: (if leading < 0 then '-' else '+') :: digitChars leading.natAbs

/-- A numeral set out by a layout. -/
def chars (layout : Layout) (d : Decimal) : List Char :=
  let ds := digitChars d.digits
  let leading := d.exponent + ds.length - 1
  let body := if layout.isPlain leading then plain layout.wholeMark ds d.exponent
    else scientific ds leading
  if d.negative then '-' :: body else body

end Decimal

namespace Layout

/-- The text of a number, as characters. -/
def chars (layout : Layout) : Binary64 → List Char
  | .nan => layout.nanName
  | .inf negative => if negative then '-' :: layout.infName else layout.infName
  | .finite negative n _ => (Binary64.shortest layout.tie negative n).chars layout

/-- The text of a number. -/
def text (layout : Layout) (a : Binary64) : String := String.ofList (layout.chars a)

/-- Numbers inside messages never have an exponent, and whole ones no point. -/
def message : Layout where
  tie := .away
  isPlain _ := true
  wholeMark := []
  nanName := ['N', 'a', 'N']
  infName := ['i', 'n', 'f']

end Layout

end TachoPrint
