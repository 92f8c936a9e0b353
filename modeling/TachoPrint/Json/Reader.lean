import TachoPrint.Json.Number
import TachoPrint.Json.Value
import TachoPrint.Text.Hex

/-!
# Reading JSON

A text is read from left to right.  Each reader takes what it needs from the front
and hands on the rest; it gives nothing where the text does not fit.  Values may be
nested 127 deep.  Which number the parts of a numeral make is left to a reader of numbers.

## Main definitions

* `Json.Reader.stringBody` — the rest of a string behind its opening quote.
* `Json.Reader.numeral` — a number.
* `Json.Reader.value` — any value.
* `Json.ofText?` — the value that a whole text spells.
-/

namespace TachoPrint.Json

namespace Reader

/-- The characters that may stand between tokens. -/
def isSpace (c : Char) : Bool := c = ' ' || c = '\t' || c = '\n' || c = '\x0d'

/-- The text from its first token on. -/
def skipSpace (cs : List Char) : List Char := cs.dropWhile isSpace

/-! ### Strings -/

/-- A four-digit unit of an escape, and the rest. -/
def hexUnit (cs : List Char) : Option (Nat × List Char) :=
  if (cs.take 4).length = 4 then (hexNumber? (cs.take 4)).map fun n => (n, cs.drop 4) else none

/-- True of the units that start a pair. -/
def isLeading (n : Nat) : Bool := 0xd800 ≤ n && n < 0xdc00

/-- True of the units that end a pair. -/
def isTrailing (n : Nat) : Bool := 0xdc00 ≤ n && n < 0xe000

/-- The character behind `\u`: one unit, or a leading and a trailing unit that spell
one character together. -/
def unicodeEscape (cs : List Char) : Option (Char × List Char) := do
  let (n, rest) ← hexUnit cs
  if isLeading n then
    match rest with
    | '\\' :: 'u' :: rest' =>
        let (m, rest'') ← hexUnit rest'
        if isTrailing m then
          return (Char.ofNat (0x10000 + (n - 0xd800) * 0x400 + (m - 0xdc00)), rest'')
        else none
    | _ => none
  else if isTrailing n then none
  else return (Char.ofNat n, rest)

/-- The character that an escape spells, behind its backslash. -/
def escape : List Char → Option (Char × List Char)
  | '"' :: cs => some ('"', cs)
  | '\\' :: cs => some ('\\', cs)
  | '/' :: cs => some ('/', cs)
  | 'b' :: cs => some ('\x08', cs)
  | 'f' :: cs => some ('\x0c', cs)
  | 'n' :: cs => some ('\n', cs)
  | 'r' :: cs => some ('\x0d', cs)
  | 't' :: cs => some ('\t', cs)
  | 'u' :: cs => unicodeEscape cs
  | _ => none

/-- The rest of a string behind its opening quote.  Control characters have to be
escaped; `fuel` bounds the number of characters. -/
def stringBody : (fuel : Nat) → List Char → Option (List Char × List Char)
  | 0, _ => none
  | _, [] => none
  | fuel + 1, c :: cs =>
      if c = '"' then some ([], cs)
      else if c = '\\' then do
        let (e, rest) ← escape cs
        let (body, rest) ← stringBody fuel rest
        return (e :: body, rest)
      else if c.toNat < 0x20 then none
      else do
        let (body, rest) ← stringBody fuel cs
        return (c :: body, rest)

/-! ### Numbers -/

/-- The digits in front, at least one, and the rest. -/
def someDigits (cs : List Char) : Option (List Char × List Char) :=
  match cs.takeWhile Char.isDigit with
  | [] => none
  | ds => some (ds, cs.dropWhile Char.isDigit)

/-- The whole part of a number: a zero alone, or digits without a zero in front. -/
def wholePart : List Char → Option (List Char × List Char)
  | '0' :: cs => some (['0'], cs)
  | cs => someDigits cs

/-- An optional fraction. -/
def fractionPart : List Char → Option (List Char × List Char)
  | '.' :: cs => someDigits cs
  | cs => some ([], cs)

/-- The digits of an exponent behind its letter, and their sign. -/
def signedDigits (cs : List Char) : Option (Int × List Char) := do
  let (negative, rest) := Decimal.splitSign cs
  let (ds, rest) ← someDigits rest
  let n : Int := Decimal.ofDigits ds
  return (if negative then -n else n, rest)

/-- An optional exponent. -/
def exponentPart : List Char → Option (Option Int × List Char)
  | 'e' :: cs => (signedDigits cs).map fun (n, rest) => (some n, rest)
  | 'E' :: cs => (signedDigits cs).map fun (n, rest) => (some n, rest)
  | cs => some (none, cs)

/-- The integer that digits spell, where it fits in 64 bits.  Negative zero is no
integer. -/
def integer? (negative : Bool) (whole : List Char) : Option Int :=
  let n := Decimal.ofDigits whole
  if negative then
    if 0 < n ∧ n ≤ 9223372036854775808 then some (-n) else none
  else if n < 18446744073709551616 then some n
  else none

/-- A number.  One for which the reader of numbers has no answer is refused. -/
def numeral (read : NumberReader) (cs : List Char) : Option (Json × List Char) := do
  let (negative, rest) := match cs with
    | '-' :: rest => (true, rest)
    | rest => (false, rest)
  let (whole, rest) ← wholePart rest
  let (fraction, rest) ← fractionPart rest
  let (exponent, rest) ← exponentPart rest
  let exact := if fraction = [] ∧ exponent = none then integer? negative whole else none
  match exact with
  | some i => return (.integer i, rest)
  | none => return (.number (← read negative whole fraction (exponent.getD 0)), rest)

/-! ### Values -/

/-- The text behind a name, if it starts with it. -/
def dropName : (name : List Char) → List Char → Option (List Char)
  | [], cs => some cs
  | _ :: _, [] => none
  | n :: name, c :: cs => if n = c then dropName name cs else none

mutual

/-- A value, with the first token in front.  `depth` is how deep it may be nested. -/
def value (read : NumberReader) : (fuel depth : Nat) → List Char → Option (Json × List Char)
  | 0, _, _ => none
  | fuel + 1, depth, cs =>
      match cs with
      | '{' :: cs =>
          if depth = 0 then none
          else match skipSpace cs with
            | '}' :: rest => some (.object [], rest)
            | rest => (members read fuel (depth - 1) rest).map fun (ms, rest) => (.object ms, rest)
      | '[' :: cs =>
          if depth = 0 then none
          else match skipSpace cs with
            | ']' :: rest => some (.array [], rest)
            | rest => (items read fuel (depth - 1) rest).map fun (is, rest) => (.array is, rest)
      | '"' :: cs =>
          (stringBody fuel cs).map fun (body, rest) => (.text (String.ofList body), rest)
      | 'n' :: _ => (dropName ['n', 'u', 'l', 'l'] cs).map fun rest => (.null, rest)
      | 't' :: _ => (dropName ['t', 'r', 'u', 'e'] cs).map fun rest => (.boolean true, rest)
      | 'f' :: _ => (dropName ['f', 'a', 'l', 's', 'e'] cs).map fun rest => (.boolean false, rest)
      | _ => numeral read cs

/-- The items of an array up to its bracket, at least one. -/
def items (read : NumberReader) : (fuel depth : Nat) → List Char → Option (List Json × List Char)
  | 0, _, _ => none
  | fuel + 1, depth, cs => do
      let (v, rest) ← value read fuel depth cs
      match skipSpace rest with
      | ',' :: rest =>
          let (vs, rest) ← items read fuel depth (skipSpace rest)
          return (v :: vs, rest)
      | ']' :: rest => return ([v], rest)
      | _ => none

/-- The members of an object up to its brace, at least one. -/
def members (read : NumberReader) :
    (fuel depth : Nat) → List Char → Option (List (String × Json) × List Char)
  | 0, _, _ => none
  | fuel + 1, depth, cs =>
      match cs with
      | '"' :: cs => do
          let (name, rest) ← stringBody fuel cs
          match skipSpace rest with
          | ':' :: rest =>
              let (v, rest) ← value read fuel depth (skipSpace rest)
              match skipSpace rest with
              | ',' :: rest =>
                  let (ms, rest) ← members read fuel depth (skipSpace rest)
                  return ((String.ofList name, v) :: ms, rest)
              | '}' :: rest => return ([(String.ofList name, v)], rest)
              | _ => none
          | _ => none
      | _ => none

end

/-- How deep values may be nested. -/
def maxDepth : Nat := 127

end Reader

/-- The value that a whole text spells.  Every step of the reader but one in two takes
a character, which bounds their number. -/
def ofChars? (read : NumberReader) (cs : List Char) : Option Json :=
  match Reader.value read (2 * cs.length + 2) Reader.maxDepth (Reader.skipSpace cs) with
  | some (v, rest) => if Reader.skipSpace rest = [] then some v else none
  | none => none

/-- The value that a whole text spells. -/
def ofText? (read : NumberReader) (text : String) : Option Json := ofChars? read text.toList

end TachoPrint.Json
