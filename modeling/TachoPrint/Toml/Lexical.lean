import TachoPrint.Decimal.Basic
import TachoPrint.Text.Hex
import TachoPrint.Toml.Item

/-!
# The words of TOML

Blanks, comments, keys, strings, numbers, dates and times.  Each reader takes what it
needs from the front of a text and hands on the rest; it gives nothing where the text
does not fit.

## Main definitions

* `Toml.skipBlank`, `Toml.lineEnd?` — what may stand between words and after them.
* `Toml.basicBody`, `Toml.literalBody` — strings on one line.
* `Toml.longBasicBody`, `Toml.longLiteralBody` — strings on several lines.
* `Toml.dottedKey` — a key with its parts.
* `Toml.instant?`, `Toml.numeral` — dates, times and numbers.
-/

namespace TachoPrint.Toml

/-! ### Blanks, comments and line ends -/

/-- Spaces and tabs. -/
def isBlank (c : Char) : Bool := c = ' ' || c = '\t'

/-- The text from its first character that is no blank. -/
def skipBlank (cs : List Char) : List Char := cs.dropWhile isBlank

/-- What may stand in comments and between the quotes of strings: the tab, and
everything from the space on but the delete character. -/
def isPlain (c : Char) : Bool := c = '\t' || (0x20 ≤ c.toNat && c ≠ '\x7f')

/-- The text behind a line feed, with or without a carriage return before it. -/
def newline? : List Char → Option (List Char)
  | '\n' :: cs => some cs
  | '\x0d' :: '\n' :: cs => some cs
  | _ => none

/-- The text without a comment in front. -/
def skipComment : List Char → List Char
  | '#' :: cs => cs.dropWhile isPlain
  | cs => cs

/-- The text behind the end of a line: blanks, a comment, and a line end or the end of
the document. -/
def lineEnd? (cs : List Char) : Option (List Char) :=
  match skipComment (skipBlank cs) with
  | [] => some []
  | rest => newline? rest

/-- The text behind blanks, line ends and comments; `fuel` bounds their number. -/
def skipLines : (fuel : Nat) → List Char → List Char
  | 0, cs => cs
  | fuel + 1, cs =>
      match skipBlank cs with
      | '#' :: rest => skipLines fuel (skipComment ('#' :: rest))
      | rest =>
          match newline? rest with
          | some rest => skipLines fuel rest
          | none => rest

/-! ### Strings -/

/-- The character with the code that `width` hexadecimal digits spell, and the rest.
Surrogates are no characters. -/
def hexChar (width : Nat) (cs : List Char) : Option (Char × List Char) := do
  if (cs.take width).length ≠ width then none
  let n ← hexNumber? (cs.take width)
  if n < 0xd800 ∨ (0xe000 ≤ n ∧ n < 0x110000) then return (Char.ofNat n, cs.drop width) else none

/-- The character that an escape spells, behind its backslash. -/
def escape : List Char → Option (Char × List Char)
  | 'b' :: cs => some ('\x08', cs)
  | 't' :: cs => some ('\t', cs)
  | 'n' :: cs => some ('\n', cs)
  | 'f' :: cs => some ('\x0c', cs)
  | 'r' :: cs => some ('\x0d', cs)
  | '"' :: cs => some ('"', cs)
  | '\\' :: cs => some ('\\', cs)
  | 'u' :: cs => hexChar 4 cs
  | 'U' :: cs => hexChar 8 cs
  | _ => none

/-- The rest of a string behind its opening quote; `fuel` bounds its length. -/
def basicBody : (fuel : Nat) → List Char → Option (List Char × List Char)
  | 0, _ => none
  | _, [] => none
  | fuel + 1, c :: cs =>
      if c = '"' then some ([], cs)
      else if c = '\\' then do
        let (e, rest) ← escape cs
        let (body, rest) ← basicBody fuel rest
        return (e :: body, rest)
      else if isPlain c then do
        let (body, rest) ← basicBody fuel cs
        return (c :: body, rest)
      else none

/-- The rest of a string without escapes behind its opening quote. -/
def literalBody (cs : List Char) : Option (List Char × List Char) :=
  let isBody := fun c => isPlain c && c != '\''
  match cs.dropWhile isBody with
  | '\'' :: rest => some (cs.takeWhile isBody, rest)
  | _ => none

/-- The end of a long string, whose text starts with three quotes: up to two more
quotes in front of them belong to the string. -/
def longEnd (quote : Char) : List Char → Option (List Char × List Char)
  | a :: b :: c :: cs =>
      if a = quote ∧ b = quote ∧ c = quote then
        match cs with
        | d :: e :: rest =>
            if d = quote ∧ e = quote then some ([quote, quote], rest)
            else if d = quote then some ([quote], e :: rest)
            else some ([], cs)
        | [d] => if d = quote then some ([quote], []) else some ([], cs)
        | [] => some ([], [])
      else none
  | _ => none

/-- The text behind a backslash at the end of a line: the blanks and line ends up to
the next word are no part of the string. -/
def joinedLine? (fuel : Nat) (cs : List Char) : Option (List Char) :=
  (newline? (skipBlank cs)).map (skipEmpty fuel)
where
  /-- The text behind blanks and line ends. -/
  skipEmpty : Nat → List Char → List Char
    | 0, cs => cs
    | fuel + 1, cs =>
        match newline? (skipBlank cs) with
        | some rest => skipEmpty fuel rest
        | none => skipBlank cs

/-- The rest of a long string; `fuel` bounds its length. -/
def longBasicBody : (fuel : Nat) → List Char → Option (List Char × List Char)
  | 0, _ => none
  | fuel + 1, cs =>
      match longEnd '"' cs with
      | some result => some result
      | none =>
          match newline? cs with
          | some rest => (longBasicBody fuel rest).map fun (body, rest) => ('\n' :: body, rest)
          | none =>
              match cs with
              | [] => none
              | '\\' :: cs =>
                  match joinedLine? fuel cs with
                  | some rest => longBasicBody fuel rest
                  | none => do
                      let (e, rest) ← escape cs
                      let (body, rest) ← longBasicBody fuel rest
                      return (e :: body, rest)
              | c :: cs =>
                  if isPlain c then
                    (longBasicBody fuel cs).map fun (body, rest) => (c :: body, rest)
                  else none

/-- The rest of a long string without escapes; `fuel` bounds its length. -/
def longLiteralBody : (fuel : Nat) → List Char → Option (List Char × List Char)
  | 0, _ => none
  | fuel + 1, cs =>
      match longEnd '\'' cs with
      | some result => some result
      | none =>
          match newline? cs with
          | some rest => (longLiteralBody fuel rest).map fun (body, rest) => ('\n' :: body, rest)
          | none =>
              match cs with
              | [] => none
              | c :: cs =>
                  if isPlain c then
                    (longLiteralBody fuel cs).map fun (body, rest) => (c :: body, rest)
                  else none

/-- The text without the line end in front that a long string may start with. -/
def dropFirstNewline (cs : List Char) : List Char := (newline? cs).getD cs

/-- A string of any kind, from its opening quote on. -/
def anyString (fuel : Nat) : List Char → Option (List Char × List Char)
  | '"' :: '"' :: '"' :: cs => longBasicBody fuel (dropFirstNewline cs)
  | '"' :: cs => basicBody fuel cs
  | '\'' :: '\'' :: '\'' :: cs => longLiteralBody fuel (dropFirstNewline cs)
  | '\'' :: cs => literalBody cs
  | _ => none

/-! ### Keys -/

/-- What a key without quotes consists of. -/
def isBare (c : Char) : Bool := c.isAlphanum || c = '-' || c = '_'

/-- One part of a key. -/
def keyPart (fuel : Nat) : List Char → Option (String × List Char)
  | '"' :: cs => (basicBody fuel cs).map fun (body, rest) => (String.ofList body, rest)
  | '\'' :: cs => (literalBody cs).map fun (body, rest) => (String.ofList body, rest)
  | cs =>
      match cs.takeWhile isBare with
      | [] => none
      | name => some (String.ofList name, cs.dropWhile isBare)

/-- The parts of a key, with points between them and blanks around them; `fuel` bounds
their number and length. -/
def keyParts : (fuel : Nat) → List Char → Option (List String × List Char)
  | 0, _ => none
  | fuel + 1, cs => do
      let (part, rest) ← keyPart fuel (skipBlank cs)
      match skipBlank rest with
      | '.' :: rest =>
          let (parts, rest) ← keyParts fuel rest
          return (part :: parts, rest)
      | rest => return ([part], rest)

/-- How deep keys and values may be nested. -/
def depthLimit : Nat := 80

/-- A key with less than eighty parts. -/
def dottedKey (fuel : Nat) (cs : List Char) : Option (List String × List Char) := do
  let (parts, rest) ← keyParts fuel cs
  if parts.length < depthLimit then return (parts, rest) else none

/-! ### Dates and times -/

/-- A whole number of exactly `width` digits. -/
def fixedNumber (width : Nat) (cs : List Char) : Option (Nat × List Char) :=
  let ds := cs.take width
  if ds.length = width ∧ ds.all Char.isDigit then some (Decimal.ofDigits ds, cs.drop width)
  else none

/-- The text behind one expected character. -/
def expect (c : Char) : List Char → Option (List Char)
  | d :: cs => if d = c then some cs else none
  | [] => none

/-- The days of a month. -/
def daysIn (year month : Nat) : Nat :=
  if month = 2 then
    if year % 4 = 0 ∧ (year % 100 ≠ 0 ∨ year % 400 = 0) then 29 else 28
  else if month = 4 ∨ month = 6 ∨ month = 9 ∨ month = 11 then 30
  else 31

/-- The text behind a date. -/
def date? (cs : List Char) : Option (List Char) := do
  let (year, rest) ← fixedNumber 4 cs
  let (month, rest) ← fixedNumber 2 (← expect '-' rest)
  let (day, rest) ← fixedNumber 2 (← expect '-' rest)
  if 1 ≤ month ∧ month ≤ 12 ∧ 1 ≤ day ∧ day ≤ daysIn year month then some rest else none

/-- The text without a fraction of a second in front. -/
def skipFraction : List Char → List Char
  | '.' :: c :: cs => if c.isDigit then cs.dropWhile Char.isDigit else '.' :: c :: cs
  | cs => cs

/-- The text behind a time of day. -/
def time? (cs : List Char) : Option (List Char) := do
  let (hour, rest) ← fixedNumber 2 cs
  let (minute, rest) ← fixedNumber 2 (← expect ':' rest)
  let (second, rest) ← fixedNumber 2 (← expect ':' rest)
  if hour ≤ 23 ∧ minute ≤ 59 ∧ second ≤ 60 then some (skipFraction rest) else none

/-- The text behind an offset from universal time. -/
def offset? : List Char → Option (List Char)
  | 'Z' :: cs => some cs
  | 'z' :: cs => some cs
  | c :: cs =>
      if c = '+' ∨ c = '-' then do
        let (hour, rest) ← fixedNumber 2 cs
        let (minute, rest) ← fixedNumber 2 (← expect ':' rest)
        if hour ≤ 23 ∧ minute ≤ 59 then some rest else none
      else none
  | [] => none

/-- The text behind the time of day that may follow a date. -/
def skipTime (cs : List Char) : List Char :=
  match cs with
  | c :: rest =>
      if c = 'T' ∨ c = 't' ∨ c = ' ' then
        match time? rest with
        | some rest => (offset? rest).getD rest
        | none => cs
      else cs
  | [] => cs

/-- The text behind a date, a date with a time, or a time. -/
def instant? (cs : List Char) : Option (List Char) :=
  match date? cs with
  | some rest => some (skipTime rest)
  | none => time? cs

/-! ### Numbers -/

/-- The digits in front, of which there has to be one, without the underscores that may
stand between two of them; and the rest. -/
def digitRun (isDigit : Char → Bool) : List Char → Option (List Char × List Char)
  | [] => none
  | c :: cs => if isDigit c then some (c :: (more cs).1, (more cs).2) else none
where
  /-- The digits behind another. -/
  more : List Char → List Char × List Char
    | '_' :: c :: cs =>
        if isDigit c then (c :: (more cs).1, (more cs).2) else ([], '_' :: c :: cs)
    | c :: cs => if isDigit c then (c :: (more cs).1, (more cs).2) else ([], c :: cs)
    | [] => ([], [])

/-- The whole part of a number: a zero alone, or digits without a zero in front. -/
def wholePart : List Char → Option (List Char × List Char)
  | '0' :: cs => some (['0'], cs)
  | cs => digitRun Char.isDigit cs

/-- An optional fraction: its text with the point, without underscores. -/
def fractionPart : List Char → Option (List Char × List Char)
  | '.' :: cs => (digitRun Char.isDigit cs).map fun (ds, rest) => ('.' :: ds, rest)
  | cs => some ([], cs)

/-- An optional sign: its text, and the rest. -/
def signPart : List Char → List Char × List Char
  | '+' :: cs => (['+'], cs)
  | '-' :: cs => (['-'], cs)
  | cs => ([], cs)

/-- An optional exponent: its text without underscores. -/
def exponentPart : List Char → Option (List Char × List Char)
  | c :: cs =>
      if c = 'e' ∨ c = 'E' then
        let (sign, rest) := signPart cs
        (digitRun Char.isDigit rest).map fun (ds, rest) => ('e' :: (sign ++ ds), rest)
      else some ([], c :: cs)
  | [] => some ([], [])

/-- An integer, which has to fit in 64 bits. -/
def fitting? (i : Int) : Option Item :=
  if -9223372036854775808 ≤ i ∧ i ≤ 9223372036854775807 then some (.integer i) else none

/-- A whole number to another base, behind its mark. -/
def basedInteger (base : Nat) (cs : List Char) : Option (Item × List Char) := do
  let isDigit := fun c => (hexDigit? c).any (· < base)
  let (ds, rest) ← digitRun isDigit cs
  let n := ds.foldl (fun n c => base * n + (hexDigit? c).getD 0) 0
  return (← fitting? n, rest)

/-- Infinity or NaN behind its sign. -/
def namedNumber? (negative : Bool) : List Char → Option (Item × List Char)
  | 'i' :: 'n' :: 'f' :: cs => some (.number (.inf negative), cs)
  | 'n' :: 'a' :: 'n' :: cs => some (.number .nan, cs)
  | _ => none

/-- A decimal number: an integer, unless it has a fraction or an exponent.  A number
too large to be finite is refused, one too far below zero is minus infinity. -/
def decimal (cs : List Char) : Option (Item × List Char) := do
  let (sign, rest) := signPart cs
  let (whole, rest) ← wholePart rest
  let (fraction, rest) ← fractionPart rest
  let (exponent, rest) ← exponentPart rest
  let negative := sign = ['-']
  if fraction = [] ∧ exponent = [] then
    let n : Int := Decimal.ofDigits whole
    return (← fitting? (if negative then -n else n), rest)
  else
    let a ← Binary64.ofText? (sign ++ whole ++ fraction ++ exponent)
    if a = .inf false then none else return (.number a, rest)

/-- A number of any kind. -/
def numeral (cs : List Char) : Option (Item × List Char) :=
  let (sign, rest) := signPart cs
  match namedNumber? (sign = ['-']) rest with
  | some result => some result
  | none =>
      match cs with
      | '0' :: 'x' :: cs => basedInteger 16 cs
      | '0' :: 'o' :: cs => basedInteger 8 cs
      | '0' :: 'b' :: cs => basedInteger 2 cs
      | cs => decimal cs

end TachoPrint.Toml
