import TachoPrint.Toml.Lexical

/-!
# TOML documents

A document is a list of statements, one a line: a key with its value, or the header of
a table.  The values up to the first header belong to the document itself, the others
to the table of the header above them.

## Main definitions

* `Toml.value` — a value, with the values inside it.
* `Toml.Statement` — a line that says something.
* `Toml.statements` — the statements of a text.
* `Toml.ofStatements?` — the table that statements build.
* `Toml.ofText?` — the table that a text spells.
-/

namespace TachoPrint.Toml

mutual

/-- A value.  `depth` is how deep it may be nested; `fuel` bounds the number of steps. -/
def value : (fuel depth : Nat) → List Char → Option (Item × List Char)
  | 0, _, _ => none
  | fuel + 1, depth, cs =>
      match cs with
      | '"' :: _ => (anyString fuel cs).map fun (s, rest) => (.text (String.ofList s), rest)
      | '\'' :: _ => (anyString fuel cs).map fun (s, rest) => (.text (String.ofList s), rest)
      | '[' :: cs =>
          if depth = 0 then none
          else (arrayItems fuel (depth - 1) cs).map fun (is, rest) => (.array is, rest)
      | '\x7b' :: cs =>
          if depth = 0 then none
          else match skipBlank cs with
            | '\x7d' :: rest => some (.table .inline [], rest)
            | _ => do
                let (pairs, rest) ← inlinePairs fuel (depth - 1) cs
                return (.table .inline (← putAll? [] pairs), rest)
      | 't' :: 'r' :: 'u' :: 'e' :: rest => some (.boolean true, rest)
      | 'f' :: 'a' :: 'l' :: 's' :: 'e' :: rest => some (.boolean false, rest)
      | cs =>
          match instant? cs with
          | some rest => some (.instant, rest)
          | none => numeral cs

/-- The items of an array up to its bracket.  A comma may follow the last. -/
def arrayItems : (fuel depth : Nat) → List Char → Option (List Item × List Char)
  | 0, _, _ => none
  | fuel + 1, depth, cs =>
      match skipLines cs.length cs with
      | ']' :: rest => some ([], rest)
      | cs => do
          let (v, rest) ← value fuel depth cs
          match skipLines rest.length rest with
          | ',' :: rest =>
              let (vs, rest) ← arrayItems fuel depth rest
              return (v :: vs, rest)
          | ']' :: rest => return ([v], rest)
          | _ => none

/-- The pairs of a table in braces up to its closing brace, at least one. -/
def inlinePairs : (fuel depth : Nat) → List Char → Option (List (List String × Item) × List Char)
  | 0, _, _ => none
  | fuel + 1, depth, cs => do
      let (key, rest) ← dottedKey fuel cs
      let (v, rest) ← value fuel depth (skipBlank (← expect '=' rest))
      match skipBlank rest with
      | ',' :: rest =>
          let (pairs, rest) ← inlinePairs fuel depth rest
          return ((key, v) :: pairs, rest)
      | '\x7d' :: rest => return ([(key, v)], rest)
      | _ => none

end

/-- A line that says something. -/
inductive Statement where
  /-- A key and its value. -/
  | pair (key : List String) (item : Item)
  /-- The header of a table. -/
  | table (path : List String)
  /-- The header of one of several tables. -/
  | element (path : List String)

/-- Every step of reading a value but one in two takes a character. -/
def valueFuel (cs : List Char) : Nat := 2 * cs.length + 2

/-- A key and its value, up to the end of the line. -/
def pairLine (cs : List Char) : Option (Statement × List Char) := do
  let (key, rest) ← dottedKey (cs.length + 1) cs
  let rest := skipBlank (← expect '=' rest)
  let (item, rest) ← value (valueFuel rest) (depthLimit - 1) rest
  return (.pair key item, ← lineEnd? rest)

/-- A header, up to the end of the line. -/
def headerLine : List Char → Option (Statement × List Char)
  | '[' :: '[' :: cs => do
      let (path, rest) ← dottedKey (cs.length + 1) cs
      return (.element path, ← lineEnd? (← expect ']' (← expect ']' rest)))
  | '[' :: cs => do
      let (path, rest) ← dottedKey (cs.length + 1) cs
      return (.table path, ← lineEnd? (← expect ']' rest))
  | _ => none

/-- The statement of the line in front, if it says anything, and the lines below. -/
def line? (cs : List Char) : Option (Option Statement × List Char) :=
  match skipBlank cs with
  | '[' :: rest => (headerLine ('[' :: rest)).map fun (s, rest) => (some s, rest)
  | '#' :: rest => (lineEnd? ('#' :: rest)).map fun rest => (none, rest)
  | '\n' :: rest => (lineEnd? ('\n' :: rest)).map fun rest => (none, rest)
  | '\x0d' :: rest => (lineEnd? ('\x0d' :: rest)).map fun rest => (none, rest)
  | [] => some (none, [])
  | rest => (pairLine rest).map fun (s, rest) => (some s, rest)

/-- The statements of a text; `fuel` bounds the number of lines. -/
def statements : (fuel : Nat) → List Char → Option (List Statement)
  | _, [] => some []
  | 0, _ => none
  | fuel + 1, cs => do
      let (s, rest) ← line? cs
      let more ← statements fuel rest
      return s.toList ++ more

/-- A header and the pairs below it, which belong to its table. -/
structure Section where
  header : Statement
  pairs : List (List String × Item)

/-- The pairs up to the first header, and the sections from there on. -/
def sections : List Statement → List (List String × Item) × List Section
  | [] => ([], [])
  | .pair key item :: rest => ((key, item) :: (sections rest).1, (sections rest).2)
  | header :: rest => ([], ⟨header, (sections rest).1⟩ :: (sections rest).2)

/-- A document with one more section. -/
def addSection? (document : Entries) (s : Section) : Option Entries :=
  match s.header with
  | .table path => update? (addTable? s.pairs) document path
  | .element path => update? (addElement? s.pairs) document path
  | .pair _ _ => none

/-- The table that statements build. -/
def ofStatements? (ss : List Statement) : Option Entries := do
  let (pairs, rest) := sections ss
  rest.foldlM addSection? (← putAll? [] pairs)

/-- The text without the byte order mark that it may start with. -/
def dropMark : List Char → List Char
  | '\ufeff' :: cs => cs
  | cs => cs

/-- The table that a text spells. -/
def ofChars? (cs : List Char) : Option Entries :=
  (statements (cs.length + 1) (dropMark cs)).bind ofStatements?

/-- The table that a text spells. -/
def ofText? (text : String) : Option Entries := ofChars? text.toList

end TachoPrint.Toml
