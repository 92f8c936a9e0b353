import TachoPrint.Binary64.Basic

/-!
# TOML items

A document is a table of items.  How a table came about decides what may still be
added to it, so every table remembers it.

## Main definitions

* `Toml.Origin` — how a table came about.
* `Toml.Item` — values, tables, and lists of tables.
* `Toml.lookup?`, `Toml.replace` — an entry of a table.
* `Toml.put?` — add a value under a dotted key.
* `Toml.update?` — change the table that a header's path leads to.
-/

namespace TachoPrint.Toml

/-- How a table came about. -/
inductive Origin where
  /-- It has a header of its own. -/
  | header
  /-- A header of a table inside it mentions it. -/
  | implied
  /-- A dotted key mentions it. -/
  | dotted
  /-- It is written in braces. -/
  | inline
  deriving DecidableEq, Repr, Inhabited

/-- What a key of a document stands for. -/
inductive Item where
  | text (s : String)
  | integer (i : Int)
  | number (a : Binary64)
  | boolean (b : Bool)
  /-- A date, a time, or both. -/
  | instant
  | array (items : List Item)
  | table (origin : Origin) (entries : List (String × Item))
  /-- The tables of repeated double-bracket headers. -/
  | tables (elements : List (List (String × Item)))
  deriving Inhabited

/-- The entries of a table. -/
abbrev Entries := List (String × Item)

/-- The item under a key. -/
def lookup? (entries : Entries) (key : String) : Option Item :=
  (entries.find? (·.1 = key)).map (·.2)

/-- The entries with another item under a key; a new key comes last. -/
def replace (entries : Entries) (key : String) (item : Item) : Entries :=
  if entries.any (·.1 = key) then
    entries.map fun e => if e.1 = key then (key, item) else e
  else
    entries ++ [(key, item)]

/-- Add an item under a dotted key.  The key must be new.  On the way only tables may
be entered that dotted keys made, tables that headers of others imply, and the last of
repeated tables; but the item itself may be added only where it could have been added
without dots, `direct`, or to a table that dotted keys made. -/
def put? (direct : Bool) (entries : Entries) : (key : List String) → Item → Option Entries
  | [], _ => none
  | [k], item =>
      if direct && (lookup? entries k).isNone then some (entries ++ [(k, item)]) else none
  | k :: key, item =>
      match lookup? entries k with
      | none => (put? true [] key item).map fun es => replace entries k (.table .dotted es)
      | some (.table .dotted es) =>
          (put? true es key item).map fun es => replace entries k (.table .dotted es)
      | some (.table .implied es) =>
          (put? false es key item).map fun es => replace entries k (.table .implied es)
      | some (.tables elements) =>
          (put? false (elements.getLastD []) key item).map fun es =>
            replace entries k (.tables (elements.dropLast ++ [es]))
      | some _ => none

/-- Add items under dotted keys to a table of its own. -/
def putAll? (entries : Entries) (items : List (List String × Item)) : Option Entries :=
  items.foldlM (fun es (key, item) => put? true es key item) entries

/-- Change the entry that a header's path leads to.  On the way missing tables are
implied, and repeated tables stand for their last. -/
def update? (change : Entries → String → Option Entries) (entries : Entries) :
    (path : List String) → Option Entries
  | [] => none
  | [k] => change entries k
  | k :: path =>
      match lookup? entries k with
      | none => (update? change [] path).map fun es => replace entries k (.table .implied es)
      | some (.table .inline _) => none
      | some (.table origin es) =>
          (update? change es path).map fun es => replace entries k (.table origin es)
      | some (.tables elements) =>
          (update? change (elements.getLastD []) path).map fun es =>
            replace entries k (.tables (elements.dropLast ++ [es]))
      | some _ => none

/-- Add the table of a header.  Only a table that others imply may already be there. -/
def addTable? (items : List (List String × Item)) (entries : Entries) (key : String) :
    Option Entries :=
  match lookup? entries key with
  | none => (putAll? [] items).map fun es => replace entries key (.table .header es)
  | some (.table .implied old) =>
      (putAll? old items).map fun es => replace entries key (.table .header es)
  | some _ => none

/-- Add one more of the tables of a double-bracket header. -/
def addElement? (items : List (List String × Item)) (entries : Entries) (key : String) :
    Option Entries :=
  match lookup? entries key with
  | none => (putAll? [] items).map fun es => replace entries key (.tables [es])
  | some (.tables elements) =>
      (putAll? [] items).map fun es => replace entries key (.tables (elements ++ [es]))
  | some _ => none

end TachoPrint.Toml
