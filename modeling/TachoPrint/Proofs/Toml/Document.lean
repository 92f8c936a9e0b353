import Mathlib.Data.List.Nodup
import TachoPrint.Toml.Document

/-!
# What statements build

A document that is written table by table, with new names only, is the table of its tables.
And whatever a document is, the whole numbers that stand in it directly are those of 64 bits:
a number that is larger is no value, and nothing that is done with values changes them.

## Main definitions

* `Toml.parameters`, `Toml.tableOf` — the statements that set parameters, and those of a table.
* `Toml.InRange` — a whole number fits in 64 bits.

## Main results

* `Toml.ofStatements?_tables` — **a document is built table by table.**
* `Toml.addSection?_new`, `Toml.addSection?_nested` — a new table, and one inside the last.
* `Toml.inRange_of_ofText?` — **the whole numbers of a document fit.**
-/

namespace TachoPrint.Toml

/-! ### Entries -/

@[simp] theorem lookup?_eq_none_iff {entries : Entries} {key : String} :
    lookup? entries key = none ↔ key ∉ entries.map Prod.fst := by
  simp only [lookup?, Option.map_eq_none_iff, List.find?_eq_none, decide_eq_true_eq, List.mem_map,
    not_exists, not_and]

theorem lookup?_append_of_not_mem {entries : Entries} {key : String}
    (hkey : key ∉ entries.map Prod.fst) (more : Entries) :
    lookup? (entries ++ more) key = lookup? more key := by
  have hnone := lookup?_eq_none_iff.mpr hkey
  rw [lookup?, Option.map_eq_none_iff] at hnone
  rw [lookup?, List.find?_append, hnone, Option.none_or]
  rfl

@[simp] theorem lookup?_cons_self (key : String) (item : Item) (more : Entries) :
    lookup? ((key, item) :: more) key = some item := by
  simp [lookup?]

/-- The first entry under a key is what the key stands for. -/
theorem lookup?_of_mem {entries : Entries} (hnodup : (entries.map Prod.fst).Nodup) {key : String}
    {item : Item} (hmem : (key, item) ∈ entries) : lookup? entries key = some item := by
  obtain ⟨front, back, rfl⟩ := List.append_of_mem hmem
  rw [List.map_append, List.map_cons, List.nodup_append] at hnodup
  have hfront : key ∉ front.map Prod.fst := fun h =>
    hnodup.2.2 key h key List.mem_cons_self rfl
  rw [lookup?_append_of_not_mem hfront, lookup?_cons_self]

theorem replace_of_not_mem {entries : Entries} {key : String} (hkey : key ∉ entries.map Prod.fst)
    (item : Item) : replace entries key item = entries ++ [(key, item)] := by
  have hany : entries.any (·.1 = key) = false := by
    rw [List.any_eq_false]
    intro e he heq
    exact hkey (List.mem_map.mpr ⟨e, he, of_decide_eq_true heq⟩)
  rw [replace, hany]
  rfl

theorem replace_last {entries : Entries} {key : String} (hkey : key ∉ entries.map Prod.fst)
    (old item : Item) :
    replace (entries ++ [(key, old)]) key item = entries ++ [(key, item)] := by
  have hsame : entries.map (fun e => if e.1 = key then (key, item) else e) = entries := by
    refine (List.map_congr_left ?_).trans (List.map_id entries)
    intro e he
    exact if_neg fun heq => hkey (List.mem_map.mpr ⟨e, he, heq⟩)
  rw [replace, if_pos (by simp), List.map_append, hsame]
  simp

/-! ### Tables as they are written -/

/-- Parameters under keys without points. -/
def undotted (ps : Entries) : List (List String × Item) := ps.map fun p => ([p.1], p.2)

/-- The statements that set parameters. -/
def parameters (ps : Entries) : List Statement := ps.map fun p => .pair [p.1] p.2

/-- The statements of a table: its header and its parameters. -/
def tableOf (path : List String) (ps : Entries) : List Statement := .table path :: parameters ps

/-- Parameters with new names are added as they are. -/
theorem putAll?_undotted {es ps : Entries} (hnodup : ((es ++ ps).map Prod.fst).Nodup) :
    putAll? es (undotted ps) = some (es ++ ps) := by
  induction ps generalizing es with
  | nil => exact congrArg some (List.append_nil es).symm
  | cons p ps ih =>
    have hnext : (((es ++ [p]) ++ ps).map Prod.fst).Nodup := by simpa using hnodup
    have hnew : lookup? es p.1 = none := by
      rw [lookup?_eq_none_iff]
      rw [List.map_append, List.map_cons, List.nodup_append] at hnodup
      intro h
      exact hnodup.2.2 p.1 h p.1 List.mem_cons_self rfl
    have hput : put? true es [p.1] p.2 = some (es ++ [p]) := by simp [put?, hnew]
    have hrest := ih hnext
    unfold putAll? undotted at hrest ⊢
    rw [List.map_cons, List.foldlM_cons]
    simp only [hput, Option.bind_eq_bind, Option.bind_some]
    rw [hrest, List.append_assoc, List.singleton_append]

theorem sections_parameters (ps : Entries) (ss : List Statement) :
    sections (parameters ps ++ ss) = (undotted ps ++ (sections ss).1, (sections ss).2) := by
  induction ps with
  | nil => rfl
  | cons p ps ih =>
    change sections (.pair [p.1] p.2 :: (parameters ps ++ ss)) = _
    rw [sections, ih]
    rfl

theorem sections_tables (ts : List (List String × Entries)) :
    sections (ts.flatMap fun t => tableOf t.1 t.2) =
      ([], ts.map fun t => ⟨.table t.1, undotted t.2⟩) := by
  induction ts with
  | nil => rfl
  | cons t ts ih =>
    rw [List.flatMap_cons, tableOf, List.cons_append, sections]
    · rw [sections_parameters, ih, List.append_nil]
      rfl
    · exact fun _ _ h => nomatch h

/-- **A document is built table by table.** -/
theorem ofStatements?_tables {ps : Entries} (hnodup : (ps.map Prod.fst).Nodup)
    (ts : List (List String × Entries)) :
    ofStatements? (parameters ps ++ ts.flatMap fun t => tableOf t.1 t.2) =
      (ts.map fun t => (⟨.table t.1, undotted t.2⟩ : Section)).foldlM addSection? ps := by
  have hput : putAll? [] (undotted ps) = some ps := putAll?_undotted hnodup
  unfold ofStatements?
  rw [sections_parameters, sections_tables]
  simp only [List.append_nil, hput, Option.bind_eq_bind, Option.bind_some]

/-- A table with a new name comes last. -/
theorem addSection?_new {document ps : Entries} {name : String}
    (hname : name ∉ document.map Prod.fst) (hnodup : (ps.map Prod.fst).Nodup) :
    addSection? document ⟨.table [name], undotted ps⟩ =
      some (document ++ [(name, .table .header ps)]) := by
  have hput : putAll? [] (undotted ps) = some ps := putAll?_undotted hnodup
  simp only [addSection?, update?, addTable?, lookup?_eq_none_iff.mpr hname, hput, Option.map_some,
    replace_of_not_mem hname]

/-- A table inside the last one comes last in it. -/
theorem addSection?_nested {document ps qs : Entries} {name inner : String}
    (hname : name ∉ document.map Prod.fst) (hinner : inner ∉ ps.map Prod.fst)
    (hnodup : (qs.map Prod.fst).Nodup) :
    addSection? (document ++ [(name, .table .header ps)]) ⟨.table [name, inner], undotted qs⟩ =
      some (document ++ [(name, .table .header (ps ++ [(inner, .table .header qs)]))]) := by
  have hput : putAll? [] (undotted qs) = some qs := putAll?_undotted hnodup
  have hlast : lookup? (document ++ [(name, .table .header ps)]) name =
      some (.table .header ps) := by
    rw [lookup?_append_of_not_mem hname, lookup?_cons_self]
  have hadd : update? (addTable? (undotted qs)) ps [inner] =
      some (ps ++ [(inner, .table .header qs)]) := addSection?_new hinner hnodup
  simp only [addSection?, update?, hlast] at hadd ⊢
  rw [hadd, Option.map_some, replace_last hname]

/-! ### Whole numbers -/

/-- A whole number is one of 64 bits. -/
def InRange : Item → Prop
  | .integer i => i ≤ 9223372036854775807
  | _ => True

/-- The whole numbers that stand in a table directly are of 64 bits. -/
def AllInRange (entries : Entries) : Prop := ∀ e ∈ entries, InRange e.2

theorem inRange_fitting? {i : Int} {item : Item} (h : fitting? i = some item) : InRange item := by
  unfold fitting? at h
  split at h
  · next hi =>
    obtain rfl := Option.some.inj h
    exact hi.2
  · cases h

theorem inRange_of_decimal {cs rest : List Char} {item : Item}
    (h : decimal cs = some (item, rest)) : InRange item := by
  simp only [decimal, Option.bind_eq_bind, Option.bind_eq_some_iff, Prod.exists] at h
  obtain ⟨w, r₁, -, f, r₂, -, e, r₃, -, h⟩ := h
  split at h
  · obtain ⟨i, hi, hend⟩ := Option.bind_eq_some_iff.mp h
    obtain ⟨rfl, rfl⟩ := Prod.mk.inj (Option.some.inj hend)
    exact inRange_fitting? hi
  · obtain ⟨a, -, hend⟩ := Option.bind_eq_some_iff.mp h
    split at hend
    · cases hend
    · obtain ⟨rfl, rfl⟩ := Prod.mk.inj (Option.some.inj hend)
      trivial

theorem inRange_of_basedInteger {base : Nat} {cs rest : List Char} {item : Item}
    (h : basedInteger base cs = some (item, rest)) : InRange item := by
  simp only [basedInteger, Option.bind_eq_bind, Option.bind_eq_some_iff, Prod.exists] at h
  obtain ⟨ds, r, -, i, hi, hend⟩ := h
  obtain ⟨rfl, rfl⟩ := Prod.mk.inj (Option.some.inj hend)
  exact inRange_fitting? hi

theorem inRange_of_numeral {cs rest : List Char} {item : Item}
    (h : numeral cs = some (item, rest)) : InRange item := by
  unfold numeral at h
  dsimp only at h
  split at h
  · next result hnamed =>
    obtain rfl := Option.some.inj h
    unfold namedNumber? at hnamed
    split at hnamed <;> cases hnamed <;> trivial
  · split at h
    · exact inRange_of_basedInteger h
    · exact inRange_of_basedInteger h
    · exact inRange_of_basedInteger h
    · exact inRange_of_decimal h

theorem inRange_of_mapped {α : Type} {x : Option α} {toItem : α → Item × List Char}
    {item : Item} {rest : List Char} (h : x.map toItem = some (item, rest))
    (hitem : ∀ a, InRange (toItem a).1) : InRange item := by
  obtain ⟨a, -, ha⟩ := Option.map_eq_some_iff.mp h
  have hin := hitem a
  rwa [ha] at hin

/-- **A whole number that does not fit is no value.** -/
theorem inRange_of_value {fuel depth : Nat} {cs rest : List Char} {item : Item}
    (h : value fuel depth cs = some (item, rest)) : InRange item := by
  cases fuel with
  | zero => cases h
  | succ fuel =>
    unfold value at h
    split at h
    · exact inRange_of_mapped h fun _ => trivial
    · exact inRange_of_mapped h fun _ => trivial
    · split at h
      · cases h
      · exact inRange_of_mapped h fun _ => trivial
    · split at h
      · cases h
      · split at h
        · obtain ⟨rfl, -⟩ := Prod.mk.inj (Option.some.inj h)
          trivial
        · simp only [Option.bind_eq_bind, Option.bind_eq_some_iff, Prod.exists] at h
          obtain ⟨_, _, -, _, -, hend⟩ := h
          obtain ⟨rfl, -⟩ := Prod.mk.inj (Option.some.inj hend)
          trivial
    · obtain ⟨rfl, -⟩ := Prod.mk.inj (Option.some.inj h)
      trivial
    · obtain ⟨rfl, -⟩ := Prod.mk.inj (Option.some.inj h)
      trivial
    · split at h
      · obtain ⟨rfl, -⟩ := Prod.mk.inj (Option.some.inj h)
        trivial
      · exact inRange_of_numeral h

/-- The value of a statement, if it sets a parameter, is in range. -/
def Statement.InRange : Statement → Prop
  | .pair _ item => Toml.InRange item
  | _ => True

theorem inRange_of_pairLine {cs rest : List Char} {s : Statement}
    (h : pairLine cs = some (s, rest)) : s.InRange := by
  simp only [pairLine, Option.bind_eq_bind, Option.bind_eq_some_iff, Prod.exists] at h
  obtain ⟨key, _, -, _, -, item, _, hvalue, _, -, hend⟩ := h
  obtain ⟨rfl, -⟩ := Prod.mk.inj (Option.some.inj hend)
  exact inRange_of_value hvalue

theorem inRange_of_headerLine {cs rest : List Char} {s : Statement}
    (h : headerLine cs = some (s, rest)) : s.InRange := by
  unfold headerLine at h
  split at h
  · simp only [Option.bind_eq_bind, Option.bind_eq_some_iff, Prod.exists] at h
    obtain ⟨path, _, -, _, -, _, -, _, -, hend⟩ := h
    obtain ⟨rfl, -⟩ := Prod.mk.inj (Option.some.inj hend)
    trivial
  · simp only [Option.bind_eq_bind, Option.bind_eq_some_iff, Prod.exists] at h
    obtain ⟨path, _, -, _, -, _, -, hend⟩ := h
    obtain ⟨rfl, -⟩ := Prod.mk.inj (Option.some.inj hend)
    trivial
  · cases h

theorem inRange_of_line? {cs rest : List Char} {s? : Option Statement}
    (h : line? cs = some (s?, rest)) : ∀ s ∈ s?, s.InRange := by
  unfold line? at h
  split at h
  · obtain ⟨⟨s, _⟩, hheader, hend⟩ := Option.map_eq_some_iff.mp h
    obtain ⟨rfl, -⟩ := Prod.mk.inj hend
    rintro _ ⟨⟩
    exact inRange_of_headerLine hheader
  · obtain ⟨_, -, hend⟩ := Option.map_eq_some_iff.mp h
    obtain ⟨rfl, -⟩ := Prod.mk.inj hend
    rintro _ ⟨⟩
  · obtain ⟨_, -, hend⟩ := Option.map_eq_some_iff.mp h
    obtain ⟨rfl, -⟩ := Prod.mk.inj hend
    rintro _ ⟨⟩
  · obtain ⟨_, -, hend⟩ := Option.map_eq_some_iff.mp h
    obtain ⟨rfl, -⟩ := Prod.mk.inj hend
    rintro _ ⟨⟩
  · obtain ⟨rfl, -⟩ := Prod.mk.inj (Option.some.inj h)
    rintro _ ⟨⟩
  · obtain ⟨⟨s, _⟩, hpair, hend⟩ := Option.map_eq_some_iff.mp h
    obtain ⟨rfl, -⟩ := Prod.mk.inj hend
    rintro _ ⟨⟩
    exact inRange_of_pairLine hpair

theorem inRange_of_statements {fuel : Nat} {cs : List Char} {ss : List Statement}
    (h : statements fuel cs = some ss) : ∀ s ∈ ss, s.InRange := by
  induction fuel generalizing cs ss with
  | zero =>
    cases cs with
    | nil =>
      cases h
      exact fun _ hs => nomatch hs
    | cons c cs => cases h
  | succ fuel ih =>
    cases cs with
    | nil =>
      cases h
      exact fun _ hs => nomatch hs
    | cons c cs =>
      simp only [statements, Option.bind_eq_bind, Option.bind_eq_some_iff, Prod.exists] at h
      obtain ⟨s?, rest, hline, more, hmore, hend⟩ := h
      obtain rfl := Option.some.inj hend
      intro s hs
      rcases List.mem_append.mp hs with hs | hs
      · exact inRange_of_line? hline s (Option.mem_toList.mp hs)
      · exact ih hmore s hs

/-! ### Whole numbers in a document -/

theorem AllInRange.replace {entries : Entries} (he : AllInRange entries) (key : String)
    {item : Item} (hi : InRange item) : AllInRange (replace entries key item) := by
  unfold Toml.replace
  split
  · intro e hmem
    obtain ⟨e', he', rfl⟩ := List.mem_map.mp hmem
    split
    · exact hi
    · exact he e' he'
  · intro e hmem
    rcases List.mem_append.mp hmem with hmem | hmem
    · exact he e hmem
    · obtain rfl := List.mem_singleton.mp hmem
      exact hi

/-- An entry may be replaced by any table. -/
theorem AllInRange.of_replaced {α : Type} {x : Option α} {toItem : α → Item}
    {entries es : Entries} {key : String} (he : AllInRange entries)
    (h : (x.map fun a => Toml.replace entries key (toItem a)) = some es)
    (hitem : ∀ a, InRange (toItem a)) : AllInRange es := by
  obtain ⟨a, -, rfl⟩ := Option.map_eq_some_iff.mp h
  exact he.replace key (hitem a)

/-- What is added under a key with points goes into a table. -/
theorem AllInRange.put? {direct : Bool} {entries es : Entries} {key : List String} {item : Item}
    (he : AllInRange entries) (hi : InRange item) (h : put? direct entries key item = some es) :
    AllInRange es := by
  unfold Toml.put? at h
  split at h
  · cases h
  · split at h
    · obtain rfl := Option.some.inj h
      intro e hmem
      rcases List.mem_append.mp hmem with hmem | hmem
      · exact he e hmem
      · obtain rfl := List.mem_singleton.mp hmem
        exact hi
    · cases h
  · split at h
    · exact he.of_replaced h fun _ => trivial
    · exact he.of_replaced h fun _ => trivial
    · exact he.of_replaced h fun _ => trivial
    · exact he.of_replaced h fun _ => trivial
    · cases h

theorem AllInRange.putAll? {entries es : Entries} {items : List (List String × Item)}
    (he : AllInRange entries) (hi : ∀ p ∈ items, InRange p.2)
    (h : putAll? entries items = some es) : AllInRange es := by
  induction items generalizing entries with
  | nil =>
    obtain rfl := Option.some.inj h
    exact he
  | cons p items ih =>
    obtain ⟨hp, hi⟩ := List.forall_mem_cons.mp hi
    unfold Toml.putAll? at h ih
    rw [List.foldlM_cons] at h
    obtain ⟨es', hput, hrest⟩ := Option.bind_eq_some_iff.mp h
    exact ih (he.put? hp hput) hi hrest

/-- What changes tables without putting other whole numbers into them may be done below a path,
too. -/
theorem AllInRange.update? {change : Entries → String → Option Entries}
    (hchange : ∀ {es es' : Entries} {key : String}, AllInRange es → change es key = some es' →
      AllInRange es') {entries es : Entries} {path : List String} (he : AllInRange entries)
    (h : update? change entries path = some es) : AllInRange es := by
  unfold Toml.update? at h
  split at h
  · cases h
  · exact hchange he h
  · split at h
    · exact he.of_replaced h fun _ => trivial
    · cases h
    · exact he.of_replaced h fun _ => trivial
    · exact he.of_replaced h fun _ => trivial
    · cases h

theorem AllInRange.addTable? {items : List (List String × Item)} {entries es : Entries}
    {key : String} (he : AllInRange entries) (h : addTable? items entries key = some es) :
    AllInRange es := by
  unfold Toml.addTable? at h
  split at h
  · exact he.of_replaced h fun _ => trivial
  · exact he.of_replaced h fun _ => trivial
  · cases h

theorem AllInRange.addElement? {items : List (List String × Item)} {entries es : Entries}
    {key : String} (he : AllInRange entries) (h : addElement? items entries key = some es) :
    AllInRange es := by
  unfold Toml.addElement? at h
  split at h
  · exact he.of_replaced h fun _ => trivial
  · exact he.of_replaced h fun _ => trivial
  · cases h

/-- A header puts tables into a document, and nothing else. -/
theorem AllInRange.addSection? {document es : Entries} {s : Section} (he : AllInRange document)
    (h : addSection? document s = some es) : AllInRange es := by
  unfold Toml.addSection? at h
  split at h
  · exact he.update? AllInRange.addTable? h
  · exact he.update? AllInRange.addElement? h
  · cases h

theorem inRange_of_sections {ss : List Statement} (h : ∀ s ∈ ss, s.InRange) :
    ∀ p ∈ (sections ss).1, InRange p.2 := by
  induction ss with
  | nil => exact fun _ hp => nomatch hp
  | cons s ss ih =>
    obtain ⟨hs, hss⟩ := List.forall_mem_cons.mp h
    cases s with
    | pair key item => exact List.forall_mem_cons.mpr ⟨hs, ih hss⟩
    | table path => exact fun _ hp => nomatch hp
    | element path => exact fun _ hp => nomatch hp

theorem allInRange_of_foldlM {ss : List Section} {entries es : Entries} (he : AllInRange entries)
    (h : ss.foldlM addSection? entries = some es) : AllInRange es := by
  induction ss generalizing entries with
  | nil =>
    obtain rfl := Option.some.inj h
    exact he
  | cons s ss ih =>
    rw [List.foldlM_cons] at h
    obtain ⟨es', hadd, hrest⟩ := Option.bind_eq_some_iff.mp h
    exact ih (he.addSection? hadd) hrest

/-- **The whole numbers that stand in a document directly are of 64 bits.** -/
theorem inRange_of_ofText? {text : String} {document : Entries} (h : ofText? text = some document) :
    AllInRange document := by
  obtain ⟨ss, hss, hdocument⟩ := Option.bind_eq_some_iff.mp h
  obtain ⟨entries, hput, hfold⟩ := Option.bind_eq_some_iff.mp hdocument
  have hnone : AllInRange [] := fun _ he => nomatch he
  have hfirst := hnone.putAll? (inRange_of_sections (inRange_of_statements hss)) hput
  exact allInRange_of_foldlM hfirst hfold

end TachoPrint.Toml
