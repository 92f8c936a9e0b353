import Mathlib.Data.List.TakeWhile
import TachoPrint.Gcode.Json
import TachoPrint.Proofs.Decimal.Layout
import TachoPrint.Proofs.Gcode.Numbers
import TachoPrint.Proofs.Json.Reader

/-!
# Instructions and their JSON text

The members of an instruction are read one by one, so the text of an instruction gives
the instruction back as soon as each of its numbers is read back from its own digits.

## Main definitions

* `Gcode.ReadsBack` — a number that is read back from its own digits.

## Main results

* `Gcode.ofText?_objectJson` — members that are written are read.
* `Gcode.values?_named` — parameters are found by their names.
* `Instruction.ofJsonText?_json` — **the text of an instruction is read as the instruction.**
* `Instruction.json_lossless` — **nothing is lost in the text of an instruction.**
-/

namespace TachoPrint

open Json.Reader

namespace Gcode

/-! ### Values -/

/-- The text of the number is read as the number. -/
def ReadsBack (read : Json.NumberReader) (a : Binary64) : Prop :=
  (Json.ofText? read (numberJson a)).bind number? = some a

instance (read : Json.NumberReader) (a : Binary64) : Decidable (ReadsBack read a) :=
  inferInstanceAs (Decidable (_ = _))

variable {read : Json.NumberReader}

theorem number_of_number? {v : Json} {a : Binary64} (h : number? v = some a) :
    (∃ i, v = .integer i) ∨ ∃ b, v = .number b := by
  cases v with
  | integer i => exact .inl ⟨i, rfl⟩
  | number b => exact .inr ⟨b, rfl⟩
  | null | boolean | text | array | object => cases h

theorem spells_numberJson {a : Binary64} (h : ReadsBack read a) :
    ∃ v, Spells read (numberJson a).toList v ∧ number? v = some a := by
  obtain ⟨v, hv, ha⟩ := Option.bind_eq_some_iff.mp h
  unfold Json.ofText? Json.ofChars? at hv
  split at hv
  · next v' r hvalue =>
    split at hv
    · next hr =>
      obtain rfl := Option.some.inj hv
      exact ⟨v', spells_of_numeral (numeral_of_value hvalue (number_of_number? ha)) hr, ha⟩
    · cases hv
  · cases hv

theorem spells_optionJson {o : Option Binary64} (h : ∀ a ∈ o, ReadsBack read a) :
    ∃ v, Spells read (optionJson o).toList v ∧ optionNumber? (some v) = some o := by
  cases o with
  | none => exact ⟨.null, spells_null, rfl⟩
  | some a =>
    obtain ⟨v, hv, ha⟩ := spells_numberJson (h a rfl)
    refine ⟨v, hv, ?_⟩
    obtain ⟨i, rfl⟩ | ⟨b, rfl⟩ := number_of_number? ha
    · exact congrArg (Option.map some) ha
    · exact congrArg (Option.map some) ha

theorem spells_boolJson (b : Bool) : Spells read (boolJson b).toList (.boolean b) := by
  cases b
  · exact spells_false
  · exact spells_true

theorem spells_nameJson {s : String} (h : Plain s.toList) :
    Spells read (nameJson s).toList (.text s) := by
  have hchars : (nameJson s).toList = '"' :: (s.toList ++ ['"']) := by simp [nameJson]
  have htext : Spells read _ _ := spells_text h
  rwa [String.ofList_toList, ← hchars] at htext

/-! ### Whole numbers -/

@[simp] theorem someDigits_toDigits (n : Nat) :
    someDigits (Nat.toDigits 10 n) = some (Nat.toDigits 10 n, []) := by
  have hall : ∀ c ∈ Nat.toDigits 10 n, c.isDigit := fun c hc =>
    Nat.isDigit_of_mem_toDigits (by decide) (by decide) hc
  have htake := List.takeWhile_eq_self_iff.mpr hall
  have hdrop := List.dropWhile_eq_nil_iff.mpr hall
  unfold someDigits
  cases hdigits : Nat.toDigits 10 n with
  | nil => exact absurd hdigits Nat.toDigits_ne_nil
  | cons c tail =>
    rw [hdigits] at htake hdrop
    rw [htake, hdrop]

@[simp] theorem wholePart_toDigits (n : Nat) :
    wholePart (Nat.toDigits 10 n) = some (Nat.toDigits 10 n, []) := by
  by_cases hn : n = 0
  · subst hn
    rfl
  · obtain ⟨c, tail, hdigits, hc⟩ := Decimal.head_toDigits_ne_zero (Nat.pos_of_ne_zero hn)
    have hsome := someDigits_toDigits n
    rw [hdigits] at hsome ⊢
    simpa [wholePart, hc] using hsome

/-- The digits of a whole number that fits are read as that number. -/
theorem numeral_toDigits {n : Nat} (h : n < 18446744073709551616) :
    numeral read (Nat.toDigits 10 n) = some (.integer n, []) := by
  have hsign : numeralSign (Nat.toDigits 10 n) = (false, Nat.toDigits 10 n) := by
    cases hdigits : Nat.toDigits 10 n with
    | nil => rfl
    | cons c tail =>
      have hc : c.isDigit := Nat.isDigit_of_mem_toDigits (b := 10) (n := n) (by decide) (by decide)
        (hdigits ▸ List.mem_cons_self)
      have hminus : c ≠ '-' := by
        rintro rfl
        cases hc
      simp [numeralSign, hminus]
  rw [numeral_eq_some_iff, hsign]
  refine ⟨_, [], [], [], none, wholePart_toDigits n, rfl, rfl, ?_⟩
  rw [numeralValue?, if_pos ⟨rfl, rfl⟩, integer?, Decimal.ofDigits_toDigits,
    if_neg Bool.false_ne_true, if_pos h]

theorem spells_toString {n : Nat} (h : n < 18446744073709551616) :
    Spells read (toString n).toList (.integer n) := by
  rw [Nat.toString_eq_ofList_toDigits, String.toList_ofList]
  have hdigits : numeral read _ = _ := numeral_toDigits h
  refine spells_of_numeral (r := []) ?_ rfl
  rwa [skipSpace_of_numeral hdigits]

/-! ### Members -/

theorem memberSpells {name text : String} {v : Json} (hname : Plain name.toList)
    (h : Spells read text.toList v) : MemberSpells read (name.toList, text.toList) (name, v) :=
  ⟨String.ofList_toList.symm, hname, h⟩

theorem memberSpells_zip {names texts : List String} {vs : List Json}
    (hnames : ∀ name ∈ names, Plain name.toList)
    (h : List.Forall₂ (fun text v => Spells read text.toList v) texts vs) :
    List.Forall₂ (MemberSpells read) ((names.zip texts).map fun m => (m.1.toList, m.2.toList))
      (names.zip vs) := by
  induction h generalizing names with
  | nil => cases names <;> exact .nil
  | cons hv hvs ih =>
    cases names with
    | nil => exact .nil
    | cons name names =>
      obtain ⟨hname, hnames⟩ := List.forall_mem_cons.mp hnames
      exact .cons (memberSpells hname hv) (ih hnames)

/-- A member as it is written, as text. -/
theorem toList_memberJson (m : String × String) :
    (nameJson m.1 ++ ":" ++ m.2).toList = memberChars m.1.toList m.2.toList := by
  simp [nameJson, memberChars]

theorem toList_membersJson (ms : List (String × String)) :
    (",".intercalate (ms.map fun m => nameJson m.1 ++ ":" ++ m.2)).toList =
      membersChars (ms.map fun m => (m.1.toList, m.2.toList)) := by
  induction ms with
  | nil => rfl
  | cons m ms ih =>
    cases ms with
    | nil => exact toList_memberJson m
    | cons m' ms =>
      rw [List.map_cons] at ih ⊢
      rw [List.map_cons, String.intercalate_cons_cons, String.toList_append, String.toList_append,
        toList_memberJson, ih]
      simp [membersChars]

/-- **Members that are written are read.** -/
theorem ofText?_objectJson (ms : List (String × String)) {ws : List (String × Json)}
    (h : List.Forall₂ (MemberSpells read) (ms.map fun m => (m.1.toList, m.2.toList)) ws)
    (hne : ms ≠ []) :
    Json.ofText? read (objectJson ms) = some (.object ws) := by
  have hchars : (objectJson ms).toList =
      '{' :: (membersChars (ms.map fun m => (m.1.toList, m.2.toList)) ++ ['}']) := by
    rw [objectJson, String.toList_append, String.toList_append, toList_membersJson]
    rfl
  rw [Json.ofText?, hchars]
  exact Json.ofChars?_object h (by simpa using hne)

/-! ### Parameters -/

theorem filter_name {ws : List (String × Json)} (h : (ws.map Prod.fst).Nodup) {w : String × Json}
    (hw : w ∈ ws) : ws.filter (·.1 = w.1) = [w] := by
  induction ws with
  | nil => cases hw
  | cons w' ws ih =>
    obtain ⟨hnew, hws⟩ := List.nodup_cons.mp h
    have hother : ∀ u ∈ ws, u.1 ≠ w'.1 := fun u hu heq =>
      hnew (List.mem_map.mpr ⟨u, hu, heq⟩)
    obtain rfl | hw := List.mem_cons.mp hw
    · rw [List.filter_cons_of_pos (by simp), List.filter_eq_nil_iff.mpr (by simpa using hother)]
    · rw [List.filter_cons_of_neg (by simpa using (hother w hw).symm), ih hws hw]

/-- Looking the names up one by one gives the values one by one. -/
theorem mapM_names {f : String → Option (Option Json)} {ws : List (String × Json)}
    (h : ∀ w ∈ ws, f w.1 = some (some w.2)) :
    (ws.map Prod.fst).mapM f = some ((ws.map Prod.snd).map some) := by
  induction ws with
  | nil => rfl
  | cons w ws ih =>
    obtain ⟨hw, hws⟩ := List.forall_mem_cons.mp h
    rw [List.map_cons, List.mapM_cons, hw, ih hws]
    rfl

/-- **Parameters are found by their names.** -/
theorem values?_named (ws : List (String × Json)) (h : (ws.map Prod.fst).Nodup) :
    (Parameters.named ws).values? (ws.map Prod.fst) = some ((ws.map Prod.snd).map some) := by
  apply mapM_names
  intro w hw
  rw [filter_name h hw]

end Gcode

namespace Instruction

open Gcode

variable {read : Json.NumberReader}

/-- A named instruction is read from its other members. -/
theorem ofJson?_object {op : String} {ws : List (String × Json)} (h : ∀ w ∈ ws, w.1 ≠ "op") :
    ofJson? (.object (("op", .text op) :: ws)) = instructionNamed? op (.named ws) := by
  have hop : (("op", Json.text op) :: ws).filter (·.1 = "op") = [("op", .text op)] := by
    rw [List.filter_cons_of_pos (by simp), List.filter_eq_nil_iff.mpr (by simpa using h)]
  have hrest : (("op", Json.text op) :: ws).filter (·.1 ≠ "op") = ws := by
    rw [List.filter_cons_of_neg (by simp), List.filter_eq_self.mpr (by simpa using h)]
  simp only [ofJson?, hop, hrest]

/-- The names of parameters: no character of theirs is escaped, and `op` is none of them. -/
def AreNames (names : List String) : Prop :=
  names.Nodup ∧ "op" ∉ names ∧ ∀ name ∈ names, Plain name.toList

instance (names : List String) : Decidable (AreNames names) := inferInstanceAs (Decidable (_ ∧ _))

theorem plain_opName (i : Instruction) : Plain (opName i).toList := by
  cases i <;> simp only [opName] <;> decide

/-- The text of an instruction is read as its name and the values of its parameters. -/
theorem exists_parameters_of_json (i : Instruction) (names : List String) {texts : List String}
    {vs : List Json} (hmembers : parameterMembers i = names.zip texts) (hnames : AreNames names)
    (hlength : names.length = vs.length)
    (h : List.Forall₂ (fun text v => Spells read text.toList v) texts vs) :
    ∃ ps, ofJsonText? read i.json = instructionNamed? (opName i) ps ∧
      ps.values? names = some (vs.map some) := by
  obtain ⟨hnodup, hop, hplain⟩ := hnames
  have hfst : (names.zip vs).map Prod.fst = names := List.map_fst_zip hlength.le
  have hsnd : (names.zip vs).map Prod.snd = vs := List.map_snd_zip hlength.ge
  refine ⟨.named (names.zip vs), ?_, ?_⟩
  · have hop' : ∀ w ∈ names.zip vs, w.1 ≠ "op" := by
      intro w hw hw'
      have hmem : w.1 ∈ names := hfst ▸ List.mem_map_of_mem hw
      exact hop (hw' ▸ hmem)
    have hname :
        MemberSpells read ("op".toList, (nameJson (opName i)).toList) ("op", .text (opName i)) :=
      memberSpells (by decide) (spells_nameJson (plain_opName i))
    have hobject := ofText?_objectJson (("op", nameJson (opName i)) :: names.zip texts)
      (.cons hname (memberSpells_zip hplain h)) (List.cons_ne_nil _ _)
    rw [ofJsonText?, json, hmembers, hobject]
    exact ofJson?_object hop'
  · have hvalues := values?_named (names.zip vs) (by rwa [hfst])
    rwa [hfst, hsnd] at hvalues

/-- **The text of an instruction is read as the instruction.** -/
theorem ofJsonText?_json {i : Instruction} (h : ∀ a ∈ i.numbers, ReadsBack read a) :
    ofJsonText? read i.json = some i := by
  cases i with
  | move m =>
    obtain ⟨hgoal, hf⟩ := forall_mem_numbers_move.mp h
    obtain ⟨hx, hy, hz, he⟩ := Coordinates.forall_mem_numbers.mp hgoal
    obtain ⟨x, hx, hx'⟩ := spells_optionJson hx
    obtain ⟨y, hy, hy'⟩ := spells_optionJson hy
    obtain ⟨z, hz, hz'⟩ := spells_optionJson hz
    obtain ⟨e, he, he'⟩ := spells_optionJson he
    obtain ⟨f, hf, hf'⟩ := spells_optionJson hf
    obtain ⟨ps, hps, hvalues⟩ := exists_parameters_of_json (.move m)
      ["x", "y", "z", "extruded", "feed_rate"] rfl (by decide) rfl
      (.cons hx (.cons hy (.cons hz (.cons he (.cons hf .nil)))))
    rw [hps]
    simp [instructionNamed?, opName, move?, hvalues, hx', hy', hz', he', hf']
  | pause micros =>
    obtain ⟨ps, hps, hvalues⟩ := exists_parameters_of_json (.pause micros)
      ["micros"] rfl (by decide) rfl (.cons (spells_toString micros.toNat_lt) .nil)
    rw [hps]
    simp [instructionNamed?, opName, hvalues, micros?]
  | setPositioning mode =>
    obtain ⟨ps, hps, hvalues⟩ := exists_parameters_of_json (.setPositioning mode)
      ["mode"] rfl (by decide) rfl
      (.cons (spells_nameJson (by cases mode <;> decide)) .nil)
    rw [hps]
    cases mode <;> simp [instructionNamed?, opName, hvalues, mode?, modeNamed?, modeName]
  | setPosition c =>
    obtain ⟨hx, hy, hz, he⟩ := Coordinates.forall_mem_numbers.mp h
    obtain ⟨x, hx, hx'⟩ := spells_optionJson hx
    obtain ⟨y, hy, hy'⟩ := spells_optionJson hy
    obtain ⟨z, hz, hz'⟩ := spells_optionJson hz
    obtain ⟨e, he, he'⟩ := spells_optionJson he
    obtain ⟨ps, hps, hvalues⟩ := exists_parameters_of_json (.setPosition c)
      ["x", "y", "z", "e"] rfl (by decide) rfl
      (.cons hx (.cons hy (.cons hz (.cons he .nil))))
    rw [hps]
    simp [instructionNamed?, opName, coordinates?, hvalues, hx', hy', hz', he']
  | home axes =>
    obtain ⟨ps, hps, hvalues⟩ := exists_parameters_of_json (.home axes)
      ["x", "y", "z"] rfl (by decide) rfl
      (.cons (spells_boolJson axes.x) (.cons (spells_boolJson axes.y)
        (.cons (spells_boolJson axes.z) .nil)))
    rw [hps]
    simp [instructionNamed?, opName, axes?, hvalues, bool?]
  | release axes =>
    obtain ⟨ps, hps, hvalues⟩ := exists_parameters_of_json (.release axes)
      ["x", "y", "z"] rfl (by decide) rfl
      (.cons (spells_boolJson axes.x) (.cons (spells_boolJson axes.y)
        (.cons (spells_boolJson axes.z) .nil)))
    rw [hps]
    simp [instructionNamed?, opName, axes?, hvalues, bool?]

/-- **Nothing is lost in the text of an instruction.**  Programs have finite numbers only.
However numbers are read, an instruction whose numbers are read back from their own digits is read
back from its text, so two different ones have different texts. -/
theorem json_lossless (read : Json.NumberReader) :
    (∀ bytes p, ofBytes bytes = .ok p → ∀ i ∈ p, i.Finite) ∧
    (∀ i : Instruction, (∀ a ∈ i.numbers, ReadsBack read a) → ofJsonText? read i.json = some i) ∧
    ∀ i j : Instruction, (∀ a ∈ i.numbers, ReadsBack read a) →
      (∀ a ∈ j.numbers, ReadsBack read a) → i ≠ j → i.json ≠ j.json := by
  refine ⟨fun _ _ => finite_of_ofBytes, fun _ => ofJsonText?_json, ?_⟩
  intro i j hi hj hne h
  apply hne
  -- two instructions with one text are both what is read back from it
  have hread := ofJsonText?_json hi
  rw [h, ofJsonText?_json hj] at hread
  exact (Option.some.inj hread).symm

/-- A move that leaves coordinates out, and a pause. -/
def moveAndPause : List Instruction :=
  [.move ⟨⟨some (.ofRatio true 3 2), none, none, none⟩, some 20⟩, .pause 20000]

/-- Both are read back by a reader of numbers that rounds twice, though it does not read every
number back. -/
theorem json_lossless_of_moveAndPause :
    ofBytes "G1 X-1.5 F1200\nG4 P20".toUTF8.toList = .ok moveAndPause ∧
      (∀ i ∈ moveAndPause, i.Finite ∧ (∀ a ∈ i.numbers, ReadsBack .scaled a) ∧
        ofJsonText? .scaled i.json = some i) ∧
      (moveAndPause[0]).json ≠ (moveAndPause[1]).json ∧
      ¬ReadsBack .scaled (7 / 60) := by
  have hbytes : ofBytes "G1 X-1.5 F1200\nG4 P20".toUTF8.toList = .ok moveAndPause := by
    decide +kernel
  have hreads : ∀ i ∈ moveAndPause, ∀ a ∈ i.numbers, ReadsBack .scaled a := by decide +kernel
  obtain ⟨hfinite, hback, hdistinct⟩ := json_lossless .scaled
  refine ⟨hbytes, fun i hi => ⟨hfinite _ _ hbytes i hi, hreads i hi, ?_⟩, ?_, by decide +kernel⟩
  · exact hback i (hreads i hi)
  · exact hdistinct _ _ (hreads _ (by simp)) (hreads _ (by simp)) (by decide +kernel)

end Instruction

end TachoPrint
