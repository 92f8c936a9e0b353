import TachoPrint.Command.Session
import TachoPrint.Proofs.Toml.Document
import TachoPrint.Proofs.Toml.Reader

/-!
# Setups and their text

The text of a setup is read as the document of its tables, and every parameter is found in
that document under its name: nothing that is written is replaced by a default.  So the text
gives the setup back, or the fault that it has.

## Main definitions

* `PrinterSetup.document` — the entries of a setup as they stand in its text.
* `PrinterSetup.numbers` — the numbers of a setup that are not whole.

## Main results

* `PrinterSetup.tells_toml` — the statements of the text of a setup.
* `PrinterSetup.ofText?_toml` — **the text of a setup is its document.**
* `Setup.printer?_document` — **every parameter is found in the document.**
* `PrinterSetup.writable_of_ofToml` — a setup that was read can be written.
* `PrinterSetup.toml_roundtrip` — **nothing is lost in the text of a setup.**
-/

namespace TachoPrint

open Toml

/-! ### The entries of a setup -/

namespace HomingSetup

/-- The parameters of homing. -/
def entries (c : HomingSetup) : Entries :=
  [("offset", .number c.offset), ("invert_motor", .boolean c.invertMotor),
    ("invert_sensor", .boolean c.invertSensor), ("speed", .number c.speed)]

/-- The numbers of homing. -/
def numbers (c : HomingSetup) : List Binary64 := [c.offset, c.speed]

end HomingSetup

namespace AxisSetup

/-- The parameters of an axis, without those of its homing. -/
def entries (a : AxisSetup) : Entries :=
  [("motor_port", .text a.motorPort.text), ("sensor_port", .text a.sensorPort.text),
    ("default_speed", .number a.speed), ("deg_mm_ratio", .number a.degreesPerMm),
    ("ev3_touch_sensor", .boolean a.touchSensor), ("inverted", .boolean a.inverted)]

/-- The table of an axis, with the table of its homing last. -/
def table (a : AxisSetup) : Entries :=
  a.entries ++ [("calibration", .table .header a.homing.entries)]

/-- The numbers of an axis. -/
def numbers (a : AxisSetup) : List Binary64 := [a.speed, a.degreesPerMm] ++ a.homing.numbers

end AxisSetup

namespace ExtruderSetup

/-- The parameters of an extruder. -/
def entries (e : ExtruderSetup) : Entries :=
  [("motor_port", .text e.motorPort.text), ("deg_mm_ratio", .number e.degreesPerMm)]

end ExtruderSetup

namespace PrinterSetup

/-- The parameters of the printer itself. -/
def entries (p : PrinterSetup) : Entries :=
  [("velocity", .number p.velocity), ("travel_limit", .number p.travelLimit),
    ("max_height", .number p.maxHeight), ("endstop_timeout_ms", .integer p.endstopTimeout.toNat),
    ("poll_interval_ms", .integer p.pollInterval.toNat)]

/-- The tables of an axis as they are written. -/
def axisTables (name : AxisName) (a : AxisSetup) : List (List String × Entries) :=
  [([name.text], a.entries), ([name.text, "calibration"], a.homing.entries)]

/-- The tables of a setup as they are written. -/
def tables (p : PrinterSetup) : List (List String × Entries) :=
  axisTables .x p.x ++ axisTables .y p.y ++ axisTables .z p.z ++
    (p.extruder.map fun e => (["extruder"], e.entries)).toList

/-- The entries of a setup as they stand in its text. -/
def document (p : PrinterSetup) : Entries :=
  p.entries ++ [("x", .table .header p.x.table), ("y", .table .header p.y.table),
    ("z", .table .header p.z.table)] ++
      (p.extruder.map fun e => ("extruder", Item.table .header e.entries)).toList

/-- The numbers of a setup, apart from the whole ones. -/
def numbers (p : PrinterSetup) : List Binary64 :=
  [p.velocity, p.travelLimit, p.maxHeight] ++ p.x.numbers ++ p.y.numbers ++ p.z.numbers ++
    (p.extruder.map (·.degreesPerMm)).toList

end PrinterSetup

/-! ### The statements of a text -/

theorem spells_motorPort (m : MotorPort) : Spells (Setup.quoted m.text).toList (.text m.text) := by
  cases m <;> exact spells_text (by decide) (by decide)

theorem spells_sensorPort (s : SensorPort) :
    Spells (Setup.quoted s.text).toList (.text s.text) := by
  cases s <;> exact spells_text (by decide) (by decide)

theorem isKey_axis (name : AxisName) : IsKey [name.text] := by
  refine ⟨List.cons_ne_nil _ _, ?_, ?_⟩
  · cases name <;> decide
  · cases name <;> decide

theorem isKey_homing (name : AxisName) : IsKey [name.text, "calibration"] := by
  refine ⟨List.cons_ne_nil _ _, ?_, ?_⟩
  · cases name <;> decide
  · cases name <;> decide

/-- **The tables of an axis** are read as they are written. -/
theorem tells_axisText (name : AxisName) {a : AxisSetup} (ha : ∀ v ∈ a.numbers, ReadsBack v) :
    Tells (Setup.axisText name a)
      ((PrinterSetup.axisTables name a).flatMap fun t => tableOf t.1 t.2) := by
  have hnumber : ∀ v ∈ a.numbers, Spells (Layout.toml.text v).toList (.number v) := fun v hv =>
    spells_number (ha v hv)
  have hhoming : (name.text ++ ".calibration").toList = dotted [name.text, "calibration"] := by
    cases name <;> rfl
  unfold AxisSetup.numbers HomingSetup.numbers at hnumber
  simp only [List.cons_append, List.nil_append, List.forall_mem_cons] at hnumber
  obtain ⟨hspeed, hratio, hoffset, hhomingSpeed, -⟩ := hnumber
  exact (tells_header (isKey_axis name) rfl).append (tells_pair (by decide) (spells_motorPort _))
    |>.append (tells_pair (by decide) (spells_sensorPort _))
    |>.append (tells_pair (by decide) hspeed)
    |>.append (tells_pair (by decide) hratio)
    |>.append (tells_pair (by decide) (spells_boolean _))
    |>.append (tells_pair (by decide) (spells_boolean _))
    |>.append (tells_header (isKey_homing name) hhoming)
    |>.append (tells_pair (by decide) hoffset)
    |>.append (tells_pair (by decide) (spells_boolean _))
    |>.append (tells_pair (by decide) (spells_boolean _))
    |>.append (tells_pair (by decide) hhomingSpeed)

theorem tells_extruderText {e : Option ExtruderSetup}
    (he : ∀ f ∈ e, ReadsBack f.degreesPerMm) :
    Tells (Setup.extruderText e)
      ((e.map fun f => (["extruder"], f.entries)).toList.flatMap fun t => tableOf t.1 t.2) := by
  cases e with
  | none => exact tells_empty
  | some f =>
    have hkey : IsKey ["extruder"] := ⟨List.cons_ne_nil _ _, by decide, by decide⟩
    exact (tells_header hkey rfl).append (tells_pair (by decide) (spells_motorPort _))
      |>.append (tells_pair (by decide) (spells_number (he f rfl)))

namespace PrinterSetup

variable {p : PrinterSetup} {text : String}

theorem forall_mem_numbers {P : Binary64 → Prop} : (∀ a ∈ p.numbers, P a) ↔
    (P p.velocity ∧ P p.travelLimit ∧ P p.maxHeight) ∧ (∀ a ∈ p.x.numbers, P a) ∧
      (∀ a ∈ p.y.numbers, P a) ∧ (∀ a ∈ p.z.numbers, P a) ∧
        ∀ f ∈ p.extruder, P f.degreesPerMm := by
  simp [numbers, and_assoc, or_imp, forall_and]

/-- The parameters of the printer itself, as they are written. -/
def topText (p : PrinterSetup) : String :=
  Setup.setLine "velocity" (Layout.toml.text p.velocity) ++
  Setup.setLine "travel_limit" (Layout.toml.text p.travelLimit) ++
  Setup.setLine "max_height" (Layout.toml.text p.maxHeight) ++
  Setup.setLine "endstop_timeout_ms" (toString p.endstopTimeout.toNat) ++
  Setup.setLine "poll_interval_ms" (toString p.pollInterval.toNat)

/-- A setup can be written unless its timeout is too long, and there is one text of it. -/
theorem toml?_eq (p : PrinterSetup) : p.toml? =
    if 9223372036854775807 < p.endstopTimeout.toNat then .error .unwritable
    else .ok (p.topText ++ Setup.axisText .x p.x ++ Setup.axisText .y p.y ++
      Setup.axisText .z p.z ++ Setup.extruderText p.extruder) := rfl

/-- **The statements of the text of a setup**: its parameters, and its tables. -/
theorem tells_toml (hp : ∀ a ∈ p.numbers, ReadsBack a) (h : p.toml? = .ok text) :
    Tells text (parameters p.entries ++ p.tables.flatMap fun t => tableOf t.1 t.2) := by
  rw [toml?_eq] at h
  split at h
  · cases h
  · next hshort =>
    obtain ⟨⟨hvelocity, htravel, hheight⟩, hx, hy, hz, he⟩ := forall_mem_numbers.mp hp
    have hinterval : p.pollInterval.toNat ≤ 9223372036854775807 := by
      have hlt := p.pollInterval.toNat_lt
      omega
    have htop : Tells p.topText (parameters p.entries) :=
      (tells_pair (by decide) (spells_number hvelocity))
        |>.append (tells_pair (by decide) (spells_number htravel))
        |>.append (tells_pair (by decide) (spells_number hheight))
        |>.append (tells_pair (by decide) (spells_integer (Nat.le_of_not_lt hshort)))
        |>.append (tells_pair (by decide) (spells_integer hinterval))
    obtain rfl := Except.ok.inj h
    have hall := htop.append (tells_axisText .x hx) |>.append (tells_axisText .y hy)
      |>.append (tells_axisText .z hz) |>.append (tells_extruderText he)
    rw [tables, List.flatMap_append, List.flatMap_append, List.flatMap_append]
    simpa only [List.append_assoc] using hall

/-! ### The document of a text -/

/-- The names of the parameters of the printer itself. -/
def topNames : List String :=
  ["velocity", "travel_limit", "max_height", "endstop_timeout_ms", "poll_interval_ms"]

/-- The tables of an axis are one table in the document. -/
theorem foldlM_axisTables (name : AxisName) (a : AxisSetup) {document : Entries}
    (hname : name.text ∉ document.map Prod.fst) (rest : List Section) :
    (((axisTables name a).map fun t => (⟨.table t.1, undotted t.2⟩ : Section)) ++ rest).foldlM
        addSection? document =
      rest.foldlM addSection? (document ++ [(name.text, .table .header a.table)]) := by
  have hentries : (a.entries.map Prod.fst).Nodup := by
    change ["motor_port", "sensor_port", "default_speed", "deg_mm_ratio", "ev3_touch_sensor",
      "inverted"].Nodup
    decide
  have hhoming : (a.homing.entries.map Prod.fst).Nodup := by
    change ["offset", "invert_motor", "invert_sensor", "speed"].Nodup
    decide
  have hinner : "calibration" ∉ a.entries.map Prod.fst := by
    change "calibration" ∉ ["motor_port", "sensor_port", "default_speed", "deg_mm_ratio",
      "ev3_touch_sensor", "inverted"]
    decide
  have hfirst := addSection?_new hname hentries
  have hsecond := addSection?_nested hname hinner hhoming
  simp only [axisTables, List.map_cons, List.map_nil, List.cons_append, List.nil_append,
    List.foldlM_cons, hfirst, hsecond, Option.bind_eq_bind, Option.bind_some]
  rfl

/-- **The text of a setup is its document.** -/
theorem ofText?_toml (hp : ∀ a ∈ p.numbers, ReadsBack a) (h : p.toml? = .ok text) :
    Toml.ofText? text = some p.document := by
  have hmark : dropMark text.toList = text.toList := by
    rw [toml?_eq] at h
    split at h
    · cases h
    · obtain rfl := Except.ok.inj h
      simp only [topText, Setup.setLine, String.toList_append]
      rfl
  have htop : (p.entries.map Prod.fst).Nodup := by
    change topNames.Nodup
    decide
  have hx : AxisName.x.text ∉ p.entries.map Prod.fst := by
    change "x" ∉ topNames
    decide
  have hy : AxisName.y.text ∉
      (p.entries ++ [(AxisName.x.text, Item.table .header p.x.table)]).map Prod.fst := by
    change "y" ∉ topNames ++ ["x"]
    decide
  have hz : AxisName.z.text ∉ (p.entries ++ [(AxisName.x.text, Item.table .header p.x.table)] ++
      [(AxisName.y.text, Item.table .header p.y.table)]).map Prod.fst := by
    change "z" ∉ topNames ++ ["x"] ++ ["y"]
    decide
  rw [ofText?_of_tells (tells_toml hp h) hmark, ofStatements?_tables htop, tables]
  simp only [List.map_append, List.append_assoc]
  rw [foldlM_axisTables .x p.x hx, foldlM_axisTables .y p.y hy, foldlM_axisTables .z p.z hz]
  unfold document
  cases p.extruder with
  | none => simp [AxisName.text]
  | some e =>
    have he : "extruder" ∉ (p.entries ++ [(AxisName.x.text, Item.table .header p.x.table)] ++
        [(AxisName.y.text, Item.table .header p.y.table)] ++
          [(AxisName.z.text, Item.table .header p.z.table)]).map Prod.fst := by
      change "extruder" ∉ topNames ++ ["x"] ++ ["y"] ++ ["z"]
      decide
    have hentries : (e.entries.map Prod.fst).Nodup := by
      change ["motor_port", "deg_mm_ratio"].Nodup
      decide
    have hadd := addSection?_new he hentries
    simp only [Option.map_some, Option.toList_some, List.map_cons, List.map_nil, List.foldlM_cons,
      hadd, Option.bind_eq_bind, Option.bind_some]
    simp [AxisName.text]

end PrinterSetup

/-! ### The parameters in a document -/

namespace Setup

@[simp] theorem motorPort?_text (m : MotorPort) : motorPort? (.text m.text) = some m := by
  cases m <;> decide

@[simp] theorem sensorPort?_text (s : SensorPort) : sensorPort? (.text s.text) = some s := by
  cases s <;> decide

section

variable {α : Type} {es : Entries} {name : String} {item : Item}

theorem required_of_lookup? (h : lookup? es name = some item) (place : Nat)
    (read : Item → Option α) : (Fields.named es).required name place read = read item := by
  simp [Fields.required, Fields.item?, h]

theorem optional_of_lookup? (h : lookup? es name = some item) (place : Nat)
    (read : Item → Option α) (default : α) :
    (Fields.named es).optional name place read default = read item := by
  simp [Fields.optional, Fields.item?, h]

theorem optional_of_none (h : lookup? es name = none) (place : Nat) (read : Item → Option α)
    (default : α) : (Fields.named es).optional name place read default = some default := by
  simp [Fields.optional, Fields.item?, h]

end

@[simp] theorem homing?_entries (c : HomingSetup) :
    homing? (.table .header c.entries) = some c := by
  have hfind : ∀ {name item}, (name, item) ∈ c.entries → lookup? c.entries name = some item := by
    refine lookup?_of_mem ?_
    change ["offset", "invert_motor", "invert_sensor", "speed"].Nodup
    decide
  have hoffset : lookup? c.entries "offset" = some (.number c.offset) :=
    hfind (by simp [HomingSetup.entries])
  have hmotor : lookup? c.entries "invert_motor" = some (.boolean c.invertMotor) :=
    hfind (by simp [HomingSetup.entries])
  have hsensor : lookup? c.entries "invert_sensor" = some (.boolean c.invertSensor) :=
    hfind (by simp [HomingSetup.entries])
  have hspeed : lookup? c.entries "speed" = some (.number c.speed) :=
    hfind (by simp [HomingSetup.entries])
  simp only [homing?, Fields.ofItem?, Option.bind_eq_bind, Option.bind_some,
    optional_of_lookup? hoffset, optional_of_lookup? hmotor, optional_of_lookup? hsensor,
    optional_of_lookup? hspeed, number?, bool?]
  rfl

@[simp] theorem axis?_table (a : AxisSetup) : axis? (.table .header a.table) = some a := by
  have hfind : ∀ {name item}, (name, item) ∈ a.table → lookup? a.table name = some item := by
    refine lookup?_of_mem ?_
    change ["motor_port", "sensor_port", "default_speed", "deg_mm_ratio", "ev3_touch_sensor",
      "inverted", "calibration"].Nodup
    decide
  have hmotor : lookup? a.table "motor_port" = some (.text a.motorPort.text) :=
    hfind (by simp [AxisSetup.table, AxisSetup.entries])
  have hsensor : lookup? a.table "sensor_port" = some (.text a.sensorPort.text) :=
    hfind (by simp [AxisSetup.table, AxisSetup.entries])
  have hspeed : lookup? a.table "default_speed" = some (.number a.speed) :=
    hfind (by simp [AxisSetup.table, AxisSetup.entries])
  have hratio : lookup? a.table "deg_mm_ratio" = some (.number a.degreesPerMm) :=
    hfind (by simp [AxisSetup.table, AxisSetup.entries])
  have htouch : lookup? a.table "ev3_touch_sensor" = some (.boolean a.touchSensor) :=
    hfind (by simp [AxisSetup.table, AxisSetup.entries])
  have hinverted : lookup? a.table "inverted" = some (.boolean a.inverted) :=
    hfind (by simp [AxisSetup.table, AxisSetup.entries])
  have hhoming : lookup? a.table "calibration" = some (.table .header a.homing.entries) :=
    hfind (by simp [AxisSetup.table, AxisSetup.entries])
  simp only [axis?, Fields.ofItem?, Option.bind_eq_bind, Option.bind_some,
    required_of_lookup? hmotor, required_of_lookup? hsensor, optional_of_lookup? hspeed,
    required_of_lookup? hratio, optional_of_lookup? htouch, optional_of_lookup? hinverted,
    optional_of_lookup? hhoming, motorPort?_text, sensorPort?_text, number?, bool?, homing?_entries]
  rfl

@[simp] theorem extruder?_entries (e : ExtruderSetup) :
    extruder? (.table .header e.entries) = some e := by
  have hfind : ∀ {name item}, (name, item) ∈ e.entries → lookup? e.entries name = some item := by
    refine lookup?_of_mem ?_
    change ["motor_port", "deg_mm_ratio"].Nodup
    decide
  have hmotor : lookup? e.entries "motor_port" = some (.text e.motorPort.text) :=
    hfind (by simp [ExtruderSetup.entries])
  have hratio : lookup? e.entries "deg_mm_ratio" = some (.number e.degreesPerMm) :=
    hfind (by simp [ExtruderSetup.entries])
  simp only [extruder?, Fields.ofItem?, Option.bind_eq_bind, Option.bind_some,
    required_of_lookup? hmotor, required_of_lookup? hratio, motorPort?_text, number?]
  rfl

theorem below?_toNat {n bound : Nat} (h : n < bound) : below? bound (.integer n) = some n := by
  have hrange : (0 : Int) ≤ n ∧ (n : Int) < bound := by omega
  rw [below?, if_pos hrange, Int.toNat_natCast]

/-- **Every parameter is found in the document**, and what is not there is absent. -/
@[simp] theorem printer?_document (p : PrinterSetup) : printer? p.document = some p := by
  have hnodup : (p.document.map Prod.fst).Nodup := by
    have hkeys : p.document.map Prod.fst =
        PrinterSetup.topNames ++ ["x", "y", "z"] ++
          (p.extruder.map fun _ => "extruder").toList := by
      unfold PrinterSetup.document
      cases p.extruder <;> rfl
    rw [hkeys]
    cases p.extruder with
    | none => decide
    | some e =>
      change (PrinterSetup.topNames ++ ["x", "y", "z"] ++ ["extruder"]).Nodup
      decide
  have hfind : ∀ {name item}, (name, item) ∈ p.document → lookup? p.document name = some item :=
    lookup?_of_mem hnodup
  have hvelocity : lookup? p.document "velocity" = some (.number p.velocity) :=
    hfind (by simp [PrinterSetup.document, PrinterSetup.entries])
  have htravel : lookup? p.document "travel_limit" = some (.number p.travelLimit) :=
    hfind (by simp [PrinterSetup.document, PrinterSetup.entries])
  have hheight : lookup? p.document "max_height" = some (.number p.maxHeight) :=
    hfind (by simp [PrinterSetup.document, PrinterSetup.entries])
  have htimeout : lookup? p.document "endstop_timeout_ms" =
      some (.integer p.endstopTimeout.toNat) :=
    hfind (by simp [PrinterSetup.document, PrinterSetup.entries])
  have hinterval : lookup? p.document "poll_interval_ms" = some (.integer p.pollInterval.toNat) :=
    hfind (by simp [PrinterSetup.document, PrinterSetup.entries])
  have hx : lookup? p.document "x" = some (.table .header p.x.table) :=
    hfind (by simp [PrinterSetup.document, PrinterSetup.entries])
  have hy : lookup? p.document "y" = some (.table .header p.y.table) :=
    hfind (by simp [PrinterSetup.document, PrinterSetup.entries])
  have hz : lookup? p.document "z" = some (.table .header p.z.table) :=
    hfind (by simp [PrinterSetup.document, PrinterSetup.entries])
  have hextruder : (Fields.named p.document).optional "extruder" 8
      (fun i => (extruder? i).map some) none = some p.extruder := by
    cases he : p.extruder with
    | none =>
      refine optional_of_none (lookup?_eq_none_iff.mpr ?_) 8 _ none
      simp [PrinterSetup.document, PrinterSetup.entries, he]
    | some e =>
      have hlookup : lookup? p.document "extruder" = some (.table .header e.entries) :=
        hfind (by simp [PrinterSetup.document, PrinterSetup.entries, he])
      rw [optional_of_lookup? hlookup, extruder?_entries]
      rfl
  simp only [printer?, Option.bind_eq_bind, Option.bind_some, optional_of_lookup? hvelocity,
    optional_of_lookup? htravel, optional_of_lookup? hheight, optional_of_lookup? htimeout,
    optional_of_lookup? hinterval, optional_of_lookup? hx, optional_of_lookup? hy,
    optional_of_lookup? hz, hextruder, number?, axis?_table, below?_toNat p.endstopTimeout.toNat_lt,
    below?_toNat p.pollInterval.toNat_lt, Option.map_some, UInt64.ofNat_toNat, UInt32.ofNat_toNat]
  rfl

/-- A timeout that was read is a whole number of a document, or the standard one. -/
theorem timeout_of_printer? {document : Entries} (hrange : AllInRange document) {p : PrinterSetup}
    (h : printer? document = some p) : p.endstopTimeout.toNat ≤ 9223372036854775807 := by
  simp only [printer?, Option.bind_eq_bind, Option.bind_eq_some_iff] at h
  obtain ⟨_, -, _, -, _, -, timeout, htimeout, _, -, _, -, _, -, _, -, _, -, hp⟩ := h
  obtain rfl := Option.some.inj hp
  dsimp only
  cases hitem : lookup? document "endstop_timeout_ms" with
  | none =>
    rw [optional_of_none hitem] at htimeout
    obtain rfl := Option.some.inj htimeout
    decide
  | some item =>
    rw [optional_of_lookup? hitem] at htimeout
    obtain ⟨n, hn, rfl⟩ := Option.map_eq_some_iff.mp htimeout
    cases item with
    | integer i =>
      have hi : i ≤ 9223372036854775807 := by
        obtain ⟨e, he, hei⟩ := Option.map_eq_some_iff.mp hitem
        have hin := hrange e (List.mem_of_find?_eq_some he)
        rwa [hei] at hin
      rw [below?] at hn
      split at hn
      · obtain rfl := Option.some.inj hn
        rw [UInt64.toNat_ofNat']
        omega
      · cases hn
    | text | number | boolean | instant | array | table | tables => cases hn

end Setup

namespace PrinterSetup

variable {p : PrinterSetup} {text : String}

/-- A setup that was read has no fault. -/
theorem fault?_of_ofToml (h : ofToml text = .ok p) : p.fault? = none := by
  unfold ofToml checked at h
  split at h
  · cases h
  · split at h
    · next hfault =>
      obtain rfl := Except.ok.inj h
      exact hfault
    · cases h

/-- **A setup that was read can be written.** -/
theorem writable_of_ofToml (h : ofToml text = .ok p) :
    p.endstopTimeout.toNat ≤ 9223372036854775807 := by
  unfold ofToml checked at h
  split at h
  · cases h
  · next hprinter =>
    split at h
    · obtain rfl := Except.ok.inj h
      obtain ⟨document, hdocument, hp⟩ := Option.bind_eq_some_iff.mp hprinter
      exact Setup.timeout_of_printer? (inRange_of_ofText? hdocument) hp
    · cases h

/-- What is written is read, and then checked. -/
theorem ofToml_toml (hp : ∀ a ∈ p.numbers, ReadsBack a) (h : p.toml? = .ok text) :
    ofToml text = p.checked := by
  rw [ofToml, ofText?_toml hp h, Option.bind_some, Setup.printer?_document]

theorem toml?_error_iff (p : PrinterSetup) (e : SetupError) :
    p.toml? = .error e ↔ e = .unwritable ∧ 9223372036854775807 < p.endstopTimeout.toNat := by
  rw [toml?_eq]
  split
  · next hlong => simp [hlong, eq_comm]
  · next hshort => simp [hshort]

/-- A setup that a session works with has no fault and can be written. -/
theorem usable_of_loadSetup {read : String → FileContent} {path? : Option String}
    (h : Session.loadSetup read path? = .ok p) :
    p.fault? = none ∧ p.endstopTimeout.toNat ≤ 9223372036854775807 := by
  cases path? with
  | none =>
    obtain rfl := Except.ok.inj h
    decide +kernel
  | some path =>
    have hfile : ofFile path (read path) = .ok p := by
      simp only [Session.loadSetup] at h
      cases hf : ofFile path (read path) with
      | error e =>
        rw [hf] at h
        cases h
      | ok q =>
        rw [hf] at h
        exact congrArg Except.ok (Except.ok.inj h)
    unfold ofFile at hfile
    split at hfile
    · cases hfile
    · split at hfile
      · cases hfile
      · exact ⟨fault?_of_ofToml hfile, writable_of_ofToml hfile⟩

/-- A setup whose file holds the text of another one, without faults, is that one. -/
theorem loadSetup_of_bytes {bytes : List UInt8} {read : String → FileContent} {path : String}
    (hbytes : textOfBytes? bytes = some text) (hread : read path = .ok bytes)
    (htext : ofToml text = .ok p) : Session.loadSetup read (some path) = .ok p := by
  have hfile : ofFile path (read path) = .ok p := by
    rw [hread, ofFile, hbytes]
    exact htext
  rw [Session.loadSetup, hfile]
  rfl

/-- **Nothing is lost in the text of a setup.**  A setup can be written unless its timeout is too
long for the signed integers of a document.  If its numbers are read back from their own digits,
its text is read as the same setup, or refused for the fault that the setup has.  So what a
session prints of its setup loads again, and is printed in the same way. -/
theorem toml_roundtrip :
    (∀ (p : PrinterSetup) (e : SetupError),
      p.toml? = .error e ↔ e = .unwritable ∧ 9223372036854775807 < p.endstopTimeout.toNat) ∧
    (∀ (p : PrinterSetup) (text : String), p.toml? = .ok text →
      (∀ a ∈ p.numbers, ReadsBack a) →
        ofToml text = match p.fault? with
          | none => .ok p
          | some fault => .error (.unusable fault)) ∧
    ∀ (o : Options) (read : String → FileContent) (p : PrinterSetup), o.printSetup = true →
      Session.loadSetup read o.setup = .ok p → (∀ a ∈ p.numbers, ReadsBack a) →
        ∃ text, Session.run o read = { output := text, ending := .done () } ∧
          ofToml text = .ok p ∧
          ∀ path bytes read', textOfBytes? bytes = some text → read' path = .ok bytes →
            Session.run { o with setup := some path } read' = Session.run o read := by
  refine ⟨toml?_error_iff, fun p text htext hp => ofToml_toml hp htext, ?_⟩
  intro o read p hprint hload hp
  obtain ⟨hfault, hshort⟩ := usable_of_loadSetup hload
  cases htext : p.toml? with
  | error e =>
    have hlong := ((toml?_error_iff p e).mp htext).2
    omega
  | ok text =>
    have hback : ofToml text = .ok p := by
      rw [ofToml_toml hp htext, checked, hfault]
    -- every session that works with the setup prints the text
    have hrun : ∀ (o' : Options) (read' : String → FileContent), o'.printSetup = true →
        Session.loadSetup read' o'.setup = .ok p →
          Session.run o' read' = { output := text, ending := .done () } := by
      intro o' read' hprint' hload'
      rw [Session.run, hload']
      simp only [Session.withSetup, hprint', if_true, htext]
    refine ⟨text, hrun o read hprint hload, hback, ?_⟩
    intro path bytes read' hbytes hread
    rw [hrun o read hprint hload]
    exact hrun { o with setup := some path } read' hprint (loadSetup_of_bytes hbytes hread hback)

/-- A printer with an extruder, and with ways back from its endstops that are no numbers. -/
def endless : PrinterSetup :=
  { standard with
    x := { standard.x with homing := { offset := .nan } }
    z := { standard.z with homing := { offset := .inf true } }
    extruder := some { motorPort := .outD, degreesPerMm := -36.5 } }

/-- The setup is written and read, and the standard one is printed. -/
theorem toml_roundtrip_endless :
    endless.fault? = none ∧ (∀ a ∈ endless.numbers, ReadsBack a) ∧
      (∃ text, endless.toml? = .ok text ∧ ofToml text = .ok endless) ∧
      ∃ text, Session.run { printSetup := true } (fun _ => .error .notFound) =
          { output := text, ending := .done () } ∧ ofToml text = .ok .standard := by
  have hfault : endless.fault? = none := by decide +kernel
  have hnumbers : ∀ a ∈ endless.numbers, ReadsBack a := by decide +kernel
  have hstandard : ∀ a ∈ standard.numbers, ReadsBack a := by decide +kernel
  obtain ⟨-, hread, hprint⟩ := toml_roundtrip
  obtain ⟨text, hsession, hback, -⟩ := hprint { printSetup := true } (fun _ => .error .notFound)
    standard rfl rfl hstandard
  refine ⟨hfault, hnumbers, ⟨_, rfl, ?_⟩, text, hsession, hback⟩
  have hendless := hread endless _ rfl hnumbers
  rwa [hfault] at hendless

end PrinterSetup

end TachoPrint
