import Mathlib.Data.List.TakeWhile
import TachoPrint.Proofs.Decimal.Layout
import TachoPrint.Setup.Writing
import TachoPrint.Toml.Document

/-!
# What the reader of documents takes from a text

A line is read as one statement, whatever lines follow it: a key and its value up to the end
of the line, the header of a table, or nothing at all.  A text that is made of such lines is
read as their statements, one after the other.

## Main definitions

* `Toml.Spells` — a text at the end of a line is read as a value.
* `Toml.Tells` — a text is read as statements, whatever follows it.
* `Toml.ReadsBack` — a number that is read back from its own digits.

## Main results

* `Toml.spells_number` — numbers that are read back are values.
* `Toml.tells_pair`, `Toml.tells_header` — the two kinds of lines.
* `Toml.Tells.append` — **texts are read one after the other.**
-/

namespace TachoPrint

namespace Toml

/-! ### Blanks -/

@[simp] theorem skipBlank_cons {c : Char} (hc : isBlank c = false) (cs : List Char) :
    skipBlank (c :: cs) = c :: cs := by
  simp [skipBlank, hc]

@[simp] theorem skipBlank_space (cs : List Char) : skipBlank (' ' :: cs) = skipBlank cs := rfl

@[simp] theorem lineEnd?_lineFeed (cs : List Char) : lineEnd? ('\n' :: cs) = some cs := rfl

/-! ### Keys -/

/-- A name that needs no quotes. -/
def IsName (name : String) : Prop := name.toList ≠ [] ∧ ∀ c ∈ name.toList, isBare c = true

-- by the characters of the name, and not by all characters there are
instance (name : String) : Decidable (IsName name) :=
  have : Decidable (∀ c ∈ name.toList, isBare c = true) := List.decidableBAll _ _
  inferInstanceAs (Decidable (_ ∧ _))

theorem isBare_ne {c d : Char} (hc : isBare c = true) (hd : isBare d = false) : c ≠ d := by
  rintro rfl
  rw [hc] at hd
  cases hd

theorem isBlank_of_isBare {c : Char} (hc : isBare c = true) : isBlank c = false := by
  have hspace : c ≠ ' ' := isBare_ne hc rfl
  have htab : c ≠ '\t' := isBare_ne hc rfl
  simp [isBlank, hspace, htab]

/-- A name starts with a character of its own. -/
theorem IsName.exists_cons {name : String} (hn : IsName name) :
    ∃ c cs, name.toList = c :: cs ∧ isBare c = true := by
  obtain ⟨hne, hall⟩ := hn
  obtain ⟨c, cs, hcs⟩ := List.exists_cons_of_ne_nil hne
  exact ⟨c, cs, hcs, hall c (hcs ▸ List.mem_cons_self)⟩

@[simp] theorem IsName.skipBlank {name : String} (hn : IsName name) (rest : List Char) :
    skipBlank (name.toList ++ rest) = name.toList ++ rest := by
  obtain ⟨c, cs, hcs, hc⟩ := hn.exists_cons
  rw [hcs]
  exact skipBlank_cons (isBlank_of_isBare hc) _

/-- A name is read up to the first character that cannot be part of it. -/
theorem keyPart_name {name : String} (hn : IsName name) (fuel : Nat) {c : Char}
    (hc : isBare c = false) (rest : List Char) :
    keyPart fuel (name.toList ++ c :: rest) = some (name, c :: rest) := by
  obtain ⟨d, ds, hds, hd⟩ := hn.exists_cons
  have hquote : d ≠ '"' := isBare_ne hd rfl
  have htick : d ≠ '\'' := isBare_ne hd rfl
  have htake : (name.toList ++ c :: rest).takeWhile isBare = name.toList := by
    rw [List.takeWhile_append_of_pos hn.2, List.takeWhile_cons_of_neg (by simp [hc]),
      List.append_nil]
  have hdrop : (name.toList ++ c :: rest).dropWhile isBare = c :: rest := by
    rw [List.dropWhile_append_of_pos hn.2, List.dropWhile_cons_of_neg (by simp [hc])]
  rw [hds, List.cons_append] at htake hdrop ⊢
  unfold keyPart
  split
  · next cs heq => exact absurd (List.cons.inj heq).1 hquote
  · next cs heq => exact absurd (List.cons.inj heq).1 htick
  · rw [htake, hdrop, ← String.ofList_toList (s := name), hds]

/-- Names with points between them. -/
def dotted : List String → List Char
  | [] => []
  | [name] => name.toList
  | name :: names => name.toList ++ '.' :: dotted names

/-- What ends a key: a blank before the equals sign, or the bracket of a header. -/
def EndsKey (rest : List Char) : Prop :=
  ∃ c cs, rest = c :: cs ∧ isBare c = false ∧ c ≠ '.' ∧ ∀ ds, skipBlank rest ≠ '.' :: ds

theorem endsKey_equals (cs : List Char) : EndsKey (' ' :: '=' :: cs) :=
  ⟨_, _, rfl, rfl, by decide, fun _ h => nomatch h⟩

theorem endsKey_bracket (cs : List Char) : EndsKey (']' :: cs) :=
  ⟨_, _, rfl, rfl, by decide, fun _ h => nomatch h⟩

/-- **A key is read as its names.** -/
theorem keyParts_dotted {names : List String} (hne : names ≠ [])
    (hnames : ∀ name ∈ names, IsName name) {fuel : Nat} (hfuel : names.length ≤ fuel)
    {rest : List Char} (hrest : EndsKey rest) :
    keyParts fuel (dotted names ++ rest) = some (names, skipBlank rest) := by
  induction names generalizing fuel with
  | nil => exact absurd rfl hne
  | cons name names ih =>
    obtain ⟨fuel, rfl⟩ := Nat.exists_eq_add_one.mpr (Nat.zero_lt_of_lt hfuel)
    obtain ⟨hname, hnames⟩ := List.forall_mem_cons.mp hnames
    cases names with
    | nil =>
      obtain ⟨c, cs, hcs, hc, -, hpoint⟩ := hrest
      have hpart : keyPart fuel (name.toList ++ rest) = some (name, rest) := by
        rw [hcs]
        exact keyPart_name hname fuel hc cs
      simp only [keyParts, dotted, hname.skipBlank, hpart, Option.bind_eq_bind, Option.bind_some]
      rfl
    | cons second names =>
      have htail := ih (List.cons_ne_nil _ _) hnames (Nat.le_of_succ_le_succ hfuel)
      have hpart := keyPart_name hname fuel (c := '.') rfl (dotted (second :: names) ++ rest)
      have htext : dotted (name :: second :: names) ++ rest =
          name.toList ++ '.' :: (dotted (second :: names) ++ rest) := by
        simp [dotted]
      rw [htext]
      simp only [keyParts, hname.skipBlank, hpart, Option.bind_eq_bind, Option.bind_some,
        skipBlank_cons (c := '.') rfl, htail]
      rfl

theorem length_le_dotted {names : List String} (hnames : ∀ name ∈ names, IsName name) :
    names.length ≤ (dotted names).length := by
  induction names with
  | nil => exact Nat.le_refl 0
  | cons name names ih =>
    obtain ⟨hname, hnames⟩ := List.forall_mem_cons.mp hnames
    have hpos := List.length_pos_iff.mpr hname.1
    have hrest := ih hnames
    cases names with
    | nil => exact hpos
    | cons second names =>
      simp only [dotted, List.length_append, List.length_cons] at hrest ⊢
      omega

/-- The names of a key, of which there are less than eighty. -/
structure IsKey (names : List String) : Prop where
  ne_nil : names ≠ []
  isName : ∀ name ∈ names, IsName name
  length_lt : names.length < depthLimit

theorem IsKey.exists_cons {names : List String} (hkey : IsKey names) :
    ∃ c cs, dotted names = c :: cs ∧ isBare c = true := by
  obtain ⟨name, names', rfl⟩ := List.exists_cons_of_ne_nil hkey.ne_nil
  obtain ⟨c, cs, hcs, hc⟩ := (hkey.isName name List.mem_cons_self).exists_cons
  cases names' with
  | nil => exact ⟨c, cs, hcs, hc⟩
  | cons second names' =>
    refine ⟨c, cs ++ '.' :: dotted (second :: names'), ?_, hc⟩
    simp [dotted, hcs]

theorem dottedKey_dotted {names : List String} (hkey : IsKey names) {rest : List Char}
    (hrest : EndsKey rest) :
    dottedKey ((dotted names ++ rest).length + 1) (dotted names ++ rest) =
      some (names, skipBlank rest) := by
  have hlength := length_le_dotted hkey.isName
  have hfuel : names.length ≤ (dotted names ++ rest).length + 1 := by
    rw [List.length_append]
    omega
  have hparts := keyParts_dotted hkey.ne_nil hkey.isName hfuel hrest
  simp only [dottedKey, hparts, Option.bind_eq_bind, Option.bind_some, if_pos hkey.length_lt]
  rfl

/-! ### Values -/

/-- A text at the end of a line is read as a value, behind blanks. -/
def Spells (cs : List Char) (item : Item) : Prop :=
  ∀ fuel depth tail, (skipBlank (cs ++ '\n' :: tail)).length ≤ fuel →
    value fuel depth (skipBlank (cs ++ '\n' :: tail)) = some (item, '\n' :: tail)

/-- Blanks do not reach behind the end of a line. -/
theorem length_skipBlank_pos (cs tail : List Char) :
    0 < (skipBlank (cs ++ '\n' :: tail)).length := by
  rw [List.length_pos_iff, skipBlank, ne_eq, List.dropWhile_eq_nil_iff]
  intro hall
  exact absurd (hall '\n' (by simp)) (by decide)

theorem spells_boolean (b : Bool) : Spells (Setup.boolText b).toList (.boolean b) := by
  intro fuel depth tail hfuel
  obtain ⟨fuel, rfl⟩ := Nat.exists_eq_add_one.mpr
    (Nat.lt_of_lt_of_le (length_skipBlank_pos _ tail) hfuel)
  cases b <;> rfl

/-- The characters of a string that stand for themselves. -/
def IsLiteral (c : Char) : Bool := isPlain c && c != '"' && c != '\\'

theorem basicBody_of_literal {cs : List Char} (hcs : ∀ c ∈ cs, IsLiteral c = true)
    (rest : List Char) {fuel : Nat} (hfuel : cs.length < fuel) :
    basicBody fuel (cs ++ '"' :: rest) = some (cs, rest) := by
  induction cs generalizing fuel with
  | nil =>
    obtain ⟨fuel, rfl⟩ := Nat.exists_eq_add_one.mpr hfuel
    rfl
  | cons c cs ih =>
    obtain ⟨fuel, rfl⟩ := Nat.exists_eq_add_one.mpr (Nat.zero_lt_of_lt hfuel)
    obtain ⟨hc, hcs⟩ := List.forall_mem_cons.mp hcs
    have hrest := ih hcs (Nat.lt_of_succ_lt_succ hfuel)
    unfold IsLiteral at hc
    simp only [Bool.and_eq_true, bne_iff_ne, ne_eq] at hc
    obtain ⟨⟨hplain, hquote⟩, hescape⟩ := hc
    rw [List.cons_append, basicBody, if_neg hquote, if_neg hescape, if_pos hplain, hrest]
    rfl

/-- A text in quotes is a string. -/
theorem spells_text {s : String} (hne : s.toList ≠ []) (hall : s.toList.all IsLiteral = true) :
    Spells (Setup.quoted s).toList (.text s) := by
  have hs : ∀ c ∈ s.toList, IsLiteral c = true := List.all_eq_true.mp hall
  obtain ⟨c, cs, hcs⟩ := List.exists_cons_of_ne_nil hne
  have hc : c ≠ '"' := by
    rintro rfl
    exact absurd (hs '"' (hcs ▸ List.mem_cons_self)) (by decide)
  intro fuel depth tail hfuel
  have htext : (Setup.quoted s).toList ++ '\n' :: tail =
      '"' :: (s.toList ++ '"' :: '\n' :: tail) := by
    simp [Setup.quoted]
  rw [htext, skipBlank_cons rfl] at hfuel ⊢
  obtain ⟨fuel, rfl⟩ := Nat.exists_eq_add_one.mpr (Nat.zero_lt_of_lt hfuel)
  simp only [List.length_cons, List.length_append] at hfuel
  have hbody : basicBody fuel (s.toList ++ '"' :: '\n' :: tail) = some (s.toList, '\n' :: tail) :=
    basicBody_of_literal hs _ (by omega)
  -- the text is not empty, so its first quote is not one of three
  have hany : anyString fuel ('"' :: (s.toList ++ '"' :: '\n' :: tail)) =
      basicBody fuel (s.toList ++ '"' :: '\n' :: tail) := by
    rw [hcs, List.cons_append]
    simp [anyString, hc]
  simp only [value, hany, hbody, Option.map_some, String.ofList_toList]

/-! ### Numbers -/

theorem more_of_digits {ds : List Char} (hds : ∀ d ∈ ds, d.isDigit = true) {c : Char}
    (hc : c.isDigit = false) (hmark : c ≠ '_') (rest : List Char) :
    digitRun.more Char.isDigit (ds ++ c :: rest) = (ds, c :: rest) := by
  induction ds with
  | nil => simp [digitRun.more, hc, hmark]
  | cons d ds ih =>
    obtain ⟨hd, hds⟩ := List.forall_mem_cons.mp hds
    have hunder : d ≠ '_' := by
      rintro rfl
      cases hd
    simp [digitRun.more, hd, hunder, ih hds]

/-- Digits are read up to the first character that is none. -/
theorem digitRun_of_digits {ds : List Char} (hne : ds ≠ []) (hds : ∀ d ∈ ds, d.isDigit = true)
    {c : Char} (hc : c.isDigit = false) (hmark : c ≠ '_') (rest : List Char) :
    digitRun Char.isDigit (ds ++ c :: rest) = some (ds, c :: rest) := by
  obtain ⟨d, ds, rfl⟩ := List.exists_cons_of_ne_nil hne
  obtain ⟨hd, hds⟩ := List.forall_mem_cons.mp hds
  have hmore := more_of_digits hds hc hmark rest
  simp [digitRun, hd, hmore]

theorem wholePart_of_isWhole {w : List Char} (hw : Decimal.IsWhole w) {c : Char}
    (hc : c.isDigit = false) (hmark : c ≠ '_') (rest : List Char) :
    wholePart (w ++ c :: rest) = some (w, c :: rest) := by
  rcases hw with rfl | ⟨d, ds, rfl, hd, hall⟩
  · rfl
  · have hrun := digitRun_of_digits (List.cons_ne_nil d ds) hall hc hmark rest
    simpa [wholePart, hd] using hrun

theorem isWhole_exists_cons {w : List Char} (hw : Decimal.IsWhole w) :
    ∃ c cs, w = c :: cs ∧ c.isDigit = true := by
  rcases hw with rfl | ⟨c, cs, rfl, -, hall⟩
  · exact ⟨_, _, rfl, rfl⟩
  · exact ⟨c, cs, rfl, hall c List.mem_cons_self⟩

/-- The sign of a number as it is written. -/
def signChars (negative : Bool) : List Char := if negative then ['-'] else []

@[simp] theorem signPart_signChars (negative : Bool) {c : Char} (hc : c.isDigit = true)
    (cs : List Char) :
    signPart (signChars negative ++ c :: cs) = (signChars negative, c :: cs) := by
  have hplus : c ≠ '+' := by
    rintro rfl
    cases hc
  have hminus : c ≠ '-' := by
    rintro rfl
    cases hc
  cases negative with
  | true => rfl
  | false => simp [signChars, signPart, hplus, hminus]

/-- A whole part and a fraction are read as the number that they spell. -/
theorem decimal_of_parts {negative : Bool} {w f : List Char} (hw : Decimal.IsWhole w)
    (hf : Decimal.IsFraction f) {a : Binary64}
    (ha : Binary64.ofText? (signChars negative ++ (w ++ '.' :: f)) = some a)
    (hfin : a.isFinite = true) (tail : List Char) :
    decimal (signChars negative ++ (w ++ '.' :: (f ++ '\n' :: tail))) =
      some (.number a, '\n' :: tail) := by
  obtain ⟨c, cs, hcs, hc⟩ := isWhole_exists_cons hw
  have hsign : signPart (signChars negative ++ (w ++ '.' :: (f ++ '\n' :: tail))) =
      (signChars negative, w ++ '.' :: (f ++ '\n' :: tail)) := by
    rw [hcs]
    exact signPart_signChars negative hc _
  have hwhole := wholePart_of_isWhole hw (c := '.') rfl (by decide) (f ++ '\n' :: tail)
  have hfraction : fractionPart ('.' :: (f ++ '\n' :: tail)) = some ('.' :: f, '\n' :: tail) := by
    simp [fractionPart, digitRun_of_digits hf.1 hf.2 (c := '\n') rfl (by decide) tail]
  have hexponent : exponentPart ('\n' :: tail) = some ([], '\n' :: tail) := rfl
  have htext : signChars negative ++ w ++ '.' :: f ++ [] =
      signChars negative ++ (w ++ '.' :: f) := by
    simp
  have hinf : a ≠ .inf false := by
    rintro rfl
    cases hfin
  simp only [decimal, hsign, hwhole, hfraction, hexponent, Option.bind_eq_bind, Option.bind_some]
  rw [if_neg (by simp), htext, ha, Option.bind_some, if_neg hinf]
  rfl

/-- Digits are read as the integer that they spell, if it fits. -/
theorem decimal_digitChars {n : Nat} (hn : n ≤ 9223372036854775807) (tail : List Char) :
    decimal (Decimal.digitChars n ++ '\n' :: tail) = some (.integer n, '\n' :: tail) := by
  have hdigits := Decimal.isWhole_digitChars n
  obtain ⟨c, cs, hcs, hc⟩ := isWhole_exists_cons hdigits
  have hsign : signPart (Decimal.digitChars n ++ '\n' :: tail) =
      ([], Decimal.digitChars n ++ '\n' :: tail) := by
    rw [hcs]
    exact signPart_signChars false hc _
  have hwhole := wholePart_of_isWhole hdigits (c := '\n') rfl (by decide) tail
  have hfraction : fractionPart ('\n' :: tail) = some ([], '\n' :: tail) := rfl
  have hexponent : exponentPart ('\n' :: tail) = some ([], '\n' :: tail) := rfl
  have hfits : fitting? (n : Int) = some (.integer n) := if_pos (by omega)
  have hvalue : Decimal.ofDigits (Decimal.digitChars n) = n := Decimal.ofDigits_toDigits n
  simp only [decimal, hsign, hwhole, hfraction, hexponent, hvalue, Option.bind_eq_bind,
    Option.bind_some]
  rw [if_pos (by simp), if_neg (by decide), hfits]
  rfl

/-! ### Dates and times -/

theorem fixedNumber_of_not_isDigit {c : Char} (hc : c.isDigit = false) (width : Nat)
    (cs : List Char) : fixedNumber (width + 1) (c :: cs) = none := by
  simp [fixedNumber, hc]

@[simp] theorem instant?_of_not_isDigit {c : Char} (hc : c.isDigit = false) (cs : List Char) :
    instant? (c :: cs) = none := by
  simp [instant?, date?, time?, fixedNumber_of_not_isDigit hc]

/-- Behind digits of a number there is no mark of a date or a time. -/
theorem expect_of_fixedNumber {cs : List Char} (hcs : ∀ c ∈ cs, c.isDigit = true ∨ c = '.')
    {mark : Char} (hmark : mark = '-' ∨ mark = ':') {width n : Nat} {tail rest : List Char}
    (h : fixedNumber width (cs ++ '\n' :: tail) = some (n, rest)) : expect mark rest = none := by
  unfold fixedNumber at h
  dsimp only at h
  split at h
  · next hdigits =>
    obtain ⟨-, hall⟩ := hdigits
    obtain rfl := (Prod.mk.inj (Option.some.inj h)).2
    -- the line feed is no digit, so the digits lie in front of it
    have hwidth : width ≤ cs.length := by
      by_contra hlt
      have hfeed : '\n' ∈ (cs ++ '\n' :: tail).take width := by
        obtain ⟨k, hk⟩ := Nat.exists_eq_add_of_lt (Nat.lt_of_not_le hlt)
        rw [List.take_append, hk, List.take_of_length_le (by omega)]
        have hone : cs.length + k + 1 - cs.length = k + 1 := by omega
        rw [hone, List.take_succ_cons]
        simp
      exact absurd (List.all_eq_true.mp hall _ hfeed) (by decide)
    rw [List.drop_append_of_le_length hwidth]
    cases hrest : cs.drop width with
    | nil => rcases hmark with rfl | rfl <;> rfl
    | cons d ds =>
      have hd := hcs d (List.mem_of_mem_drop (hrest ▸ List.mem_cons_self))
      have hne : d ≠ mark := by
        rintro rfl
        rcases hmark with rfl | rfl <;> revert hd <;> decide
      exact if_neg hne
  · cases h

theorem instant?_of_number {cs : List Char} (hcs : ∀ c ∈ cs, c.isDigit = true ∨ c = '.')
    (tail : List Char) : instant? (cs ++ '\n' :: tail) = none := by
  have hdate : date? (cs ++ '\n' :: tail) = none := by
    unfold date?
    cases h : fixedNumber 4 (cs ++ '\n' :: tail) with
    | none => rfl
    | some p => simp [expect_of_fixedNumber hcs (.inl rfl) h]
  have htime : time? (cs ++ '\n' :: tail) = none := by
    unfold time?
    cases h : fixedNumber 2 (cs ++ '\n' :: tail) with
    | none => rfl
    | some p => simp [expect_of_fixedNumber hcs (.inr rfl) h]
  rw [instant?, hdate, htime]

/-! ### Numbers as values -/

/-- What starts a number: a sign, a digit, or one of the two names. -/
def StartsNumber (c : Char) : Prop := c = '-' ∨ c = 'i' ∨ c = 'n' ∨ c.isDigit = true

theorem StartsNumber.isBlank {c : Char} (hc : StartsNumber c) : isBlank c = false := by
  rcases hc with rfl | rfl | rfl | hdigit
  · rfl
  · rfl
  · rfl
  · have hspace : c ≠ ' ' := by
      rintro rfl
      cases hdigit
    have htab : c ≠ '\t' := by
      rintro rfl
      cases hdigit
    simp [Toml.isBlank, hspace, htab]

/-- What starts like a number and is neither a date nor a time is a number. -/
theorem value_of_startsNumber {c : Char} (hc : StartsNumber c) {cs : List Char}
    (hinstant : instant? (c :: cs) = none) (fuel depth : Nat) :
    value (fuel + 1) depth (c :: cs) = numeral (c :: cs) := by
  have hother : c ≠ '"' ∧ c ≠ '\'' ∧ c ≠ '[' ∧ c ≠ '\x7b' ∧ c ≠ 't' ∧ c ≠ 'f' := by
    rcases hc with rfl | rfl | rfl | hdigit
    · decide
    · decide
    · decide
    · refine ⟨?_, ?_, ?_, ?_, ?_, ?_⟩ <;> rintro rfl <;> cases hdigit
  simp [value, hother, hinstant]

/-- A number in front of the end of a line is a value. -/
theorem spells_of_numeral {c : Char} {cs : List Char} {item : Item} (hc : StartsNumber c)
    (hinstant : ∀ tail, instant? (c :: (cs ++ '\n' :: tail)) = none)
    (hnumeral : ∀ tail, numeral (c :: (cs ++ '\n' :: tail)) = some (item, '\n' :: tail)) :
    Spells (c :: cs) item := by
  intro fuel depth tail hfuel
  obtain ⟨fuel, rfl⟩ := Nat.exists_eq_add_one.mpr
    (Nat.lt_of_lt_of_le (length_skipBlank_pos _ tail) hfuel)
  rw [List.cons_append, skipBlank_cons hc.isBlank, value_of_startsNumber hc (hinstant tail),
    hnumeral tail]

theorem namedNumber?_of_isDigit {c : Char} (hc : c.isDigit = true) (negative : Bool)
    (cs : List Char) : namedNumber? negative (c :: cs) = none := by
  unfold namedNumber?
  split
  · next heq =>
    rw [(List.cons.inj heq).1] at hc
    cases hc
  · next heq =>
    rw [(List.cons.inj heq).1] at hc
    cases hc
  · rfl

/-- A number that starts with a digit has no name, and a point or a line feed behind its whole
part is no mark of another base. -/
theorem numeral_of_isWhole {w : List Char} (hw : Decimal.IsWhole w) {c : Char}
    (hc : c = '.' ∨ c = '\n') (negative : Bool) (rest : List Char) :
    numeral (signChars negative ++ (w ++ c :: rest)) =
      decimal (signChars negative ++ (w ++ c :: rest)) := by
  obtain ⟨d, ds, hds, hd⟩ := isWhole_exists_cons hw
  have hsign : signPart (signChars negative ++ (w ++ c :: rest)) =
      (signChars negative, w ++ c :: rest) := by
    rw [hds]
    exact signPart_signChars negative hd _
  have hnamed : ∀ b, namedNumber? b (w ++ c :: rest) = none := by
    intro b
    rw [hds]
    exact namedNumber?_of_isDigit hd b _
  unfold numeral
  rw [hsign]
  dsimp only
  rw [hnamed]
  cases negative with
  | true => rfl
  | false =>
    rcases hw with rfl | ⟨d, ds, rfl, hzero, -⟩
    · rcases hc with rfl | rfl <;> rfl
    · simp [signChars, hzero]

theorem spells_integer {n : Nat} (hn : n ≤ 9223372036854775807) :
    Spells (toString n).toList (.integer n) := by
  rw [Nat.toString_eq_ofList_toDigits, String.toList_ofList]
  have hwhole := Decimal.isWhole_digitChars n
  obtain ⟨c, cs, hcs, hc⟩ := isWhole_exists_cons hwhole
  have hdigits : ∀ d ∈ c :: cs, d.isDigit = true ∨ d = '.' := fun d hd =>
    .inl (hwhole.isDigit d (hcs ▸ hd))
  have hlist : Nat.toDigits 10 n = c :: cs := hcs
  rw [hlist]
  refine spells_of_numeral (.inr (.inr (.inr hc))) (fun tail => instant?_of_number hdigits tail)
    fun tail => ?_
  rw [← List.cons_append, ← hcs]
  exact (numeral_of_isWhole hwhole (.inr rfl) false tail).trans (decimal_digitChars hn tail)

end Toml

/-! ### Numbers as they are written -/

/-- **A finite number is a sign, a whole part and a fraction.** -/
theorem Layout.exists_parts_of_toml (negative : Bool) (n : Nat) (hn : Binary64.Representable n) :
    ∃ w f, Layout.toml.chars (.finite negative n hn) =
        Toml.signChars negative ++ (w ++ '.' :: f) ∧
      Decimal.IsWhole w ∧ Decimal.IsFraction f := by
  have hzero : (Binary64.shortest .away negative n).digits = 0 →
      (Binary64.shortest .away negative n).exponent = 0 := Binary64.exponent_of_digits_eq_zero
  obtain ⟨w, f, hplain, hw, hf⟩ := Decimal.exists_parts_of_plain hzero
  refine ⟨w, f, ?_, hw, hf⟩
  generalize hd : Binary64.shortest .away negative n = d at hplain
  have hnegative : d.negative = negative := hd ▸ Binary64.shortest_negative .away negative n
  -- every number is plain, so no digits are set out with an exponent
  have hchars : Layout.toml.chars (.finite negative n hn) =
      if d.negative then '-' :: Decimal.plain ['.', '0'] (Decimal.digitChars d.digits) d.exponent
      else Decimal.plain ['.', '0'] (Decimal.digitChars d.digits) d.exponent := by
    rw [← hd]
    rfl
  rw [hchars, hnegative, hplain]
  cases negative <;> rfl

namespace Toml

/-- The number is read back from its own digits. -/
def ReadsBack (a : Binary64) : Prop := Binary64.ofText? (Layout.toml.chars a) = some a

instance (a : Binary64) : Decidable (ReadsBack a) := inferInstanceAs (Decidable (_ = _))

/-- **A number that is read back from its own digits is a value.** -/
theorem spells_number {a : Binary64} (ha : ReadsBack a) :
    Spells (Layout.toml.text a).toList (.number a) := by
  rw [Layout.text, String.toList_ofList]
  cases a with
  | nan =>
    have hchars : Layout.toml.chars .nan = ['n', 'a', 'n'] := rfl
    rw [hchars]
    exact spells_of_numeral (.inr (.inr (.inl rfl))) (fun _ => instant?_of_not_isDigit rfl _)
      fun _ => rfl
  | inf negative =>
    cases negative with
    | true =>
      have hchars : Layout.toml.chars (.inf true) = ['-', 'i', 'n', 'f'] := rfl
      rw [hchars]
      exact spells_of_numeral (.inl rfl) (fun _ => instant?_of_not_isDigit rfl _) fun _ => rfl
    | false =>
      have hchars : Layout.toml.chars (.inf false) = ['i', 'n', 'f'] := rfl
      rw [hchars]
      exact spells_of_numeral (.inr (.inl rfl)) (fun _ => instant?_of_not_isDigit rfl _)
        fun _ => rfl
  | finite negative n hn =>
    obtain ⟨w, f, hchars, hw, hf⟩ := Layout.exists_parts_of_toml negative n hn
    rw [ReadsBack, hchars] at ha
    rw [hchars]
    have hnumeral : ∀ tail, numeral (signChars negative ++ (w ++ '.' :: (f ++ '\n' :: tail))) =
        some (.number (.finite negative n hn), '\n' :: tail) := fun tail =>
      (numeral_of_isWhole hw (.inl rfl) negative _).trans (decimal_of_parts hw hf ha rfl tail)
    have htext : ∀ tail, (w ++ '.' :: f) ++ '\n' :: tail = w ++ '.' :: (f ++ '\n' :: tail) := by
      simp
    cases negative with
    | true =>
      have hlist : signChars true ++ (w ++ '.' :: f) = '-' :: (w ++ '.' :: f) := rfl
      rw [hlist]
      refine spells_of_numeral (.inl rfl) (fun _ => instant?_of_not_isDigit rfl _) fun tail => ?_
      rw [htext]
      exact hnumeral tail
    | false =>
      obtain ⟨c, cs, hcs, hc⟩ := isWhole_exists_cons hw
      have hdigits : ∀ d ∈ w ++ '.' :: f, d.isDigit = true ∨ d = '.' := by
        intro d hd
        rcases List.mem_append.mp hd with hd | hd
        · exact .inl (hw.isDigit d hd)
        · exact (List.mem_cons.mp hd).symm.imp (hf.2 d) id
      have hlist : signChars false ++ (w ++ '.' :: f) = c :: (cs ++ '.' :: f) := by
        rw [hcs]
        rfl
      rw [hlist]
      refine spells_of_numeral (.inr (.inr (.inr hc))) ?_ ?_
      · intro tail
        rw [← List.cons_append, ← List.cons_append, ← hcs]
        exact instant?_of_number hdigits tail
      · intro tail
        rw [← List.cons_append, ← List.cons_append, ← hcs, htext]
        exact hnumeral tail

/-! ### Lines -/

/-- A text is read as statements, whatever is read from the text behind it. -/
def Tells (text : String) (ss : List Statement) : Prop :=
  ∀ ⦃tail : List Char⦄ ⦃more : List Statement⦄,
    (∀ fuel, tail.length ≤ fuel → statements fuel tail = some more) →
      ∀ fuel, (text.toList ++ tail).length ≤ fuel →
        statements fuel (text.toList ++ tail) = some (ss ++ more)

theorem tells_empty : Tells "" [] := fun _ _ h => h

/-- **Texts are read one after the other.** -/
theorem Tells.append {s t : String} {ss ts : List Statement} (hs : Tells s ss) (ht : Tells t ts) :
    Tells (s ++ t) (ss ++ ts) := by
  intro tail more htail
  rw [String.toList_append, List.append_assoc, List.append_assoc]
  exact hs (ht htail)

/-- A line that is read as a statement, or as none, is read so in front of other lines. -/
theorem tells_of_line? {text : String} {s : Option Statement} (hne : text.toList ≠ [])
    (hline : ∀ tail, line? (text.toList ++ tail) = some (s, tail)) : Tells text s.toList := by
  intro tail more htail fuel hfuel
  obtain ⟨c, cs, hcs⟩ := List.exists_cons_of_ne_nil hne
  have hl := hline tail
  rw [hcs, List.cons_append] at hfuel hl ⊢
  obtain ⟨fuel, rfl⟩ := Nat.exists_eq_add_one.mpr (Nat.zero_lt_of_lt hfuel)
  have hrest := htail fuel (by
    simp only [List.length_cons, List.length_append] at hfuel
    omega)
  simp only [statements, hl, hrest, Option.bind_eq_bind, Option.bind_some]
  rfl

/-- An empty line says nothing. -/
theorem tells_lineFeed : Tells "\n" [] :=
  tells_of_line? (s := none) (by decide) fun _ => rfl

theorem line?_of_isBare {c : Char} (hc : isBare c = true) (cs : List Char) :
    line? (c :: cs) = (pairLine (c :: cs)).map fun (s, rest) => (some s, rest) := by
  have hbracket : c ≠ '[' := isBare_ne hc rfl
  have hcomment : c ≠ '#' := isBare_ne hc rfl
  have hfeed : c ≠ '\n' := isBare_ne hc rfl
  have hreturn : c ≠ '\x0d' := isBare_ne hc rfl
  simp [line?, skipBlank_cons (isBlank_of_isBare hc), hbracket, hcomment, hfeed, hreturn]

/-- **A line that sets a parameter** says its name and its value. -/
theorem tells_pair {name value : String} {item : Item} (hname : IsName name)
    (hvalue : Spells value.toList item) :
    Tells (Setup.setLine name value) [.pair [name] item] := by
  obtain ⟨c, cs, hcs, hc⟩ := hname.exists_cons
  refine tells_of_line? (s := some (.pair [name] item)) ?_ ?_
  · simp [Setup.setLine, hcs]
  intro tail
  have htext : (Setup.setLine name value).toList ++ tail =
      name.toList ++ ' ' :: '=' :: ' ' :: (value.toList ++ '\n' :: tail) := by
    simp [Setup.setLine]
  have hone : [name].length < depthLimit := by
    rw [List.length_singleton]
    decide
  have hkey : IsKey [name] :=
    ⟨List.cons_ne_nil _ _, fun n hn => (List.mem_singleton.mp hn) ▸ hname, hone⟩
  have hdotted := dottedKey_dotted hkey (endsKey_equals (' ' :: (value.toList ++ '\n' :: tail)))
  have hfuel : (skipBlank (value.toList ++ '\n' :: tail)).length ≤
      valueFuel (skipBlank (value.toList ++ '\n' :: tail)) := by
    unfold valueFuel
    omega
  have hitem := hvalue _ (depthLimit - 1) tail hfuel
  have hpair : pairLine (name.toList ++ ' ' :: '=' :: ' ' :: (value.toList ++ '\n' :: tail)) =
      some (.pair [name] item, tail) := by
    unfold pairLine
    rw [dotted] at hdotted
    simp only [hdotted, skipBlank_space, skipBlank_cons (c := '=') rfl, expect, if_true,
      Option.bind_eq_bind, Option.bind_some, hitem, lineEnd?_lineFeed]
    rfl
  rw [htext]
  rw [hcs, List.cons_append] at hpair ⊢
  rw [line?_of_isBare hc, hpair]
  rfl

/-- **A header** says the path of its table. -/
theorem tells_header {path : String} {names : List String} (hkey : IsKey names)
    (hpath : path.toList = dotted names) : Tells (Setup.headerLine path) [.table names] := by
  have hempty : Setup.headerLine path = "\n" ++ ("[" ++ path ++ "]\n") := by
    simp [Setup.headerLine, ← String.append_assoc]
  rw [hempty]
  refine tells_lineFeed.append (tells_of_line? (s := some (.table names)) (by simp) ?_)
  intro tail
  have htext : ("[" ++ path ++ "]\n").toList ++ tail =
      '[' :: (dotted names ++ ']' :: '\n' :: tail) := by
    simp [hpath]
  have hdotted := dottedKey_dotted hkey (endsKey_bracket ('\n' :: tail))
  -- a name does not start with a bracket, so the header is not that of one of several tables
  obtain ⟨c, cs, hcs, hc⟩ := hkey.exists_cons
  have hbracket : c ≠ '[' := isBare_ne hc rfl
  have hheader : headerLine ('[' :: (dotted names ++ ']' :: '\n' :: tail)) =
      some (.table names, tail) := by
    rw [hcs, List.cons_append] at hdotted ⊢
    unfold headerLine
    split
    · next heq => exact absurd (List.cons.inj (List.cons.inj heq).2).1 hbracket
    · next heq =>
      rw [← (List.cons.inj heq).2]
      simp only [hdotted, skipBlank_cons (c := ']') rfl, expect, if_true, Option.bind_eq_bind,
        Option.bind_some, lineEnd?_lineFeed]
      rfl
    · next hno => exact absurd rfl (hno _)
  rw [htext, line?, skipBlank_cons rfl]
  simp only [hheader, Option.map_some]

/-- **A text that says statements is the document that they build.** -/
theorem ofText?_of_tells {text : String} {ss : List Statement} (h : Tells text ss)
    (hmark : dropMark text.toList = text.toList) : ofText? text = ofStatements? ss := by
  have hnone : ∀ fuel, ([] : List Char).length ≤ fuel → statements fuel [] = some [] := by
    intro fuel _
    cases fuel <;> rfl
  have hall := h hnone (text.toList.length + 1) (by simp)
  rw [List.append_nil, List.append_nil] at hall
  rw [ofText?, ofChars?, hmark, hall, Option.bind_some]

end Toml

end TachoPrint
