import Mathlib.Data.List.Forall2
import TachoPrint.Json.Reader

/-!
# What the reader takes from a text

A reader takes one value from the front of a text and hands on the rest, so a value reads
the same wherever it stands, as long as what follows cannot be a part of it.  A number is
the one value that has no mark at its end: inside an object a comma or a brace ends it.

## Main definitions

* `Json.Reader.Ends` — what may follow a value inside an object.
* `Json.Reader.Spells` — a text is read as a value, whatever follows it there.
* `Json.Reader.memberChars` — a member of an object as it is written.

## Main results

* `Json.Reader.numeral_append` — a number reads the same in front of more text.
* `Json.Reader.members_of_spells` — **members read as their values.**
* `Json.ofChars?_object` — an object with members.
-/

namespace TachoPrint.Json

namespace Reader

/-- What may follow a value inside an object: a comma or a brace comes first. -/
def Ends (rest : List Char) : Prop := ∃ c tail, rest = c :: tail ∧ (c = ',' ∨ c = '}')

theorem Ends.comma (tail : List Char) : Ends (',' :: tail) := ⟨_, _, rfl, .inl rfl⟩

theorem Ends.brace (tail : List Char) : Ends ('}' :: tail) := ⟨_, _, rfl, .inr rfl⟩

/-! ### Numbers -/

theorem takeWhile_isDigit_append {rest : List Char} (h : Ends rest) (cs : List Char) :
    (cs ++ rest).takeWhile Char.isDigit = cs.takeWhile Char.isDigit ∧
      (cs ++ rest).dropWhile Char.isDigit = cs.dropWhile Char.isDigit ++ rest := by
  induction cs with
  | nil =>
    obtain ⟨c, tail, rfl, rfl | rfl⟩ := h
    · exact ⟨rfl, rfl⟩
    · exact ⟨rfl, rfl⟩
  | cons c cs ih =>
    by_cases hc : c.isDigit
    · simp [hc, ih]
    · simp [hc]

theorem someDigits_append {cs ds r rest : List Char} (hrest : Ends rest)
    (h : someDigits cs = some (ds, r)) : someDigits (cs ++ rest) = some (ds, r ++ rest) := by
  obtain ⟨htake, hdrop⟩ := takeWhile_isDigit_append hrest cs
  unfold someDigits at h ⊢
  rw [htake, hdrop]
  cases hds : cs.takeWhile Char.isDigit with
  | nil =>
    rw [hds] at h
    cases h
  | cons d ds' =>
    rw [hds] at h
    obtain ⟨rfl, rfl⟩ := Prod.mk.inj (Option.some.inj h)
    rfl

theorem wholePart_append {cs w r rest : List Char} (hrest : Ends rest)
    (h : wholePart cs = some (w, r)) : wholePart (cs ++ rest) = some (w, r ++ rest) := by
  cases cs with
  | nil => cases h
  | cons c cs =>
    by_cases hc : c = '0'
    · subst hc
      obtain ⟨rfl, rfl⟩ := Prod.mk.inj (Option.some.inj h)
      rfl
    · have hdigits : ∀ tail, wholePart (c :: tail) = someDigits (c :: tail) := by
        intro tail
        simp [wholePart, hc]
      rw [hdigits] at h
      rw [List.cons_append, hdigits]
      exact someDigits_append hrest h

theorem fractionPart_append {cs f r rest : List Char} (hrest : Ends rest)
    (h : fractionPart cs = some (f, r)) : fractionPart (cs ++ rest) = some (f, r ++ rest) := by
  cases cs with
  | nil =>
    obtain ⟨rfl, rfl⟩ := Prod.mk.inj (Option.some.inj h)
    obtain ⟨c, tail, rfl, rfl | rfl⟩ := hrest <;> rfl
  | cons c cs =>
    by_cases hc : c = '.'
    · subst hc
      exact someDigits_append hrest h
    · have hnone : ∀ tail, fractionPart (c :: tail) = some ([], c :: tail) := by
        intro tail
        simp [fractionPart, hc]
      rw [hnone] at h
      obtain ⟨rfl, rfl⟩ := Prod.mk.inj (Option.some.inj h)
      exact hnone _

theorem splitSign_append {cs : List Char} (h : cs ≠ []) (rest : List Char) :
    Decimal.splitSign (cs ++ rest) =
      ((Decimal.splitSign cs).1, (Decimal.splitSign cs).2 ++ rest) := by
  cases cs with
  | nil => exact absurd rfl h
  | cons c cs =>
    rw [List.cons_append]
    unfold Decimal.splitSign
    split <;> simp_all

theorem signedDigits_append {cs r rest : List Char} {n : Int} (hrest : Ends rest)
    (h : signedDigits cs = some (n, r)) : signedDigits (cs ++ rest) = some (n, r ++ rest) := by
  have hne : cs ≠ [] := by
    rintro rfl
    cases h
  simp only [signedDigits, Option.bind_eq_bind, Option.bind_eq_some_iff, Prod.exists] at h ⊢
  obtain ⟨ds, r', hds, hend⟩ := h
  obtain ⟨rfl, rfl⟩ := Prod.mk.inj (Option.some.inj hend)
  refine ⟨ds, r' ++ rest, ?_, ?_⟩
  · rw [splitSign_append hne]
    exact someDigits_append hrest hds
  · rw [splitSign_append hne]
    rfl

theorem exponentPart_append {cs r rest : List Char} {e : Option Int} (hrest : Ends rest)
    (h : exponentPart cs = some (e, r)) : exponentPart (cs ++ rest) = some (e, r ++ rest) := by
  have hletter : ∀ {cs}, (signedDigits cs).map (fun p => (some p.1, p.2)) = some (e, r) →
      (signedDigits (cs ++ rest)).map (fun p => (some p.1, p.2)) = some (e, r ++ rest) := by
    intro cs h
    obtain ⟨⟨n, r'⟩, hn, hend⟩ := Option.map_eq_some_iff.mp h
    obtain ⟨rfl, rfl⟩ := Prod.mk.inj hend
    rw [signedDigits_append hrest hn]
    rfl
  cases cs with
  | nil =>
    obtain ⟨rfl, rfl⟩ := Prod.mk.inj (Option.some.inj h)
    obtain ⟨c, tail, rfl, rfl | rfl⟩ := hrest <;> rfl
  | cons c cs =>
    by_cases hc : c = 'e' ∨ c = 'E'
    · obtain rfl | rfl := hc
      · exact hletter h
      · exact hletter h
    · rw [not_or] at hc
      have hnone : ∀ tail, exponentPart (c :: tail) = some (none, c :: tail) := by
        intro tail
        simp [exponentPart, hc.1, hc.2]
      rw [hnone] at h
      obtain ⟨rfl, rfl⟩ := Prod.mk.inj (Option.some.inj h)
      exact hnone _

/-- The sign of a number, and the text after it. -/
def numeralSign : List Char → Bool × List Char
  | '-' :: cs => (true, cs)
  | cs => (false, cs)

theorem numeralSign_append {cs : List Char} (h : cs ≠ []) (rest : List Char) :
    numeralSign (cs ++ rest) = ((numeralSign cs).1, (numeralSign cs).2 ++ rest) := by
  cases cs with
  | nil => exact absurd rfl h
  | cons c cs =>
    rw [List.cons_append]
    unfold numeralSign
    split <;> simp_all

section

variable {read : NumberReader}

/-- The value of a number with the given parts. -/
def numeralValue? (read : NumberReader) (negative : Bool) (whole fraction : List Char)
    (exponent : Option Int) : Option Json :=
  match if fraction = [] ∧ exponent = none then integer? negative whole else none with
  | some i => some (.integer i)
  | none => (read negative whole fraction (exponent.getD 0)).map Json.number

/-- A number is its parts, one after the other. -/
theorem numeral_eq_some_iff {cs r : List Char} {v : Json} :
    numeral read cs = some (v, r) ↔ ∃ w r₁ f r₂ e, wholePart (numeralSign cs).2 = some (w, r₁) ∧
      fractionPart r₁ = some (f, r₂) ∧ exponentPart r₂ = some (e, r) ∧
      numeralValue? read (numeralSign cs).1 w f e = some v := by
  have hparts : numeral read cs = (wholePart (numeralSign cs).2).bind fun p =>
      (fractionPart p.2).bind fun q => (exponentPart q.2).bind fun u =>
        (numeralValue? read (numeralSign cs).1 p.1 q.1 u.1).map fun v => (v, u.2) := by
    refine Option.bind_congr fun p _ => Option.bind_congr fun q _ => Option.bind_congr ?_
    intro u _
    unfold numeralValue?
    dsimp only
    split
    · next i hexact =>
      have hinteger : (if q.1 = [] ∧ u.1 = none then integer? (numeralSign cs).1 p.1 else none) =
          some i := hexact
      rw [hinteger]
      rfl
    · next hexact =>
      have hnone : (if q.1 = [] ∧ u.1 = none then integer? (numeralSign cs).1 p.1 else none) =
        none := hexact
      rw [hnone]
      show ((read (numeralSign cs).1 p.1 q.1 (u.1.getD 0)).bind fun a => some (.number a, u.2)) =
        ((read (numeralSign cs).1 p.1 q.1 (u.1.getD 0)).map Json.number).map fun v => (v, u.2)
      cases read (numeralSign cs).1 p.1 q.1 (u.1.getD 0) with
      | some a => rfl
      | none => rfl
  simp only [hparts, Option.bind_eq_some_iff, Option.map_eq_some_iff, Prod.exists, Prod.mk.injEq]
  constructor
  · rintro ⟨w, r₁, hw, f, r₂, hf, e, r₃, he, v', hv, rfl, rfl⟩
    exact ⟨w, r₁, f, r₂, e, hw, hf, he, hv⟩
  · rintro ⟨w, r₁, f, r₂, e, hw, hf, he, hv⟩
    exact ⟨w, r₁, hw, f, r₂, hf, e, r, he, v, hv, rfl, rfl⟩

/-- **A number reads the same in front of more text.** -/
theorem numeral_append {cs rest r : List Char} {v : Json} (hrest : Ends rest)
    (h : numeral read cs = some (v, r)) : numeral read (cs ++ rest) = some (v, r ++ rest) := by
  have hne : cs ≠ [] := by
    rintro rfl
    cases h
  obtain ⟨w, r₁, f, r₂, e, hw, hf, he, hv⟩ := numeral_eq_some_iff.mp h
  rw [numeral_eq_some_iff, numeralSign_append hne]
  exact ⟨w, r₁ ++ rest, f, r₂ ++ rest, e, wholePart_append hrest hw, fractionPart_append hrest hf,
    exponentPart_append hrest he, hv⟩

theorem head_of_numeral {cs r : List Char} {v : Json} (h : numeral read cs = some (v, r)) :
    ∃ c tail, cs = c :: tail ∧ (c = '-' ∨ c.isDigit) := by
  obtain ⟨w, r₁, f, r₂, e, hw, -⟩ := numeral_eq_some_iff.mp h
  cases cs with
  | nil => cases hw
  | cons c tail =>
    refine ⟨c, tail, rfl, ?_⟩
    by_cases hminus : c = '-'
    · exact .inl hminus
    · right
      have hsign : numeralSign (c :: tail) = (false, c :: tail) := by simp [numeralSign, hminus]
      rw [hsign] at hw
      by_cases hzero : c = '0'
      · subst hzero
        rfl
      · have hdigits : someDigits (c :: tail) = some (w, r₁) := by simpa [wholePart, hzero] using hw
        by_contra hc
        rw [someDigits, List.takeWhile_cons_of_neg hc] at hdigits
        cases hdigits

/-! ### Values -/

@[simp] theorem skipSpace_cons {c : Char} (h : isSpace c = false) (cs : List Char) :
    skipSpace (c :: cs) = c :: cs := by
  simp [skipSpace, h]

@[simp] theorem Ends.skipSpace {rest : List Char} (h : Ends rest) : skipSpace rest = rest := by
  obtain ⟨c, tail, rfl, rfl | rfl⟩ := h
  · exact skipSpace_cons rfl tail
  · exact skipSpace_cons rfl tail

/-- A text is read as a value from the front of whatever may follow it in an object, up to
spaces. -/
def Spells (read : NumberReader) (cs : List Char) (v : Json) : Prop :=
  ∀ ⦃fuel : Nat⦄ (depth : Nat) ⦃rest : List Char⦄, cs.length < fuel → Ends rest →
    ∃ r, value read fuel depth (skipSpace (cs ++ rest)) = some (v, r) ∧ skipSpace r = rest

theorem spells_null : Spells read ['n', 'u', 'l', 'l'] .null := by
  rintro (_ | fuel) depth rest hfuel hrest
  · cases hfuel
  · exact ⟨rest, rfl, hrest.skipSpace⟩

theorem spells_true : Spells read ['t', 'r', 'u', 'e'] (.boolean true) := by
  rintro (_ | fuel) depth rest hfuel hrest
  · cases hfuel
  · exact ⟨rest, rfl, hrest.skipSpace⟩

theorem spells_false : Spells read ['f', 'a', 'l', 's', 'e'] (.boolean false) := by
  rintro (_ | fuel) depth rest hfuel hrest
  · cases hfuel
  · exact ⟨rest, rfl, hrest.skipSpace⟩

/-- A text that starts like a number is read as one. -/
theorem value_of_head {c : Char} (hc : c = '-' ∨ c.isDigit) (fuel depth : Nat) (tail : List Char) :
    value read (fuel + 1) depth (c :: tail) = numeral read (c :: tail) := by
  have hother : c ≠ '{' ∧ c ≠ '[' ∧ c ≠ '"' ∧ c ≠ 'n' ∧ c ≠ 't' ∧ c ≠ 'f' := by
    obtain rfl | hdigit := hc
    · decide
    · refine ⟨?_, ?_, ?_, ?_, ?_, ?_⟩ <;> rintro rfl <;> cases hdigit
  simp [value, hother]

/-- **A number is read up to what ends it.** -/
theorem spells_of_numeral {cs r : List Char} {v : Json}
    (h : numeral read (skipSpace cs) = some (v, r)) (hr : skipSpace r = []) :
    Spells read cs v := by
  obtain ⟨c, tail, hcs, hc⟩ := head_of_numeral h
  rintro (_ | fuel) depth rest hfuel hrest
  · cases hfuel
  · have hskip : skipSpace (cs ++ rest) = c :: (tail ++ rest) := by
      have hcs' : cs.dropWhile isSpace = c :: tail := hcs
      simp [skipSpace, List.dropWhile_append, hcs']
    have hr' : r.dropWhile isSpace = [] := hr
    refine ⟨r ++ rest, ?_, ?_⟩
    · rw [hskip, value_of_head hc, ← List.cons_append, ← hcs]
      exact numeral_append hrest h
    · rw [skipSpace, List.dropWhile_append, hr']
      exact hrest.skipSpace

theorem skipSpace_of_numeral {cs r : List Char} {v : Json} (h : numeral read cs = some (v, r)) :
    skipSpace cs = cs := by
  obtain ⟨c, tail, rfl, hc⟩ := head_of_numeral h
  refine skipSpace_cons ?_ tail
  obtain rfl | hdigit := hc
  · rfl
  · simp only [isSpace, Bool.or_eq_false_iff, decide_eq_false_iff_not]
    refine ⟨⟨⟨?_, ?_⟩, ?_⟩, ?_⟩ <;> rintro rfl <;> cases hdigit

/-- Only numbers are read as numbers. -/
theorem numeral_of_value {fuel depth : Nat} {cs r : List Char} {v : Json}
    (h : value read fuel depth cs = some (v, r)) (hv : (∃ i, v = .integer i) ∨ ∃ a, v = .number a) :
    numeral read cs = some (v, r) := by
  cases fuel with
  | zero => cases h
  | succ fuel =>
    unfold value at h
    split at h
    · split at h
      · cases h
      · split at h
        · cases h
          simp at hv
        · obtain ⟨_, -, hend⟩ := Option.map_eq_some_iff.mp h
          cases hend
          simp at hv
    · split at h
      · cases h
      · split at h
        · cases h
          simp at hv
        · obtain ⟨_, -, hend⟩ := Option.map_eq_some_iff.mp h
          cases hend
          simp at hv
    all_goals first
      | exact h
      | obtain ⟨_, -, hend⟩ := Option.map_eq_some_iff.mp h
        cases hend
        simp at hv

/-! ### Strings -/

/-- The characters of a string that stand for themselves. -/
def IsPlain (c : Char) : Prop := c ≠ '"' ∧ c ≠ '\\' ∧ 0x20 ≤ c.toNat

instance (c : Char) : Decidable (IsPlain c) := inferInstanceAs (Decidable (_ ∧ _))

/-- Every character of the text stands for itself. -/
def Plain (cs : List Char) : Prop := ∀ c ∈ cs, IsPlain c

-- by the list: characters are finitely many, so there is a slower way as well
instance (cs : List Char) : Decidable (Plain cs) := List.decidableBAll IsPlain cs

theorem stringBody_of_plain {cs : List Char} (h : Plain cs) (rest : List Char)
    {fuel : Nat} (hfuel : cs.length < fuel) :
    stringBody fuel (cs ++ '"' :: rest) = some (cs, rest) := by
  induction cs generalizing fuel with
  | nil =>
    obtain ⟨fuel, rfl⟩ := Nat.exists_eq_add_one.mpr hfuel
    rfl
  | cons c cs ih =>
    obtain ⟨fuel, rfl⟩ := Nat.exists_eq_add_one.mpr (Nat.zero_lt_of_lt hfuel)
    obtain ⟨⟨hquote, hescape, hcontrol⟩, hcs⟩ := List.forall_mem_cons.mp h
    rw [List.cons_append, stringBody, if_neg hquote, if_neg hescape, if_neg (by omega),
      ih hcs (Nat.lt_of_succ_lt_succ hfuel)]
    rfl

theorem spells_text {cs : List Char} (h : Plain cs) :
    Spells read ('"' :: (cs ++ ['"'])) (.text (String.ofList cs)) := by
  rintro (_ | fuel) depth rest hfuel hrest
  · cases hfuel
  · simp only [List.length_cons, List.length_append] at hfuel
    have hbody : stringBody fuel (cs ++ '"' :: rest) = some (cs, rest) :=
      stringBody_of_plain h rest (by omega)
    refine ⟨rest, ?_, hrest.skipSpace⟩
    rw [List.cons_append, List.append_assoc, List.singleton_append, skipSpace_cons rfl]
    simp only [value, hbody, Option.map_some]

/-! ### Members -/

/-- A member as it is written. -/
def memberChars (name text : List Char) : List Char := '"' :: (name ++ '"' :: ':' :: text)

/-- Members with commas between them. -/
def membersChars : List (List Char × List Char) → List Char
  | [] => []
  | [m] => memberChars m.1 m.2
  | m :: m' :: ms => memberChars m.1 m.2 ++ ',' :: membersChars (m' :: ms)

theorem membersChars_eq_cons {ms : List (List Char × List Char)} (h : ms ≠ []) :
    ∃ tail, membersChars ms = '"' :: tail := by
  obtain _ | ⟨m, _ | ⟨m', ms⟩⟩ := ms
  · exact absurd rfl h
  · exact ⟨_, rfl⟩
  · exact ⟨_, rfl⟩

/-- A member is read as its name and the value of its text. -/
structure MemberSpells (read : NumberReader) (m : List Char × List Char) (w : String × Json) :
    Prop where
  /-- The name is the same. -/
  name : w.1 = String.ofList m.1
  /-- The name has no escapes. -/
  plain : Plain m.1
  /-- The text is read as the value. -/
  spells : Spells read m.2 w.2

/-- What is read behind a member: more members, or the end of the object. -/
def afterMember (read : NumberReader) (fuel depth : Nat) (m : String × Json) :
    List Char → Option (List (String × Json) × List Char)
  | ',' :: rest => (members read fuel depth (skipSpace rest)).map fun (ms, r) => (m :: ms, r)
  | '}' :: rest => some ([m], rest)
  | _ => none

theorem members_of_member {name text : List Char} {v : Json} (hplain : Plain name)
    (hspells : Spells read text v) {fuel : Nat} (depth : Nat) {rest : List Char} (hrest : Ends rest)
    (hfuel : (memberChars name text).length ≤ fuel) :
    members read (fuel + 1) depth (memberChars name text ++ rest) =
      afterMember read fuel depth (String.ofList name, v) rest := by
  simp only [memberChars, List.length_cons, List.length_append] at hfuel
  have hbody : stringBody fuel (name ++ '"' :: ':' :: (text ++ rest)) =
      some (name, ':' :: (text ++ rest)) := stringBody_of_plain hplain _ (by omega)
  have htext : text.length < fuel := by omega
  obtain ⟨r, hvalue, hr⟩ := hspells depth htext hrest
  have hchars : memberChars name text ++ rest = '"' :: (name ++ '"' :: ':' :: (text ++ rest)) := by
    simp [memberChars]
  rw [hchars]
  simp only [members, hbody, Option.bind_eq_bind, Option.bind_some]
  rw [skipSpace_cons rfl]
  simp only [hvalue, Option.bind_some, hr]
  obtain ⟨c, tail, rfl, rfl | rfl⟩ := hrest
  · simp only [afterMember]
    cases members read fuel depth (skipSpace tail) <;> rfl
  · rfl

/-- **Members are read as their values.** -/
theorem members_of_spells {ms : List (List Char × List Char)} {ws : List (String × Json)}
    (h : List.Forall₂ (MemberSpells read) ms ws) (hne : ms ≠ []) {fuel : Nat} (depth : Nat)
    (rest : List Char) (hfuel : (membersChars ms).length < fuel) :
    members read fuel depth (membersChars ms ++ '}' :: rest) = some (ws, rest) := by
  induction h generalizing fuel with
  | nil => exact absurd rfl hne
  | @cons m w ms ws hm hms ih =>
    obtain ⟨fuel, rfl⟩ := Nat.exists_eq_add_one.mpr (Nat.zero_lt_of_lt hfuel)
    obtain ⟨name, v⟩ := w
    obtain ⟨hname, hplain, hspells⟩ := hm
    obtain rfl : name = String.ofList m.1 := hname
    cases ms with
    | nil =>
      cases hms
      exact members_of_member hplain hspells depth (.brace rest) (Nat.le_of_lt_succ hfuel)
    | cons m' ms =>
      simp only [membersChars, List.length_append, List.length_cons] at hfuel
      have hfuel' : (membersChars (m' :: ms)).length < fuel := by omega
      have hrest := ih (List.cons_ne_nil _ _) hfuel'
      have hnext : skipSpace (membersChars (m' :: ms) ++ '}' :: rest) =
          membersChars (m' :: ms) ++ '}' :: rest := by
        obtain ⟨tail, htail⟩ := membersChars_eq_cons (List.cons_ne_nil m' ms)
        rw [htail]
        exact skipSpace_cons rfl _
      rw [membersChars, List.append_assoc, List.cons_append,
        members_of_member hplain hspells depth (.comma _) (by omega)]
      simp only [afterMember, hnext, hrest, Option.map_some]

end

end Reader

open Reader

/-- **An object is read as its members.** -/
theorem ofChars?_object {read : NumberReader} {ms : List (List Char × List Char)}
    {ws : List (String × Json)} (h : List.Forall₂ (MemberSpells read) ms ws) (hne : ms ≠ []) :
    ofChars? read ('{' :: (membersChars ms ++ ['}'])) = some (.object ws) := by
  have hfuel : (membersChars ms).length < 2 * ('{' :: (membersChars ms ++ ['}'])).length + 1 := by
    simp only [List.length_cons, List.length_append]
    omega
  have hmembers := members_of_spells h hne (maxDepth - 1) [] hfuel
  obtain ⟨tail, htail⟩ := membersChars_eq_cons hne
  rw [htail] at hmembers ⊢
  have hvalue : value read (2 * ('{' :: ('"' :: tail ++ ['}'])).length + 2) maxDepth
      ('{' :: ('"' :: tail ++ ['}'])) = some (.object ws, []) := by
    rw [List.cons_append] at hmembers ⊢
    rw [value, if_neg (by decide), skipSpace_cons rfl]
    exact congrArg (Option.map _) hmembers
  rw [ofChars?, skipSpace_cons rfl, hvalue]
  rfl

end TachoPrint.Json
