import TachoPrint.Text.Hex

/-!
# Text for a terminal

A terminal does not show every character: some steer it.  A text that quotes a file may
hold any of them, so they are spelled out before it is written.  Tabs and line ends stay
as they are.

## Main definitions

* `isSteering` — the characters that steer a terminal.
* `spelledOut` — a text in which they are spelled out.

## Main results

* `isSteering_of_mem_spelledOut` — nothing in a spelled out text steers a terminal.
* `spelledOut_eq_self` — a text without steering characters stays as it is.
-/

namespace TachoPrint

/-- The code points of the characters that steer a terminal: bell, backspace, form feed,
escape, delete, and the second block of controls. -/
def isSteeringCode (n : Nat) : Bool :=
  n = 0x07 || n = 0x08 || n = 0x0c || n = 0x1b || n = 0x7f || (0x80 ≤ n && n ≤ 0x9f)

/-- True of the characters that steer a terminal. -/
def isSteering (c : Char) : Bool := isSteeringCode c.toNat

theorem lt_of_isSteeringCode {n : Nat} (h : isSteeringCode n = true) : n < 0xa0 := by
  simp only [isSteeringCode, Bool.or_eq_true, Bool.and_eq_true, decide_eq_true_eq] at h
  omega

/-- The spelling of a code point: `\x` and two digits below the delete character and for
it, `\u` and the digits in braces above. -/
def codeSpelling (n : Nat) : List Char :=
  if n < 0x80 then '\\' :: 'x' :: hexByte n
  else '\\' :: 'u' :: '\x7b' :: (hexByte n ++ ['\x7d'])

theorem isSteering_digitChar : ∀ n < 16, isSteering (Nat.digitChar n) = false := by decide

theorem isSteering_of_mem_hexByte {n : Nat} (h : n < 256) {c : Char} (hc : c ∈ hexByte n) :
    isSteering c = false := by
  rw [hexByte, List.mem_cons, List.mem_singleton] at hc
  rcases hc with rfl | rfl
  · exact isSteering_digitChar _ (by omega)
  · exact isSteering_digitChar _ (by omega)

theorem isSteering_of_mem_codeSpelling {n : Nat} (h : n < 256) {c : Char}
    (hc : c ∈ codeSpelling n) : isSteering c = false := by
  rw [codeSpelling] at hc
  split at hc
  · simp only [List.mem_cons] at hc
    rcases hc with rfl | rfl | hc
    · decide
    · decide
    · exact isSteering_of_mem_hexByte h hc
  · simp only [List.mem_cons, List.mem_append, List.not_mem_nil, or_false] at hc
    rcases hc with rfl | rfl | rfl | hc | rfl
    · decide
    · decide
    · decide
    · exact isSteering_of_mem_hexByte h hc
    · decide

/-- A character as it is shown. -/
def shownChar (c : Char) : List Char := if isSteering c then codeSpelling c.toNat else [c]

theorem isSteering_of_mem_shownChar {c d : Char} (h : d ∈ shownChar c) :
    isSteering d = false := by
  rw [shownChar] at h
  split at h
  · next hc =>
    have := lt_of_isSteeringCode hc
    exact isSteering_of_mem_codeSpelling (by omega) h
  · next hc =>
    rw [List.mem_singleton.1 h]
    exact Bool.eq_false_iff.2 hc

/-- A text with the characters that steer a terminal spelled out. -/
def spelledOut (s : String) : String := String.ofList (s.toList.flatMap shownChar)

theorem isSteering_of_mem_spelledOut {s : String} {c : Char} (h : c ∈ (spelledOut s).toList) :
    isSteering c = false := by
  rw [spelledOut, String.toList_ofList, List.mem_flatMap] at h
  obtain ⟨d, -, hd⟩ := h
  exact isSteering_of_mem_shownChar hd

theorem flatMap_shownChar_eq_self {cs : List Char} (h : ∀ c ∈ cs, isSteering c = false) :
    cs.flatMap shownChar = cs := by
  induction cs with
  | nil => rfl
  | cons c cs ih =>
    rw [List.flatMap_cons, ih fun d hd => h d (List.mem_cons_of_mem _ hd), shownChar,
      h c List.mem_cons_self]
    rfl

theorem spelledOut_eq_self {s : String} (h : ∀ c ∈ s.toList, isSteering c = false) :
    spelledOut s = s := by
  rw [spelledOut, flatMap_shownChar_eq_self h, String.ofList_toList]

end TachoPrint
