/-!
# Hexadecimal digits

## Main definitions

* `hexDigit?` — the value of a digit in either case.
* `hexNumber?` — the number that digits spell.
* `hexByte` — the two digits of a byte.

## Main results

* `hexNumber?_hexByte` — the digits of a byte spell it.
-/

namespace TachoPrint

/-- The value of a hexadecimal digit. -/
def hexDigit? (c : Char) : Option Nat :=
  if '0' ≤ c ∧ c ≤ '9' then some (c.toNat - '0'.toNat)
  else if 'a' ≤ c ∧ c ≤ 'f' then some (c.toNat - 'a'.toNat + 10)
  else if 'A' ≤ c ∧ c ≤ 'F' then some (c.toNat - 'A'.toNat + 10)
  else none

/-- The number that hexadecimal digits spell; every character has to be one. -/
def hexNumber? (cs : List Char) : Option Nat :=
  cs.foldlM (fun n c => (hexDigit? c).map (16 * n + ·)) 0

/-- The two digits of a byte, in lower case. -/
def hexByte (n : Nat) : List Char := [Nat.digitChar (n / 16), Nat.digitChar (n % 16)]

theorem hexDigit?_digitChar : ∀ n < 16, hexDigit? (Nat.digitChar n) = some n := by decide

theorem hexNumber?_hexByte {n : Nat} (h : n < 256) : hexNumber? (hexByte n) = some n := by
  have high := hexDigit?_digitChar (n / 16) (by omega)
  have low := hexDigit?_digitChar (n % 16) (by omega)
  simp only [hexNumber?, hexByte, List.foldlM_cons, List.foldlM_nil, high, low, Option.map_some,
    Option.bind_eq_bind, Option.bind_some, Option.pure_def]
  congr 1
  omega

end TachoPrint
