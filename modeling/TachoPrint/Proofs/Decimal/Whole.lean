import Mathlib.Data.List.Induction
import TachoPrint.Proofs.Decimal.Layout

/-!
# Whole numbers in a text

A whole number may be written with a plus sign and with zeros in front.  Nothing else that
is read as the number differs from the way it is printed.

## Main definitions

* `Decimal.SpellsWhole` — a text spells a whole number.

## Main results

* `Decimal.eq_replicate_append` — digits are zeros in front of a printed number.
* `wordNumber?_eq_some_iff` — **the number that a text is read as is the one that it
  spells.**
-/

namespace TachoPrint

namespace Decimal

/-- The text spells the number: its digits, perhaps behind zeros, perhaps behind a plus
sign. -/
inductive SpellsWhole (n : Nat) : List Char → Prop
  /-- There is no sign. -/
  | plain (zeros : Nat) : SpellsWhole n (List.replicate zeros '0' ++ Nat.toDigits 10 n)
  /-- There is a plus sign. -/
  | signed (zeros : Nat) : SpellsWhole n ('+' :: (List.replicate zeros '0' ++ Nat.toDigits 10 n))

/-! ### Digits -/

@[simp] theorem ofDigits_concat (cs : List Char) (c : Char) :
    ofDigits (cs ++ [c]) = 10 * ofDigits cs + (c.toNat - '0'.toNat) := by
  rw [ofDigits, List.foldl_append]
  rfl

@[simp] theorem ofDigits_replicate_append (zeros : Nat) (cs : List Char) :
    ofDigits (List.replicate zeros '0' ++ cs) = ofDigits cs := by
  induction zeros with
  | zero => rfl
  | succ zeros ih => rw [List.replicate_succ, List.cons_append, ← ih]; rfl

/-- A digit is printed as itself. -/
theorem toDigits_of_isDigit {c : Char} (hc : c.isDigit) :
    c.toNat - '0'.toNat < 10 ∧ Nat.toDigits 10 (c.toNat - '0'.toNat) = [c] := by
  rw [Char.isDigit_iff_toNat] at hc
  have hzero : '0'.toNat = 48 := rfl
  have hnine : '9'.toNat = 57 := rfl
  have hlt : c.toNat - '0'.toNat < 10 := by omega
  refine ⟨hlt, ?_⟩
  rw [Nat.toDigits_of_lt_base hlt, List.singleton_inj, ← Char.toNat_inj,
    Nat.toNat_digitChar_of_lt_ten hlt]
  omega

/-- **Digits are zeros in front of the number that they spell.** -/
theorem eq_replicate_append {cs : List Char} (hne : cs ≠ []) (h : ∀ c ∈ cs, c.isDigit) :
    ∃ zeros, cs = List.replicate zeros '0' ++ Nat.toDigits 10 (ofDigits cs) := by
  induction cs using List.reverseRecOn with
  | nil => exact absurd rfl hne
  | append_singleton cs c ih =>
    obtain ⟨hcs, hc⟩ := List.forall_mem_append.mp h
    obtain ⟨hlt, hdigit⟩ := toDigits_of_isDigit (hc c (List.mem_singleton_self c))
    rw [ofDigits_concat]
    by_cases hempty : cs = []
    · subst hempty
      refine ⟨0, ?_⟩
      change [c] = Nat.toDigits 10 (0 + (c.toNat - '0'.toNat))
      rw [Nat.zero_add, hdigit]
    · obtain ⟨zeros, hzeros⟩ := ih hempty hcs
      rcases Nat.eq_zero_or_pos (ofDigits cs) with hzero | hpos
      · -- so far there are zeros only, and one of them was printed
        rw [hzero] at hzeros ⊢
        refine ⟨zeros + 1, ?_⟩
        rw [Nat.mul_zero, Nat.zero_add, hdigit, List.replicate_succ', hzeros]
        rfl
      · refine ⟨zeros, ?_⟩
        rw [← Nat.toDigits_append_toDigits (by decide) hpos hlt, hdigit, ← List.append_assoc,
          ← hzeros]

theorem isDigit_of_mem_replicate_append {zeros n : Nat} {c : Char}
    (hc : c ∈ List.replicate zeros '0' ++ Nat.toDigits 10 n) : c.isDigit := by
  rcases List.mem_append.mp hc with hc | hc
  · exact isDigit_of_mem_replicate hc
  · exact isDigit_of_mem_digitChars hc

end Decimal

/-! ### The number of a text -/

open Decimal

theorem wordNumber?_of_not_plus {cs : List Char} (h : ∀ ds, cs ≠ '+' :: ds) :
    wordNumber? cs =
      if cs ≠ [] ∧ cs.all Char.isDigit ∧ ofDigits cs < 4294967296 then some (ofDigits cs)
      else none := by
  simp only [wordNumber?]

theorem readDigits_eq_some_iff {ds : List Char} {n : Nat} :
    (if ds ≠ [] ∧ ds.all Char.isDigit ∧ ofDigits ds < 4294967296 then some (ofDigits ds)
      else none) = some n ↔
      n < 4294967296 ∧ ∃ zeros, ds = List.replicate zeros '0' ++ Nat.toDigits 10 n := by
  rw [Option.ite_none_right_eq_some, Option.some.injEq]
  constructor
  · rintro ⟨⟨hne, hall, hlt⟩, rfl⟩
    exact ⟨hlt, eq_replicate_append hne (List.all_eq_true.mp hall)⟩
  · rintro ⟨hlt, zeros, rfl⟩
    have hvalue : ofDigits (List.replicate zeros '0' ++ Nat.toDigits 10 n) = n := by
      simp
    refine ⟨⟨?_, List.all_eq_true.mpr fun c hc => isDigit_of_mem_replicate_append hc, ?_⟩, hvalue⟩
    · simp
    · rwa [hvalue]

/-- **The number that a text is read as is the one that it spells**, if that fits in 32
bits. -/
theorem wordNumber?_eq_some_iff {cs : List Char} {n : Nat} :
    wordNumber? cs = some n ↔ n < 4294967296 ∧ SpellsWhole n cs := by
  constructor
  · intro h
    by_cases hplus : ∃ ds, cs = '+' :: ds
    · obtain ⟨ds, rfl⟩ := hplus
      obtain ⟨hlt, zeros, rfl⟩ := readDigits_eq_some_iff.mp h
      exact ⟨hlt, .signed zeros⟩
    · rw [wordNumber?_of_not_plus (not_exists.mp hplus)] at h
      obtain ⟨hlt, zeros, rfl⟩ := readDigits_eq_some_iff.mp h
      exact ⟨hlt, .plain zeros⟩
  · rintro ⟨hlt, zeros | zeros⟩
    · rw [wordNumber?_of_not_plus, readDigits_eq_some_iff]
      · exact ⟨hlt, zeros, rfl⟩
      · -- a plus sign is no digit
        intro ds hplus
        have hmem : '+' ∈ List.replicate zeros '0' ++ Nat.toDigits 10 n := by simp [hplus]
        exact absurd (isDigit_of_mem_replicate_append hmem) (by decide)
    · exact readDigits_eq_some_iff.mpr ⟨hlt, zeros, rfl⟩

end TachoPrint
