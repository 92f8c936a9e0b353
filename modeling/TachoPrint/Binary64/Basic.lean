/-!
# Binary64 numbers

All lengths, speeds, times and ratios of the printer are IEEE-754 double
precision numbers.  Every finite one is a whole number of *units* of `2⁻¹⁰⁷⁴`, so
a number is represented here by its sign and its units: exact arithmetic is
arithmetic on natural numbers, and a rounding is a visible step
(`TachoPrint.Binary64.Rounding`).

## Main definitions

* `Binary64.gap` — the distance between neighbouring numbers.
* `Binary64.Representable` — the unit counts that are numbers: below
  `Binary64.ceiling`, with at most 53 significant bits.
* `Binary64` — the numbers, with both zeros, both infinities and one NaN.
* `Binary64.rank` — the place of a number in the usual order; NaN has none.

## Main results

* `Binary64.representable_mul_pow` — 53 bits shifted by at most 2045 places are
  representable.
-/

namespace TachoPrint

namespace Binary64

/-- The distance between the neighbours of a number of `n` units: a number keeps 53
significant bits, and units are never split. -/
def gap (n : Nat) : Nat := Nat.pow 2 (n.log2 - 52)

/-- The exponent of the overflow threshold. -/
def ceilingExp : Nat := 2098

/-- The overflow threshold: no finite number has this many units. -/
def ceiling : Nat := Nat.pow 2 ceilingExp

/-- The first whole number that needs 54 bits. -/
def significandEnd : Nat := Nat.pow 2 53

/-- A unit count is representable when it is below the overflow threshold and
carries at most 53 significant bits. -/
def Representable (n : Nat) : Prop := n < ceiling ∧ gap n ∣ n

instance (n : Nat) : Decidable (Representable n) :=
  inferInstanceAs (Decidable (_ ∧ _))

/-- Neighbours are some units apart. -/
theorem gap_pos (n : Nat) : 0 < gap n := Nat.two_pow_pos _

/-- Powers of two grow with their exponent. -/
theorem two_pow_le {d e : Nat} (h : d ≤ e) : Nat.pow 2 d ≤ Nat.pow 2 e :=
  Nat.pow_le_pow_right (by decide) h

/-- Some number is below the overflow threshold. -/
theorem ceiling_pos : 0 < ceiling := by
  unfold ceiling
  generalize ceilingExp = e
  exact Nat.two_pow_pos e

/-- Powers of two up to the threshold stay within it. -/
theorem pow_le_ceiling {d : Nat} (h : d ≤ ceilingExp) : Nat.pow 2 d ≤ ceiling := by
  unfold ceiling
  revert h
  generalize ceilingExp = e
  exact two_pow_le

/-- No units at all are representable. -/
theorem representable_zero : Representable 0 := ⟨ceiling_pos, Nat.dvd_zero _⟩

/-- The gap divides every multiple of a power of two that is not too far up. -/
theorem gap_dvd_mul_pow {m p : Nat} (h : m ≤ significandEnd) :
    gap (m * Nat.pow 2 p) ∣ m * Nat.pow 2 p := by
  unfold gap
  by_cases hm : m = significandEnd
  · -- the carry into the 54th bit leaves a power of two
    subst hm
    have hpow : significandEnd * Nat.pow 2 p = Nat.pow 2 (53 + p) := (Nat.pow_add 2 53 p).symm
    rw [hpow]
    apply Nat.pow_dvd_pow 2
    have : (Nat.pow 2 (53 + p)).log2 = 53 + p := Nat.log2_two_pow
    omega
  · -- otherwise the gap is at most the shift
    refine Nat.dvd_trans (Nat.pow_dvd_pow 2 ?_) (Nat.dvd_mul_left _ _)
    by_cases h0 : m * Nat.pow 2 p = 0
    · rw [h0, Nat.log2_zero]
      omega
    · have hlt : m * Nat.pow 2 p < Nat.pow 2 (53 + p) := by
        have : significandEnd * Nat.pow 2 p = Nat.pow 2 (53 + p) := (Nat.pow_add 2 53 p).symm
        rw [← this]
        exact Nat.mul_lt_mul_of_pos_right (by omega) (Nat.two_pow_pos p)
      have := (Nat.log2_lt h0).mpr hlt
      omega

/-- Fifty-three bits, shifted by at most 2045 places, are representable. -/
theorem representable_mul_pow {m p : Nat} (hm : m < significandEnd) (hp : p ≤ 2045) :
    Representable (m * Nat.pow 2 p) := by
  refine ⟨?_, gap_dvd_mul_pow (Nat.le_of_lt hm)⟩
  have hlt : m * Nat.pow 2 p < significandEnd * Nat.pow 2 p :=
    Nat.mul_lt_mul_of_pos_right hm (Nat.two_pow_pos p)
  have hpow : significandEnd * Nat.pow 2 p = Nat.pow 2 (53 + p) := (Nat.pow_add 2 53 p).symm
  rw [hpow] at hlt
  exact Nat.lt_of_lt_of_le hlt (pow_le_ceiling (by unfold ceilingExp; omega))

end Binary64

/-- A double precision number. -/
inductive Binary64 where
  /-- Not a number. -/
  | nan : Binary64
  /-- An infinity. -/
  | inf (negative : Bool) : Binary64
  /-- A finite number: its sign, and its magnitude in units of `2⁻¹⁰⁷⁴`. -/
  | finite (negative : Bool) (units : Nat) (representable : Binary64.Representable units) : Binary64
  deriving DecidableEq

namespace Binary64

/-- Zero with the given sign. -/
def zero (negative : Bool) : Binary64 := .finite negative 0 representable_zero

instance : Inhabited Binary64 := ⟨zero false⟩

/-- True of NaN alone. -/
def isNaN : Binary64 → Bool
  | .nan => true
  | _ => false

/-- True of every number that is neither infinite nor NaN. -/
def isFinite : Binary64 → Bool
  | .finite .. => true
  | _ => false

/-- The magnitude: the same number without its sign. -/
def abs : Binary64 → Binary64
  | .nan => .nan
  | .inf _ => .inf false
  | .finite _ n h => .finite false n h

/-- The number with the opposite sign. -/
def neg : Binary64 → Binary64
  | .nan => .nan
  | .inf s => .inf (!s)
  | .finite s n h => .finite (!s) n h

instance : Neg Binary64 := ⟨neg⟩

/-! ### Order

Zeros of both signs are equal, and NaN is neither equal to, below nor above
anything, itself included. -/

/-- A natural number with a sign. -/
def signed (negative : Bool) (n : Nat) : Int := if negative then -n else n

/-- The place of a number on the line: its signed units, with the infinities just
past the overflow threshold.  NaN has no place. -/
def rank : Binary64 → Option Int
  | .nan => none
  | .inf s => some (signed s ceiling)
  | .finite s n _ => some (signed s n)

/-- Both numbers have a place, and the places are related by `r`. -/
def compare (r : Int → Int → Bool) (a b : Binary64) : Bool :=
  match a.rank, b.rank with
  | some i, some j => r i j
  | _, _ => false

/-- Numerical equality: `0` equals `-0`, and NaN differs from itself. -/
def equals (a b : Binary64) : Bool := compare (fun i j => decide (i = j)) a b

/-- Strictly less. -/
def less (a b : Binary64) : Bool := compare (fun i j => decide (i < j)) a b

/-- Less or equal. -/
def atMost (a b : Binary64) : Bool := compare (fun i j => decide (i ≤ j)) a b

/-- Not infinite, not NaN, and above zero. -/
def isPositive (a : Binary64) : Bool := a.isFinite && (zero false).less a

/-- The number held between two bounds.  There is no answer unless the bounds are
in order; NaN stays NaN. -/
def clamp? (a low high : Binary64) : Option Binary64 :=
  if low.atMost high then
    let raised := if a.less low then low else a
    some (if high.less raised then high else raised)
  else
    none

end Binary64

end TachoPrint
