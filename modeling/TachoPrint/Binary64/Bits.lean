import TachoPrint.Binary64.Basic

/-!
# The 64-bit interchange form

One sign bit, eleven exponent bits, fifty-two fraction bits.

## Main definitions

* `Binary64.toBits`, `Binary64.ofBits` — to and from the interchange form.
-/

namespace TachoPrint.Binary64

/-- The first exponent, and the number of fractions under one exponent. -/
def fractionEnd : Nat := Nat.pow 2 52

/-- The bit of the sign. -/
def signBit : Nat := Nat.pow 2 63

/-- The exponent and fraction bits of `n` units.  Below the first exponent the units
are the fraction. -/
def magnitudeBits (n : Nat) : Nat :=
  if n < fractionEnd then n
  else (n.log2 - 52 + 1) * fractionEnd + (n / gap n - fractionEnd)

/-- The interchange form of a number; the one of NaN is quiet and positive. -/
def toBits : Binary64 → UInt64
  | .nan => 0x7ff8000000000000
  | .inf s => if s then 0xfff0000000000000 else 0x7ff0000000000000
  | .finite s n _ => UInt64.ofNat (magnitudeBits n + if s then signBit else 0)

/-- The number with the given interchange form.  Every form with a full exponent
and a fraction is NaN. -/
def ofBits (bits : UInt64) : Binary64 :=
  let negative := decide (signBit ≤ bits.toNat)
  let exponent := (bits.toNat / fractionEnd) % 2048
  let fraction := bits.toNat % fractionEnd
  have hf : fraction < fractionEnd := Nat.mod_lt _ (by decide)
  have he : exponent < 2048 := Nat.mod_lt _ (by decide)
  have hend : fractionEnd + fractionEnd = significandEnd := by decide
  if h : exponent = 2047 then
    if fraction = 0 then .inf negative else .nan
  else if exponent = 0 then
    .finite negative (fraction * Nat.pow 2 0) (representable_mul_pow (by omega) (by omega))
  else
    .finite negative ((fractionEnd + fraction) * Nat.pow 2 (exponent - 1))
      (representable_mul_pow (by omega) (by omega))

end TachoPrint.Binary64
