import TachoPrint.Binary64.Basic

/-!
# Rounding to the nearest number

A magnitude that is the quotient of two natural numbers is rounded to the nearest
representable one, and a magnitude halfway between two goes to the one whose last
bit is zero.

## Main definitions

* `Binary64.nearestEven` — the whole number nearest to a quotient.
* `Binary64.nearestUnits` — the nearest count of units with 53 significant bits.
* `Binary64.ofUnits` — the nearest number, infinite past the overflow threshold.
* `Binary64.sqrtUnits`, `Binary64.ofSqrt` — the same for a square root.

## Main results

* `Binary64.gap_dvd_nearestUnits` and `Binary64.gap_dvd_sqrtUnits` — rounded counts
  have at most 53 significant bits.
-/

namespace TachoPrint.Binary64

/-- The whole number nearest to `a / b`, a half going to the even neighbour. -/
def nearestEven (a b : Nat) : Nat :=
  let q := a / b
  let r := a % b
  if 2 * r < b then q else if b < 2 * r then q + 1 else q + q % 2

/-- Rounding goes to one of the two whole neighbours. -/
theorem nearestEven_le (a b : Nat) : nearestEven a b ≤ a / b + 1 := by
  simp only [nearestEven]
  split
  · omega
  · split <;> omega

/-- The nearest count of units to `a / b` with at most 53 significant bits: the
nearest multiple of the gap. -/
def nearestUnits (a b : Nat) : Nat :=
  let g := gap (a / b)
  nearestEven a (b * g) * g

/-- A number counted in gaps has at most 53 bits. -/
theorem div_gap_lt (n : Nat) : n / gap n < significandEnd := by
  rw [Nat.div_lt_iff_lt_mul (gap_pos n)]
  have hpow : significandEnd * gap n = Nat.pow 2 (53 + (n.log2 - 52)) :=
    (Nat.pow_add 2 53 _).symm
  rw [hpow]
  exact Nat.lt_of_lt_of_le Nat.lt_log2_self (two_pow_le (by omega))

/-- Rounded units have at most 53 significant bits. -/
theorem gap_dvd_nearestUnits (a b : Nat) : gap (nearestUnits a b) ∣ nearestUnits a b := by
  refine gap_dvd_mul_pow (Nat.le_trans (nearestEven_le _ _) ?_)
  rw [← Nat.div_div_eq_div_mul]
  exact div_gap_lt (a / b)

/-- The number nearest to `a / b` units, with the given sign.  From the overflow
threshold on that is an infinity. -/
def ofUnits (negative : Bool) (a b : Nat) : Binary64 :=
  if h : nearestUnits a b < ceiling then
    .finite negative (nearestUnits a b) ⟨h, gap_dvd_nearestUnits a b⟩
  else
    .inf negative

/-! ### Square roots -/

/-- The whole part of the square root of `n`, found two bits at a time; `steps`
bounds the number of bit pairs. -/
def sqrtFloorIn : (steps : Nat) → (n : Nat) → Nat
  | 0, _ => 0
  | steps + 1, n =>
      let r := 2 * sqrtFloorIn steps (n / 4)
      if (r + 1) * (r + 1) ≤ n then r + 1 else r

/-- The whole part of the square root of `n`. -/
def sqrtFloor (n : Nat) : Nat := sqrtFloorIn (n.log2 / 2 + 1) n

/-- The whole number nearest to the square root of `n`, counted in `g`; a half goes to
the even neighbour. -/
def nearestSqrt (n g : Nat) : Nat :=
  let q := sqrtFloor (n / (g * g))
  let half := (2 * q + 1) * (2 * q + 1) * (g * g)
  if 4 * n < half then q else if half < 4 * n then q + 1 else q + q % 2

/-- The distance between neighbours of the square root of `n`, which has half as many
bits as `n`. -/
def sqrtGap (n : Nat) : Nat := Nat.pow 2 (n.log2 / 2 - 52)

/-- Neighbouring roots are some units apart. -/
theorem sqrtGap_pos (n : Nat) : 0 < sqrtGap n := Nat.two_pow_pos _

/-- The nearest count of units to the square root of `n` with at most 53
significant bits. -/
def sqrtUnits (n : Nat) : Nat := nearestSqrt n (sqrtGap n) * sqrtGap n

/-- The square of the whole square root does not exceed the number. -/
theorem sqrtFloorIn_sq_le (steps n : Nat) :
    sqrtFloorIn steps n * sqrtFloorIn steps n ≤ n := by
  induction steps generalizing n with
  | zero => simp [sqrtFloorIn]
  | succ steps ih =>
    simp only [sqrtFloorIn]
    split
    · assumption
    · have h := ih (n / 4)
      have h4 : 2 * sqrtFloorIn steps (n / 4) * (2 * sqrtFloorIn steps (n / 4))
          = 4 * (sqrtFloorIn steps (n / 4) * sqrtFloorIn steps (n / 4)) := by
        simp only [Nat.mul_comm, Nat.mul_left_comm]
        omega
      omega

/-- Rounding a square root goes to one of the two whole neighbours. -/
theorem nearestSqrt_le (n g : Nat) : nearestSqrt n g ≤ sqrtFloor (n / (g * g)) + 1 := by
  simp only [nearestSqrt]
  split
  · omega
  · split <;> omega

/-- A square root counted in its gap has at most 53 bits. -/
theorem sqrtFloor_lt (n : Nat) : sqrtFloor (n / (sqrtGap n * sqrtGap n)) < significandEnd := by
  have hlt : n / (sqrtGap n * sqrtGap n) < Nat.pow 2 106 := by
    rw [Nat.div_lt_iff_lt_mul (Nat.mul_pos (sqrtGap_pos n) (sqrtGap_pos n))]
    have hg : sqrtGap n * sqrtGap n = Nat.pow 2 ((n.log2 / 2 - 52) + (n.log2 / 2 - 52)) :=
      (Nat.pow_add 2 _ _).symm
    have hpow : ∀ e : Nat, Nat.pow 2 106 * Nat.pow 2 e = Nat.pow 2 (106 + e) := fun e =>
      (Nat.pow_add 2 106 e).symm
    rw [hg, hpow]
    exact Nat.lt_of_lt_of_le Nat.lt_log2_self (two_pow_le (by omega))
  apply Nat.lt_of_not_le
  intro hge
  have hsq := sqrtFloorIn_sq_le ((n / (sqrtGap n * sqrtGap n)).log2 / 2 + 1)
    (n / (sqrtGap n * sqrtGap n))
  have hmul := Nat.mul_le_mul hge hge
  have h106 : significandEnd * significandEnd = Nat.pow 2 106 := by decide
  unfold sqrtFloor at hmul
  omega

/-- Rounded roots have at most 53 significant bits. -/
theorem gap_dvd_sqrtUnits (n : Nat) : gap (sqrtUnits n) ∣ sqrtUnits n :=
  gap_dvd_mul_pow (Nat.le_trans (nearestSqrt_le _ _) (sqrtFloor_lt n))

/-- The number nearest to the square root of `n` units squared. -/
def ofSqrt (n : Nat) : Binary64 :=
  if h : sqrtUnits n < ceiling then
    .finite false (sqrtUnits n) ⟨h, gap_dvd_sqrtUnits n⟩
  else
    .inf false

end TachoPrint.Binary64
