import TachoPrint.Binary64.Arith

/-!
# The order of the numbers

Numbers are compared by their ranks, so what holds of integers holds of all numbers
that have a rank, and that is all but NaN.

## Main definitions

* `Binary64.Between` — a number that is not below one bound and not above the other.

## Main results

* `Binary64.atMost_of_not_less` — what is not below is at least.
* `Binary64.between_clamp?` — a clamped number lies between the bounds.
* `Binary64.clamp?_of_between` — a number between the bounds is not changed.
* `Binary64.clamp?_clamp?` — holding a number between bounds again does not move it.
* `Binary64.isNaN_add` — adding a finite number to a number gives a number.
-/

namespace TachoPrint.Binary64

variable {a b low high : Binary64}

/-! ### Ranks -/

theorem exists_rank (h : a.isNaN = false) : ∃ i, a.rank = some i := by
  cases a with
  | nan => cases h
  | inf s => exact ⟨_, rfl⟩
  | finite s n hn => exact ⟨_, rfl⟩

@[grind →] theorem isNaN_of_rank {i : Int} (h : a.rank = some i) : a.isNaN = false := by
  cases a with
  | nan => cases h
  | inf s => rfl
  | finite s n hn => rfl

@[grind →] theorem isNaN_of_isFinite (h : a.isFinite = true) : a.isNaN = false := by
  cases a with
  | nan => cases h
  | inf s => rfl
  | finite s n hn => rfl

theorem compare_of_rank {r : Int → Int → Bool} {i j : Int} (ha : a.rank = some i)
    (hb : b.rank = some j) : compare r a b = r i j := by
  unfold compare
  rw [ha, hb]

/-- Only numbers with a rank compare. -/
theorem exists_of_compare {r : Int → Int → Bool} (h : compare r a b = true) :
    ∃ i j, a.rank = some i ∧ b.rank = some j ∧ r i j = true := by
  unfold compare at h
  cases ha : a.rank with
  | none =>
    rw [ha] at h
    cases h
  | some i =>
    cases hb : b.rank with
    | none =>
      rw [ha, hb] at h
      cases h
    | some j =>
      rw [ha, hb] at h
      exact ⟨i, j, rfl, rfl, h⟩

theorem atMost_iff :
    a.atMost b = true ↔ ∃ i j, a.rank = some i ∧ b.rank = some j ∧ i ≤ j := by
  constructor
  · intro h
    obtain ⟨i, j, ha, hb, hij⟩ := exists_of_compare h
    exact ⟨i, j, ha, hb, of_decide_eq_true hij⟩
  · rintro ⟨i, j, ha, hb, hij⟩
    unfold atMost
    rw [compare_of_rank ha hb]
    exact decide_eq_true hij

theorem less_iff : a.less b = true ↔ ∃ i j, a.rank = some i ∧ b.rank = some j ∧ i < j := by
  constructor
  · intro h
    obtain ⟨i, j, ha, hb, hij⟩ := exists_of_compare h
    exact ⟨i, j, ha, hb, of_decide_eq_true hij⟩
  · rintro ⟨i, j, ha, hb, hij⟩
    unfold less
    rw [compare_of_rank ha hb]
    exact decide_eq_true hij

/-- Next to a number, equal is what has the same rank. -/
theorem equals_iff (hb : b.isNaN = false) : a.equals b = true ↔ a.rank = b.rank := by
  obtain ⟨j, hj⟩ := exists_rank hb
  rw [equals, compare, hj]
  cases ha : a.rank with
  | none => simp
  | some i => simp

theorem equals_comm (a b : Binary64) : a.equals b = b.equals a := by
  unfold equals compare
  cases a.rank with
  | none => cases b.rank <;> rfl
  | some i =>
    cases b.rank with
    | none => rfl
    | some j => exact decide_eq_decide.mpr eq_comm

/-- What equals something is a number. -/
theorem isNaN_of_equals (h : a.equals b = true) : b.isNaN = false := by
  obtain ⟨i, j, -, hj, -⟩ := exists_of_compare h
  exact isNaN_of_rank hj

@[simp] theorem equals_self (ha : a.isNaN = false) : a.equals a = true := (equals_iff ha).mpr rfl

@[simp] theorem atMost_refl (ha : a.isNaN = false) : a.atMost a = true := by
  obtain ⟨i, hi⟩ := exists_rank ha
  exact atMost_iff.mpr ⟨i, i, hi, hi, Int.le_refl i⟩

theorem atMost_of_not_less (ha : a.isNaN = false) (hb : b.isNaN = false)
    (h : a.less b = false) : b.atMost a = true := by
  obtain ⟨i, hi⟩ := exists_rank ha
  obtain ⟨j, hj⟩ := exists_rank hb
  refine atMost_iff.mpr ⟨j, i, hj, hi, Int.not_lt.mp ?_⟩
  intro hlt
  rw [less_iff.mpr ⟨i, j, hi, hj, hlt⟩] at h
  cases h

theorem less_of_not_atMost (ha : a.isNaN = false) (hb : b.isNaN = false)
    (h : a.atMost b = false) : b.less a = true := by
  obtain ⟨i, hi⟩ := exists_rank ha
  obtain ⟨j, hj⟩ := exists_rank hb
  refine less_iff.mpr ⟨j, i, hj, hi, Int.not_le.mp ?_⟩
  intro hle
  rw [atMost_iff.mpr ⟨i, j, hi, hj, hle⟩] at h
  cases h

theorem atMost_of_less (h : a.less b = true) : a.atMost b = true := by
  obtain ⟨i, j, hi, hj, hij⟩ := less_iff.mp h
  exact atMost_iff.mpr ⟨i, j, hi, hj, Int.le_of_lt hij⟩

theorem atMost_trans {c : Binary64} (hab : a.atMost b = true) (hbc : b.atMost c = true) :
    a.atMost c = true := by
  obtain ⟨i, j, hi, hj, hij⟩ := atMost_iff.mp hab
  obtain ⟨j', k, hj', hk, hjk⟩ := atMost_iff.mp hbc
  obtain rfl := Option.some.inj (hj.symm.trans hj')
  exact atMost_iff.mpr ⟨i, k, hi, hk, Int.le_trans hij hjk⟩

theorem not_atMost_of_less (h : a.less b = true) : b.atMost a = false := by
  obtain ⟨i, j, hi, hj, hij⟩ := less_iff.mp h
  rw [atMost, compare_of_rank hj hi]
  exact decide_eq_false (Int.not_le.mpr hij)

theorem not_less_of_atMost (h : a.atMost b = true) : b.less a = false := by
  obtain ⟨i, j, hi, hj, hij⟩ := atMost_iff.mp h
  rw [less, compare_of_rank hj hi]
  exact decide_eq_false (Int.not_lt.mpr hij)

/-! ### Signs -/

theorem rank_neg {i : Int} (h : a.rank = some i) : (-a).rank = some (-i) := by
  have hsigned : ∀ (s : Bool) (n : Nat), signed (!s) n = -signed s n := by
    intro s n
    cases s <;> simp [signed]
  change (neg a).rank = _
  cases a with
  | nan => cases h
  | inf s =>
    obtain rfl := Option.some.inj h
    exact congrArg some (hsigned s ceiling)
  | finite s n hn =>
    obtain rfl := Option.some.inj h
    exact congrArg some (hsigned s n)

@[simp] theorem isFinite_neg (h : a.isFinite = true) : (-a).isFinite = true := by
  cases a with
  | nan => cases h
  | inf s => cases h
  | finite s n hn => rfl

@[grind →] theorem isFinite_of_isPositive (h : a.isPositive = true) : a.isFinite = true :=
  (Bool.and_eq_true_iff.mp h).1

/-- A positive number has a positive rank. -/
theorem exists_rank_of_isPositive (h : a.isPositive = true) : ∃ i, a.rank = some i ∧ 0 < i := by
  obtain ⟨i, j, hi, hj, hij⟩ := less_iff.mp (Bool.and_eq_true_iff.mp h).2
  obtain rfl : 0 = i := Option.some.inj hi
  exact ⟨j, hj, hij⟩

/-- A positive number is its own magnitude. -/
@[simp] theorem abs_of_isPositive (h : a.isPositive = true) : a.abs = a := by
  obtain ⟨i, hi, hpos⟩ := exists_rank_of_isPositive h
  cases a with
  | nan => cases hi
  | inf s => cases isFinite_of_isPositive h
  | finite s n hn =>
    cases s with
    | false => rfl
    | true =>
      obtain rfl : -(n : Int) = i := Option.some.inj hi
      omega

/-- A number is in order with its opposite, the positive one of the two above. -/
@[simp] theorem neg_abs_atMost_abs (h : a.isNaN = false) : (-a.abs).atMost a.abs = true := by
  have hrank : ∃ n : Nat, a.abs.rank = some n := by
    cases a with
    | nan => cases h
    | inf s => exact ⟨ceiling, rfl⟩
    | finite s n hn => exact ⟨n, rfl⟩
  obtain ⟨n, hn⟩ := hrank
  exact atMost_iff.mpr ⟨-n, n, rank_neg hn, hn, by omega⟩

@[simp] theorem rank_zero : (0 : Binary64).rank = some 0 := by decide +kernel

@[simp] theorem isFinite_zero : (0 : Binary64).isFinite = true := by decide +kernel

/-! ### Between two bounds -/

/-- A number that is not below the one bound and not above the other. -/
def Between (a low high : Binary64) : Prop :=
  a.isNaN = false ∧ low.atMost a = true ∧ a.atMost high = true

instance (a low high : Binary64) : Decidable (a.Between low high) :=
  inferInstanceAs (Decidable (_ ∧ _))

/-- **A clamped number lies between the bounds.** -/
@[grind →] theorem between_clamp? (ha : a.isNaN = false) (h : a.clamp? low high = some b) :
    b.Between low high := by
  unfold clamp? at h
  split at h
  · next hle =>
    obtain ⟨i, j, hi, hj, -⟩ := atMost_iff.mp hle
    have hlow := isNaN_of_rank hi
    have hhigh := isNaN_of_rank hj
    -- once it is raised the number is at least the lower bound
    have hraised : (if a.less low then low else a).isNaN = false ∧
        low.atMost (if a.less low then low else a) = true := by
      split
      · exact ⟨hlow, atMost_refl hlow⟩
      · next hl => exact ⟨ha, atMost_of_not_less ha hlow ((Bool.not_eq_true _).mp hl)⟩
    generalize (if a.less low then low else a) = raised at h hraised
    obtain rfl := Option.some.inj h
    split
    · exact ⟨hhigh, hle, atMost_refl hhigh⟩
    · next hh =>
      exact ⟨hraised.1, hraised.2,
        atMost_of_not_less hhigh hraised.1 ((Bool.not_eq_true _).mp hh)⟩
  · cases h

/-- Zero lies between a positive number and its opposite. -/
theorem between_zero (h : high.isPositive = true) : (0 : Binary64).Between (-high) high := by
  -- all that matters of zero is its rank
  have h0 := rank_zero
  generalize (0 : Binary64) = z at h0 ⊢
  obtain ⟨i, hi, hpos⟩ := exists_rank_of_isPositive h
  exact ⟨isNaN_of_rank h0, atMost_iff.mpr ⟨-i, 0, rank_neg hi, h0, by omega⟩,
    atMost_iff.mpr ⟨0, i, h0, hi, by omega⟩⟩

@[grind →] theorem rank_lt_ceiling (h : a.isFinite = true) {i : Int} (hi : a.rank = some i) :
    -ceiling < i ∧ i < ceiling := by
  cases a with
  | nan => cases h
  | inf s => cases h
  | finite s n hn =>
    obtain rfl := Option.some.inj hi
    have hlt : n < ceiling := hn.1
    cases s <;> simp only [signed, Bool.false_eq_true, if_true, if_false] <;> omega

/-- What lies between finite bounds is finite. -/
@[grind →] theorem isFinite_of_between (hlow : low.isFinite = true) (hhigh : high.isFinite = true)
    (h : a.Between low high) : a.isFinite = true := by
  obtain ⟨hnan, hle, hge⟩ := h
  obtain ⟨i, j, hi, hj, hij⟩ := atMost_iff.mp hle
  obtain ⟨j', k, hj', hk, hjk⟩ := atMost_iff.mp hge
  obtain rfl : j = j' := Option.some.inj (hj.symm.trans hj')
  have hlow := (rank_lt_ceiling hlow hi).1
  have hhigh := (rank_lt_ceiling hhigh hk).2
  cases a with
  | nan => cases hnan
  | inf s =>
    obtain rfl := Option.some.inj hj
    cases s <;> simp only [signed, Bool.false_eq_true, if_true, if_false] at hij hjk <;> omega
  | finite s n hn => rfl

/-- A number is positive if it is above zero and not above a finite number. -/
theorem isPositive_of_not_atMost (ha : a.isNaN = false) (hhigh : high.isFinite = true)
    (hzero : a.atMost 0 = false) (hmost : high.less a = false) : a.isPositive = true := by
  have hless := less_of_not_atMost ha (isNaN_of_isFinite isFinite_zero) hzero
  obtain ⟨i, j, hi, hj, hij⟩ := less_iff.mp hless
  have hbetween : a.Between 0 high := ⟨ha, atMost_iff.mpr ⟨i, j, hi, hj, Int.le_of_lt hij⟩,
    atMost_of_not_less (isNaN_of_isFinite hhigh) ha hmost⟩
  rw [isPositive, isFinite_of_between isFinite_zero hhigh hbetween]
  obtain rfl := Option.some.inj (hi.symm.trans rank_zero)
  exact less_iff.mpr ⟨0, j, rfl, hj, hij⟩

/-- A number between the bounds is not changed by holding it there. -/
@[simp] theorem clamp?_of_between (h : a.Between low high) : a.clamp? low high = some a := by
  obtain ⟨-, hle, hge⟩ := h
  obtain ⟨i, j, hi, hj, hij⟩ := atMost_iff.mp hle
  obtain ⟨j', k, hj', hk, hjk⟩ := atMost_iff.mp hge
  obtain rfl : j = j' := Option.some.inj (hj.symm.trans hj')
  have hlow : a.less low = false := by
    rw [less, compare_of_rank hj hi]
    exact decide_eq_false (by omega)
  have hhigh : high.less a = false := by
    rw [less, compare_of_rank hk hj]
    exact decide_eq_false (by omega)
  rw [clamp?, if_pos (atMost_iff.mpr ⟨i, k, hi, hk, by omega⟩), hlow]
  simp only [Bool.false_eq_true, if_false, hhigh]

/-- **What is held between bounds is not moved by holding it again**, also if it is not a
number. -/
theorem clamp?_clamp? (h : a.clamp? low high = some b) : b.clamp? low high = some b := by
  cases ha : a.isNaN with
  | false => exact clamp?_of_between (between_clamp? ha h)
  | true =>
    -- what is not a number is beyond neither bound
    have hkept : b = a := by
      cases a with
      | nan =>
        have hlow : nan.less low = false := rfl
        have hhigh : high.less nan = false := by cases high <;> rfl
        unfold clamp? at h
        split at h
        · dsimp only at h
          rw [hlow, if_neg Bool.false_ne_true, hhigh, if_neg Bool.false_ne_true] at h
          exact (Option.some.inj h).symm
        · cases h
      | inf s => cases ha
      | finite s n hn => cases ha
    rwa [hkept] at h ⊢

theorem between_congr (h : a.rank = b.rank) : a.Between low high ↔ b.Between low high := by
  have hnan : a.isNaN = b.isNaN := by
    cases a <;> cases b <;> first | rfl | cases h
  rw [Between, Between, hnan]
  simp only [atMost, compare, h]

/-! ### Sums -/

@[simp] theorem isNaN_ofUnits (s : Bool) (m n : Nat) : (ofUnits s m n).isNaN = false := by
  unfold ofUnits
  split <;> rfl

/-- **Adding a finite number to a number gives a number**, an infinity perhaps. -/
@[grind =] theorem isNaN_add (ha : a.isNaN = false) (hb : b.isFinite = true) :
    (a + b).isNaN = false := by
  change (add a b).isNaN = false
  cases b with
  | nan => cases hb
  | inf t => cases hb
  | finite t n hn =>
    cases a with
    | nan => cases ha
    | inf s => rfl
    | finite s m hm =>
      simp only [add]
      split
      · rfl
      · exact isNaN_ofUnits _ _ _

end TachoPrint.Binary64
