import TachoPrint.Decimal.Layout

/-!
# The digits of written numbers

A number that is set out with a point is a whole part and a fraction.  The whole part has no
zero in front, because the shortest numeral of a number that is not zero has a digit that is
not zero.

## Main definitions

* `Decimal.IsWhole`, `Decimal.IsFraction` — the digits in front of a point and behind it.
* `Decimal.IsNumeral` — the characters of a numeral.

## Main results

* `Binary64.exponent_of_digits_eq_zero` — a numeral without digits has no exponent either.
* `Decimal.exists_parts_of_plain` — **digits set out with a point** are two parts.
* `Decimal.isNumeral_of_mem_chars` — **what a numeral is written with.**
-/

namespace TachoPrint

/-! ### Whole numbers -/

namespace Decimal

/-- A positive number has no zero in front. -/
theorem head_toDigits_ne_zero {n : Nat} (h : 0 < n) :
    ∃ c tail, Nat.toDigits 10 n = c :: tail ∧ c ≠ '0' := by
  induction n using Nat.strongRecOn with
  | ind n ih =>
    by_cases hlt : n < 10
    · have hdigit : ∀ d < 10, 0 < d → Nat.digitChar d ≠ '0' := by decide
      exact ⟨Nat.digitChar n, [], Nat.toDigits_of_lt_base hlt, hdigit n hlt h⟩
    · obtain ⟨c, tail, htail, hc⟩ := ih (n / 10) (by omega) (by omega)
      refine ⟨c, tail ++ [Nat.digitChar (n % 10)], ?_, hc⟩
      rw [Nat.toDigits_of_base_le (by decide) (by omega), htail, List.cons_append]

@[grind →] theorem isDigit_of_mem_digitChars {n : Nat} {c : Char} (hc : c ∈ digitChars n) :
    c.isDigit = true :=
  Nat.isDigit_of_mem_toDigits (by decide) (by decide) hc

theorem digitChars_ne_nil (n : Nat) : digitChars n ≠ [] := Nat.toDigits_ne_nil

@[simp] theorem ofDigits_toDigits (n : Nat) : ofDigits (Nat.toDigits 10 n) = n :=
  Nat.ofDigitChars_toDigits (by decide) (by decide)

end Decimal

/-! ### The shortest numeral -/

namespace Interval

/-- The gap is at most the number, so that the interval of a positive number stays clear of
zero. -/
theorem low_ofUnits_pos {n : Nat} (hn : 0 < n) : 0 < (ofUnits n).low := by
  have hgap : Binary64.gap n ≤ n :=
    Nat.le_trans (Nat.pow_le_pow_right (by decide) (Nat.sub_le _ _)) (Nat.log2_self_le (by omega))
  unfold ofUnits
  dsimp only
  split <;> omega

theorem pos_of_holds {i : Interval} (hi : 0 < i.low) {scale n : Nat} (hscale : 0 < scale)
    (h : i.holds scale n = true) : 0 < n := by
  have hlow := Nat.mul_pos hi hscale
  unfold holds at h
  split at h
  · exact Nat.lt_of_lt_of_le hlow (of_decide_eq_true h).1
  · exact Nat.lt_trans hlow (of_decide_eq_true h).1

/-- A point of a grid that lies clear of zero is a positive multiple. -/
theorem pos_of_onGrid? {i : Interval} (hi : 0 < i.low) {tie : Tie} {k : Int} {d : Nat}
    (h : i.onGrid? tie k = some d) : 0 < d := by
  have hscale : 0 < Nat.pow 10 (-k).toNat := Nat.pow_pos (by decide)
  unfold onGrid? at h
  dsimp only at h
  generalize Nat.pow 10 (-k).toNat = scale at h hscale
  generalize 4 * Binary64.one * Nat.pow 10 k.toNat = step at h
  generalize i.value * scale / step = below at h
  have hbelow : i.holds scale (below * step) = true → 0 < below := fun hholds =>
    Nat.pos_of_mul_pos_right (pos_of_holds hi hscale hholds)
  split at h
  · next hlower _ =>
    have hpos := hbelow hlower
    split at h
    · cases h
      exact hpos
    · split at h
      · cases h
        omega
      · split at h <;> cases h <;> omega
  · next hlower _ =>
    cases h
    exact hbelow hlower
  · cases h
    omega
  · cases h

end Interval

namespace Binary64

/-- The shortest numeral of a number has a digit that is not zero, or no exponent. -/
theorem exponent_of_digits_eq_zero {tie : Tie} {negative : Bool} {n : Nat}
    (h : (shortest tie negative n).digits = 0) : (shortest tie negative n).exponent = 0 := by
  unfold shortest at h ⊢
  by_cases hn : n = 0
  · rw [if_pos hn]
  · rw [if_neg hn] at h ⊢
    unfold shortestUnits at h ⊢
    dsimp only at h ⊢
    generalize hfound : (List.range 20).findSome? (fun j : Nat =>
      ((Interval.ofUnits n).onGrid? tie (gridTop n - j)).map fun d => (d, gridTop n - j)) = found
      at h ⊢
    cases found with
    | none => rfl
    | some p =>
      obtain ⟨j, -, hj⟩ := List.exists_of_findSome?_eq_some hfound
      obtain ⟨d, hd, rfl⟩ := Option.map_eq_some_iff.mp hj
      have hpos := Interval.pos_of_onGrid? (Interval.low_ofUnits_pos (Nat.pos_of_ne_zero hn)) hd
      exact absurd h (Nat.ne_of_gt hpos)

@[simp] theorem shortest_negative (tie : Tie) (negative : Bool) (n : Nat) :
    (shortest tie negative n).negative = negative := by
  unfold shortest
  split <;> rfl

end Binary64

/-! ### Digits with a point -/

namespace Decimal

/-- The digits in front of a point: a zero alone, or digits without a zero in front. -/
def IsWhole (w : List Char) : Prop :=
  w = ['0'] ∨ ∃ c tail, w = c :: tail ∧ c ≠ '0' ∧ ∀ d ∈ w, d.isDigit = true

/-- The digits behind a point, of which there is one at least. -/
def IsFraction (f : List Char) : Prop := f ≠ [] ∧ ∀ d ∈ f, d.isDigit = true

theorem IsWhole.isDigit {w : List Char} (hw : IsWhole w) : ∀ d ∈ w, d.isDigit = true := by
  rcases hw with rfl | ⟨c, tail, rfl, -, hall⟩
  · exact List.forall_mem_singleton.mpr rfl
  · exact hall

theorem isWhole_digitChars_append {n : Nat} (hn : 0 < n) {ds : List Char}
    (hds : ∀ d ∈ ds, d.isDigit = true) : IsWhole (digitChars n ++ ds) := by
  obtain ⟨c, tail, hdigits, hc⟩ := head_toDigits_ne_zero hn
  refine .inr ⟨c, tail ++ ds, ?_, hc, ?_⟩
  · rw [digitChars, hdigits, List.cons_append]
  · intro d hd
    grind

theorem isWhole_digitChars (n : Nat) : IsWhole (digitChars n) := by
  by_cases hn : n = 0
  · subst hn
    exact .inl rfl
  · have hwhole := isWhole_digitChars_append (Nat.pos_of_ne_zero hn) (List.forall_mem_nil _)
    rwa [List.append_nil] at hwhole

@[grind →] theorem isDigit_of_mem_replicate {k : Nat} {d : Char} (hd : d ∈ List.replicate k '0') :
    d.isDigit = true := by
  rw [List.eq_of_mem_replicate hd]
  decide

/-- **Digits that are set out with a point** have a whole part and a fraction. -/
theorem exists_parts_of_plain {n : Nat} {exponent : Int} (h : n = 0 → exponent = 0) :
    ∃ w f, plain ['.', '0'] (digitChars n) exponent = w ++ '.' :: f ∧ IsWhole w ∧ IsFraction f := by
  unfold plain
  dsimp only
  by_cases hplaces : (-exponent).toNat = 0
  · rw [if_pos hplaces]
    have hzero : IsFraction ['0'] := ⟨List.cons_ne_nil _ _, List.forall_mem_singleton.mpr rfl⟩
    refine ⟨digitChars n ++ List.replicate exponent.toNat '0', ['0'], rfl, ?_, hzero⟩
    by_cases hn : n = 0
    · rw [h hn, hn]
      exact .inl rfl
    · apply isWhole_digitChars_append (Nat.pos_of_ne_zero hn)
      intro d hd
      exact isDigit_of_mem_replicate hd
  · have hn : 0 < n := Nat.pos_of_ne_zero fun hn => hplaces (by rw [h hn]; rfl)
    rw [if_neg hplaces]
    by_cases hlength : (-exponent).toNat < (digitChars n).length
    · rw [if_pos hlength]
      generalize hk : (digitChars n).length - (-exponent).toNat = k
      refine ⟨(digitChars n).take k, (digitChars n).drop k, rfl, ?_, ?_, ?_⟩
      · obtain ⟨c, tail, hdigits, hc⟩ := head_toDigits_ne_zero hn
        obtain ⟨k, rfl⟩ := Nat.exists_eq_add_one.mpr (show 0 < k by omega)
        refine .inr ⟨c, tail.take k, ?_, hc, ?_⟩
        · rw [digitChars, hdigits, List.take_succ_cons]
        · intro d hd
          exact isDigit_of_mem_digitChars (List.mem_of_mem_take hd)
      · rw [Ne, List.drop_eq_nil_iff]
        omega
      · intro d hd
        exact isDigit_of_mem_digitChars (List.mem_of_mem_drop hd)
    · rw [if_neg hlength]
      refine ⟨['0'], _, rfl, .inl rfl, ?_, ?_⟩
      · simp [digitChars_ne_nil]
      · intro d hd
        rcases List.mem_append.mp hd with hd | hd
        · exact isDigit_of_mem_replicate hd
        · exact isDigit_of_mem_digitChars hd

/-! ### The characters of a numeral -/

/-- What a numeral is written with: digits, signs, a point and the mark of an exponent. -/
def IsNumeral (c : Char) : Prop := c.isDigit = true ∨ c = '+' ∨ c = '-' ∨ c = '.' ∨ c = 'e'

theorem isNumeral_of_mem_plain {mark : List Char} (hmark : ∀ c ∈ mark, IsNumeral c) {n : Nat}
    {exponent : Int} {c : Char} (hc : c ∈ plain mark (digitChars n) exponent) : IsNumeral c := by
  have hdigit : ∀ {d}, d ∈ digitChars n → IsNumeral d := fun hd =>
    .inl (isDigit_of_mem_digitChars hd)
  have hzero : ∀ {k d}, d ∈ List.replicate k '0' → IsNumeral d := fun hd =>
    .inl (isDigit_of_mem_replicate hd)
  have hpoint : IsNumeral '.' := .inr (.inr (.inr (.inl rfl)))
  unfold plain at hc
  dsimp only at hc
  split at hc
  · simp only [List.mem_append] at hc
    rcases hc with (hc | hc) | hc
    · exact hdigit hc
    · exact hzero hc
    · exact hmark c hc
  · split at hc
    · simp only [List.mem_append, List.mem_cons] at hc
      rcases hc with hc | rfl | hc
      · exact hdigit (List.mem_of_mem_take hc)
      · exact hpoint
      · exact hdigit (List.mem_of_mem_drop hc)
    · simp only [List.mem_append, List.mem_cons] at hc
      rcases hc with rfl | rfl | hc | hc
      · exact .inl rfl
      · exact hpoint
      · exact hzero hc
      · exact hdigit hc

theorem isNumeral_of_mem_scientific {n : Nat} {leading : Int} {c : Char}
    (hc : c ∈ scientific (digitChars n) leading) : IsNumeral c := by
  have hdigit : ∀ {n d}, d ∈ digitChars n → IsNumeral d := fun hd =>
    .inl (isDigit_of_mem_digitChars hd)
  unfold scientific at hc
  dsimp only at hc
  simp only [List.mem_append, List.mem_cons] at hc
  rcases hc with (hc | hc) | rfl | hc | hc
  · exact hdigit (List.mem_of_mem_take hc)
  · split at hc
    · cases hc
    · rcases List.mem_cons.mp hc with rfl | hc
      · exact .inr (.inr (.inr (.inl rfl)))
      · exact hdigit (List.mem_of_mem_drop hc)
  · exact .inr (.inr (.inr (.inr rfl)))
  · subst hc
    split
    · exact .inr (.inr (.inl rfl))
    · exact .inr (.inl rfl)
  · exact hdigit hc

/-- **A numeral is written with digits, signs, points and the mark of an exponent.** -/
theorem isNumeral_of_mem_chars {layout : Layout} (hmark : ∀ c ∈ layout.wholeMark, IsNumeral c)
    {d : Decimal} {c : Char} (hc : c ∈ d.chars layout) : IsNumeral c := by
  have hbody : ∀ {c}, c ∈ (if layout.isPlain (d.exponent + (digitChars d.digits).length - 1)
      then plain layout.wholeMark (digitChars d.digits) d.exponent
      else scientific (digitChars d.digits) (d.exponent + (digitChars d.digits).length - 1)) →
        IsNumeral c := by
    intro c hc
    split at hc
    · exact isNumeral_of_mem_plain hmark hc
    · exact isNumeral_of_mem_scientific hc
  unfold chars at hc
  dsimp only at hc
  split at hc
  · rcases List.mem_cons.mp hc with rfl | hc
    · exact .inr (.inr (.inl rfl))
    · exact hbody hc
  · exact hbody hc

end Decimal

end TachoPrint
