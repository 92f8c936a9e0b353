import TachoPrint.Proofs.Machine.Toggling

/-!
# Polling an endstop

Polling looks at one reading after the other.  It meets its level at the first reading that
shows it, provided that every reading up to there can be read and that after each look in
vain there was time for another one.  How often polling may look follows from its step and its
timeout alone, so each poll has its own full time.

## Main definitions

* `Endstop.GoesOn` — a look in vain, after which polling looks again.
* `Endstop.MeetsInTime` — polling from one reading on meets its level at another.

## Main results

* `Endstop.pollFrom_eq_met_iff` — **polling meets its level exactly when it does so in time.**
* `Axis.awaitEndstop_of_meets`, `Axis.exists_meets_of_awaitEndstop` — the same for an axis.
* `Endstop.pollFrom_ne_overflowed` — a timeout of 63 bits does not overflow.
-/

namespace TachoPrint

open TachoPrint.Action

namespace Endstop

/-- A look in vain after some time of waiting: the reading does not show the level, the time is
not up, and it can be counted on. -/
structure GoesOn (readings : Nat → Reading) (inverted : Bool) (step timeout waited k : Nat) :
    Prop where
  vain : shows readings inverted k = false
  inTime : waited < timeout
  fits : waited + step < 18446744073709551616

/-- Polling from reading `first` on meets its level at reading `last`: all readings up to there
can be read, the last one shows the level, and polling goes on after each of the others. -/
structure MeetsInTime (readings : Nat → Reading) (inverted : Bool) (polling : Polling)
    (first last : Nat) : Prop where
  first_le : first ≤ last
  readable : ∀ k, first ≤ k → k ≤ last → readings k ≠ .broken
  met : shows readings inverted last = true
  goesOn : ∀ k, first ≤ k → k < last → GoesOn readings inverted polling.step.toNat
    polling.timeout.toNat ((k - first) * polling.step.toNat) k

section

variable {readings : Nat → Reading} {inverted : Bool} {step timeout : Nat} {pos : 0 < step}

/-- Polling after some time of waiting. -/
theorem pollFrom_eq_met_iff_of_waited (k waited last : Nat) :
    pollFrom readings inverted step timeout pos k waited = (.met, last) ↔
      k ≤ last ∧ (∀ j, k ≤ j → j ≤ last → readings j ≠ .broken) ∧
        shows readings inverted last = true ∧
        ∀ j, k ≤ j → j < last →
          GoesOn readings inverted step timeout (waited + (j - k) * step) j := by
  -- on the looks, with the reading that is next and the time waited so far
  fun_induction pollFrom readings inverted step timeout pos k waited with
  | case1 k waited hbroken =>
    apply iff_of_false (by simp)
    rintro ⟨hle, hreadable, -⟩
    exact hreadable k (Nat.le_refl k) hle hbroken
  | case2 k waited hread hmet =>
    have hshows : shows readings inverted k = true := hmet
    rw [Prod.mk.injEq, and_iff_right rfl]
    constructor
    · rintro rfl
      refine ⟨Nat.le_refl k, ?_, hshows, fun j hj hjk => absurd hj (by omega)⟩
      intro j hj hjk
      obtain rfl : j = k := by omega
      exact hread
    · rintro ⟨hle, -, -, hon⟩
      refine Nat.le_antisymm hle (Nat.not_lt.mp ?_)
      intro hlt
      -- this look would be one in vain before the last
      have hvain := (hon k (Nat.le_refl k) hlt).vain
      rw [hshows] at hvain
      cases hvain
  | case3 k waited hread hmet htime =>
    apply iff_of_false (by simp)
    rintro ⟨hle, -, hshows, hon⟩
    rcases Nat.eq_or_lt_of_le hle with rfl | hlt
    · exact hmet hshows
    · have hin := (hon k (Nat.le_refl k) hlt).inTime
      omega
  | case4 k waited hread hmet htime hover =>
    apply iff_of_false (by simp)
    rintro ⟨hle, -, hshows, hon⟩
    rcases Nat.eq_or_lt_of_le hle with rfl | hlt
    · exact hmet hshows
    · have hfits := (hon k (Nat.le_refl k) hlt).fits
      omega
  | case5 k waited hread hmet htime hover ih =>
    have hvain : shows readings inverted k = false := (Bool.not_eq_true _).mp hmet
    have hwaited : ∀ j, k + 1 ≤ j →
        waited + step + (j - (k + 1)) * step = waited + (j - k) * step := by
      intro j hj
      obtain ⟨d, rfl⟩ := Nat.exists_eq_add_of_le hj
      rw [Nat.add_sub_cancel_left, show k + 1 + d - k = d + 1 by omega, Nat.succ_mul]
      omega
    rw [ih]
    constructor
    · rintro ⟨hle, hreadable, hshows, hon⟩
      refine ⟨by omega, ?_, hshows, ?_⟩
      · intro j hj hjl
        rcases Nat.eq_or_lt_of_le hj with rfl | hlt
        · exact hread
        · exact hreadable j hlt hjl
      · intro j hj hjl
        rcases Nat.eq_or_lt_of_le hj with rfl | hlt
        · rw [Nat.sub_self, Nat.zero_mul, Nat.add_zero]
          exact ⟨hvain, by omega, by omega⟩
        · rw [← hwaited j hlt]
          exact hon j hlt hjl
    · rintro ⟨hle, hreadable, hshows, hon⟩
      have hne : k ≠ last := by
        rintro rfl
        rw [hvain] at hshows
        cases hshows
      refine ⟨by omega, fun j hj => hreadable j (by omega), hshows, ?_⟩
      intro j hj hjl
      rw [hwaited j hj]
      exact hon j (by omega) hjl

/-- A timeout of 63 bits is over long before the time waited for leaves its 64 bits. -/
theorem pollFrom_ne_overflowed (htimeout : timeout ≤ 9223372036854775807)
    (hstep : step < 4294967296) (k waited : Nat) :
    (pollFrom readings inverted step timeout pos k waited).1 ≠ .overflowed := by
  fun_induction pollFrom readings inverted step timeout pos k waited with
  | case1 => simp
  | case2 => simp
  | case3 => simp
  | case4 k waited hread hmet htime hover => omega
  | case5 k waited hread hmet htime hover ih => exact ih

end

/-- **Polling meets its level exactly when it does so in time.** -/
theorem pollFrom_eq_met_iff {readings : Nat → Reading} {inverted : Bool} {polling : Polling}
    {first last : Nat} :
    pollFrom readings inverted polling.step.toNat polling.timeout.toNat polling.step_pos first 0 =
      (.met, last) ↔ MeetsInTime readings inverted polling first last := by
  rw [pollFrom_eq_met_iff_of_waited]
  simp only [Nat.zero_add]
  constructor
  · rintro ⟨hle, hreadable, hmet, hon⟩
    exact ⟨hle, hreadable, hmet, hon⟩
  · intro h
    exact ⟨h.first_le, h.readable, h.met, h.goesOn⟩

instance (readings : Nat → Reading) (inverted : Bool) (polling : Polling) (first last : Nat) :
    Decidable (MeetsInTime readings inverted polling first last) :=
  decidable_of_iff _ pollFrom_eq_met_iff

end Endstop

namespace Axis

variable {a : Axis} {e : Endstop} {inverted : Bool} {polling : Polling}

/-- An axis whose endstop meets the level in time waits for it, and looks as often as that
takes. -/
theorem awaitEndstop_of_meets {last : Nat} (he : a.endstop = some e)
    (h : Endstop.MeetsInTime e.readings inverted polling e.reads last) :
    awaitEndstop inverted polling a =
      ⟨Endstop.pollEvents e.readings polling.step e.reads last,
        { a with endstop := some { e with reads := last + 1 } }, .done ()⟩ := by
  unfold awaitEndstop
  rw [he]
  dsimp only
  rw [Endstop.pollFrom_eq_met_iff.mpr h]

/-- A wait that succeeds is one whose level is met in time. -/
theorem exists_meets_of_awaitEndstop (he : a.endstop = some e)
    (h : (awaitEndstop inverted polling a).ending = .done ()) :
    ∃ last, Endstop.MeetsInTime e.readings inverted polling e.reads last := by
  unfold awaitEndstop at h
  rw [he] at h
  dsimp only at h
  rcases hp : Endstop.pollFrom e.readings inverted polling.step.toNat polling.timeout.toNat
    polling.step_pos e.reads 0 with ⟨ending, last⟩
  rw [hp] at h
  cases ending with
  | met => exact ⟨last, Endstop.pollFrom_eq_met_iff.mp hp⟩
  | broken => cases h
  | timedOut => cases h
  | overflowed => cases h

/-- A wait with a timeout of 63 bits does not crash. -/
theorem awaitEndstop_ne_crashed (htimeout : polling.timeout.toNat ≤ 9223372036854775807)
    (inverted : Bool) (a : Axis) : (awaitEndstop inverted polling a).ending ≠ .crashed := by
  unfold awaitEndstop
  cases a.endstop with
  | none => exact fun h => nomatch h
  | some e =>
    have hover : (Endstop.pollFrom e.readings inverted polling.step.toNat polling.timeout.toNat
        polling.step_pos e.reads 0).1 ≠ .overflowed :=
      Endstop.pollFrom_ne_overflowed htimeout polling.step.toNat_lt e.reads 0
    dsimp only
    cases hend : (Endstop.pollFrom e.readings inverted polling.step.toNat polling.timeout.toNat
        polling.step_pos e.reads 0).1 with
    | overflowed => exact absurd hend hover
    | met => exact fun h => nomatch h
    | broken => exact fun h => nomatch h
    | timedOut => exact fun h => nomatch h

end Axis

end TachoPrint
