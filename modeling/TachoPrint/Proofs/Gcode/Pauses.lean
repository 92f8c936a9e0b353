import TachoPrint.Proofs.Binary64.Multiples
import TachoPrint.Proofs.Gcode.Table

/-!
# Pauses

The words behind `G4` that begin with P give milliseconds, and those that begin with S give
seconds.  They are read from left to right: the first bad one is refused, and if there is
none the last one counts.  A pause is bounded in milliseconds, before it is counted in
microseconds, and neither rounding leads past the bound.

## Main definitions

* `Gcode.Word.Counts` — how many milliseconds a word counts for one.
* `Gcode.Word.BadPause` — why a word is refused as part of a pause.
* `Gcode.Pausing` — the microseconds that words give, as a number.
* `Gcode.InRange` — the numbers that a pause may come to.

## Main results

* `Gcode.maxPauseMillis_less_iff` — the bound is that of the exact value.
* `Gcode.foldlM_eq_error_iff` — a fold breaks off at the first item that is bad.
* `Gcode.exists_pausing` — words that are not bad give a pause.
* `Instruction.ofLine?_pause` — **what the words of a pause say.**
-/

namespace TachoPrint

namespace Gcode

/-! ### Words of a pause -/

/-- The word gives a number of milliseconds or of seconds, as its letter says in either
case; that is how many milliseconds it counts for one. -/
inductive Word.Counts (w : Word) : Binary64 → Prop
  /-- Milliseconds. -/
  | millis (h : w.Begins 'P') : w.Counts 1
  /-- Seconds. -/
  | seconds (h : w.Begins 'S') : w.Counts 1000

/-- Why the word is refused as part of a pause. -/
inductive Word.BadPause (w : Word) : WordError → Prop
  /-- There is no value. -/
  | missing {unit : Binary64} (hunit : w.Counts unit) (h : w.value = []) :
      w.BadPause (.missingValue w.text)
  /-- The value is no finite number. -/
  | invalid {unit : Binary64} (hunit : w.Counts unit) (hne : w.value ≠ []) (h : w.value? = none) :
      w.BadPause (.invalidNumber w.text)
  /-- The value is below zero; negative zero is not. -/
  | negative {unit v : Binary64} (hunit : w.Counts unit) (hv : w.value? = some v)
      (h : v.value < 0) : w.BadPause (.negativeDuration w.text)
  /-- The value comes to more milliseconds than a pause may have. -/
  | tooLong {unit v : Binary64} (hunit : w.Counts unit) (hv : w.value? = some v)
      (h0 : 0 ≤ v.value) (h : 4294967295 < v.value * unit.value) :
      w.BadPause (.durationTooLong w.text)

/-- The microseconds that the words give, as a number: those of the last word with a
duration, or none. -/
inductive Pausing : List Word → Binary64 → Prop
  /-- No word gives a duration. -/
  | none {ws : List Word} (h : ∀ u ∈ ws, ∀ unit, ¬u.Counts unit) : Pausing ws 0
  /-- A word does, and no word behind it. -/
  | last {before after : List Word} {u : Word} {unit v : Binary64} (hunit : u.Counts unit)
      (hv : u.value? = some v) (h : ∀ a ∈ after, ∀ unit, ¬a.Counts unit) :
      Pausing (before ++ u :: after) (v * unit * 1000)

/-- The number is one that a pause may have in microseconds. -/
structure InRange (x : Binary64) : Prop where
  isFinite : x.isFinite
  nonneg : 0 ≤ x.value
  le : x.value ≤ 4294967295000

@[grind =] theorem millisPerUnit?_eq_some_iff {w : Word} {unit : Binary64} :
    millisPerUnit? w.letter = some unit ↔ w.Counts unit := by
  constructor
  · intro h
    unfold millisPerUnit? at h
    split at h
    · next hletter =>
      obtain rfl := Option.some.inj h
      exact .millis ((Word.letter_eq_iff (by decide)).mp hletter)
    · next hletter =>
      obtain rfl := Option.some.inj h
      exact .seconds ((Word.letter_eq_iff (by decide)).mp hletter)
    · cases h
  · rintro (h | h)
    · rw [(Word.letter_eq_iff (by decide)).mpr h]
      rfl
    · rw [(Word.letter_eq_iff (by decide)).mpr h]
      rfl

theorem millisPerUnit?_eq_none_iff {w : Word} :
    millisPerUnit? w.letter = none ↔ ∀ unit, ¬w.Counts unit := by
  rw [Option.eq_none_iff_forall_ne_some]
  exact forall_congr' fun unit => not_congr millisPerUnit?_eq_some_iff

theorem Word.isFinite_of_value? {w : Word} {v : Binary64} (h : w.value? = some v) : v.isFinite :=
  isFinite_of_number (number_of_value? h)

/-- One counts for a whole number of milliseconds. -/
theorem Word.Counts.exists_eq {w : Word} {unit : Binary64} (h : w.Counts unit) :
    ∃ n < Binary64.significandEnd, unit = .ofRatio false n 1 := by
  cases h with
  | millis => exact ⟨1, by decide, rfl⟩
  | seconds => exact ⟨1000, by decide, rfl⟩

/-! ### The bound -/

theorem maxPauseMillis_value :
    maxPauseMillis.isFinite ∧ maxPauseMillis.value = 4294967295 :=
  Binary64.value_ofRatio (n := 4294967295) (by decide)

namespace Bound

open Binary64 (one Representable nearestUnits)

/-- A multiple of a unit, a thousand of which exceed the bound, is no less than the first such
multiple. -/
theorem le_of_lt_thousand {u m : Nat} (hdvd : u ∣ m)
    (h : 4294967295 * (1073741824 * u) < m * 1000) : u * 4611686017353647 ≤ m := by
  obtain ⟨j, rfl⟩ := hdvd
  have hscaled : u * (4294967295 * 1073741824) < u * (j * 1000) := by
    calc u * (4294967295 * 1073741824) = 4294967295 * (1073741824 * u) := by ring
      _ < u * j * 1000 := h
      _ = u * (j * 1000) := by ring
  have hlt := Nat.lt_of_mul_lt_mul_left hscaled
  exact Nat.mul_le_mul_left u (by omega)

/-- Numbers near a thousandth of the bound are far enough apart for a thousand of the first
one past it to exceed the bound after rounding. -/
theorem lt_nearestUnits {m : Nat} (hm : Representable m) (h : 4294967295 * one < m * 1000) :
    4294967295 * one < nearestUnits (m * 1000 * one) one := by
  have hlarge : (2 : Nat) ^ (1044 + 52) ≤ m := by
    have hpow : (2 : Nat) ^ (1044 + 52) = 4194304 * one := by decide +kernel
    rw [hpow]
    clear hpow
    omega
  have hone : one = 1073741824 * 2 ^ 1044 := by decide +kernel
  have hnext : 4294967295 * one <
      nearestUnits (2 ^ 1044 * 4611686017353647 * 1000 * one) one := by decide +kernel
  have hdvd := Binary64.two_pow_dvd_of_le hm hlarge
  rw [hone] at h
  have hle := le_of_lt_thousand hdvd h
  exact hnext.trans_le (Binary64.nearestUnits_mul_mono hle 1000)

end Bound

/-- A thousand of a number is past the bound exactly if it is before it is rounded. -/
theorem maxPauseMillis_less_mul_thousand {v : Binary64} (hv : v.isFinite) (h0 : 0 ≤ v.value) :
    maxPauseMillis.less (v * 1000) ↔ 4294967295 < v.value * 1000 := by
  obtain ⟨hmax, hvalue⟩ := maxPauseMillis_value
  constructor
  · intro h
    by_contra hle
    have hle : v.value * (1000 : Nat) ≤ (4294967295 : Nat) := by
      push_cast
      exact not_lt.mp hle
    obtain ⟨hfinite, -, hbound⟩ := Binary64.mul_ofRatio_le hv h0 hle (by decide) (by decide)
    have hless := (Binary64.less_iff_value_lt hmax hfinite).mp h
    rw [hvalue] at hless
    push_cast at hbound
    linarith
  · intro h
    cases v with
    | nan => cases hv
    | inf s => cases hv
    | finite s m hm =>
      have hone := Binary64.one_cast_pos
      have hsign := Binary64.eq_false_or_eq_zero h0
      rw [Binary64.value_finite_eq hm hsign, div_mul_eq_mul_div, lt_div_iff₀ hone] at h
      have hexact : 4294967295 * Binary64.one < m * 1000 := by exact_mod_cast h
      have hs : s = false := by
        apply hsign.resolve_right
        rintro rfl
        omega
      subst hs
      have hunits : maxPauseMillis.units = (4294967295 * Binary64.one : Nat) := by
        obtain ⟨hrep, hliteral⟩ := Binary64.ofRatio_natCast false (n := 4294967295) (by decide)
        change (Binary64.ofRatio false 4294967295 1).units = _
        rw [hliteral]
        rfl
      have hproduct : .finite false m hm * (1000 : Binary64) =
          .ofUnits false (m * 1000 * Binary64.one) Binary64.one :=
        Binary64.finite_mul_ofRatio false hm (by decide)
      rw [hproduct]
      apply Binary64.less_ofUnits hmax
      rw [hunits]
      exact_mod_cast Bound.lt_nearestUnits hm hexact

/-- **The bound is that of the exact value**: no rounding moves a duration past it. -/
theorem maxPauseMillis_less_iff {w : Word} {unit v : Binary64} (hunit : w.Counts unit)
    (hv : v.isFinite) (h0 : 0 ≤ v.value) :
    maxPauseMillis.less (v * unit) ↔ 4294967295 < v.value * unit.value := by
  obtain ⟨hmax, hvalue⟩ := maxPauseMillis_value
  cases hunit with
  | millis =>
    have hone : (1 : Binary64).value = 1 := by
      have h := (Binary64.value_ofRatio (n := 1) (by decide)).2
      rwa [Nat.cast_one] at h
    simp [Binary64.less_iff_value_lt hmax hv, hvalue, hone]
  | seconds =>
    have hthousand : (1000 : Binary64).value = 1000 :=
      (Binary64.value_ofRatio (n := 1000) (by decide)).2
    rw [maxPauseMillis_less_mul_thousand hv h0, hthousand]

/-- A duration within the bound gives microseconds within range. -/
theorem inRange_mul {w : Word} {unit v : Binary64} (hunit : w.Counts unit) (hv : v.isFinite)
    (h0 : 0 ≤ v.value) (hle : v.value * unit.value ≤ 4294967295) :
    InRange (v * unit * 1000) := by
  obtain ⟨n, hn, hliteral⟩ := hunit.exists_eq
  rw [hliteral, (Binary64.value_ofRatio hn).2] at hle
  rw [hliteral]
  obtain ⟨hmillis, hmillis0, hmillisle⟩ :=
    Binary64.mul_ofRatio_le (k := 4294967295) hv h0 (by exact_mod_cast hle) hn (by decide)
  have hthousand : (v * .ofRatio false n 1).value * (1000 : Nat) ≤ (4294967295000 : Nat) := by
    push_cast at hmillisle ⊢
    linarith
  obtain ⟨hmicros, hmicros0, hmicrosle⟩ :=
    Binary64.mul_ofRatio_le hmillis hmillis0 hthousand (by decide) (by decide)
  exact ⟨hmicros, hmicros0, by exact_mod_cast hmicrosle⟩

/-! ### One word -/

/-- A bad word is refused, whatever is in front of it. -/
theorem Word.BadPause.pauseStep_eq {w : Word} {e : WordError} (h : w.BadPause e)
    (micros : Binary64) : pauseStep micros w = .error e := by
  cases h with
  | missing hunit h =>
    have hnone : w.value? = none := by
      have hnothing : Binary64.ofText? [] = none := by decide
      rw [Word.value?, h, hnothing]
      rfl
    rw [pauseStep_of_value?_eq_none (millisPerUnit?_eq_some_iff.mpr hunit) hnone, Word.fault,
      if_pos h]
  | invalid hunit hne h =>
    rw [pauseStep_of_value?_eq_none (millisPerUnit?_eq_some_iff.mpr hunit) h, Word.fault,
      if_neg hne]
  | negative hunit hv h =>
    have hless := (Binary64.less_zero_iff (Word.isFinite_of_value? hv)).mpr h
    rw [pauseStep_of_value? (millisPerUnit?_eq_some_iff.mpr hunit) hv, if_pos hless]
  | tooLong hunit hv h0 h =>
    have hfinite := Word.isFinite_of_value? hv
    have hless := (maxPauseMillis_less_iff hunit hfinite h0).mpr h
    have hnonneg := (not_congr (Binary64.less_zero_iff hfinite)).mpr (not_lt.mpr h0)
    rw [pauseStep_of_value? (millisPerUnit?_eq_some_iff.mpr hunit) hv, if_neg hnonneg,
      if_pos hless]

/-- A word that is not bad gives a duration in range, or changes nothing. -/
theorem pauseStep_of_not_badPause {w : Word} (h : ∀ e, ¬w.BadPause e) (micros : Binary64) :
    (∃ unit v, w.Counts unit ∧ w.value? = some v ∧ InRange (v * unit * 1000) ∧
      pauseStep micros w = .ok (v * unit * 1000)) ∨
    (∀ unit, ¬w.Counts unit) ∧ pauseStep micros w = .ok micros := by
  by_cases hcounts : ∃ unit, w.Counts unit
  · left
    obtain ⟨unit, hunit⟩ := hcounts
    cases hvalue : w.value? with
    | none =>
      by_cases hempty : w.value = []
      · exact absurd (.missing hunit hempty) (h _)
      · exact absurd (.invalid hunit hempty hvalue) (h _)
    | some v =>
      have hfinite := Word.isFinite_of_value? hvalue
      have h0 : 0 ≤ v.value := not_lt.mp fun hneg => h _ (.negative hunit hvalue hneg)
      have hle : v.value * unit.value ≤ 4294967295 :=
        not_lt.mp fun hlong => h _ (.tooLong hunit hvalue h0 hlong)
      have hnonneg := (not_congr (Binary64.less_zero_iff hfinite)).mpr (not_lt.mpr h0)
      have hshort := (not_congr (maxPauseMillis_less_iff hunit hfinite h0)).mpr (not_lt.mpr hle)
      refine ⟨unit, v, hunit, rfl, inRange_mul hunit hfinite h0 hle, ?_⟩
      rw [pauseStep_of_value? (millisPerUnit?_eq_some_iff.mpr hunit) hvalue, if_neg hnonneg,
        if_neg hshort]
  · right
    rw [not_exists] at hcounts
    exact ⟨hcounts, pauseStep_of_other (millisPerUnit?_eq_none_iff.mpr hcounts)⟩

/-! ### Words from left to right -/

/-- A fold that refuses bad items and takes the others breaks off at the first bad one. -/
theorem foldlM_eq_error_iff {ε α β : Type} {step : β → α → Except ε β} {Bad : α → ε → Prop}
    (hbad : ∀ {a e}, Bad a e → ∀ b, step b a = .error e)
    (hgood : ∀ {a}, (∀ e, ¬Bad a e) → ∀ b, ∃ b', step b a = .ok b') {l : List α} {b : β} {e : ε} :
    l.foldlM step b = .error e ↔
      ∃ before a after, l = before ++ a :: after ∧ (∀ c ∈ before, ∀ e, ¬Bad c e) ∧ Bad a e := by
  induction l generalizing b with
  | nil =>
    constructor
    · exact nofun
    · rintro ⟨before, a, after, hnil, -⟩
      exact absurd hnil.symm (by simp)
  | cons a l ih =>
    rw [List.foldlM_cons]
    by_cases ha : ∃ f, Bad a f
    · obtain ⟨f, hf⟩ := ha
      rw [hbad hf b]
      constructor
      · intro h
        obtain rfl := Except.error.inj h
        exact ⟨[], a, l, rfl, List.forall_mem_nil _, hf⟩
      · rintro ⟨before, c, after, hsplit, hbefore, hc⟩
        cases before with
        | nil =>
          obtain ⟨rfl, -⟩ := List.cons.inj hsplit
          exact (hbad hf b).symm.trans (hbad hc b)
        | cons d before =>
          obtain ⟨rfl, -⟩ := List.cons.inj hsplit
          exact absurd hf (hbefore _ List.mem_cons_self f)
    · have hgooda := not_exists.mp ha
      obtain ⟨b', hb'⟩ := hgood hgooda b
      rw [hb']
      apply Iff.trans (ih (b := b'))
      constructor
      · rintro ⟨before, c, after, rfl, hbefore, hc⟩
        exact ⟨a :: before, c, after, rfl, List.forall_mem_cons.mpr ⟨hgooda, hbefore⟩, hc⟩
      · rintro ⟨before, c, after, hsplit, hbefore, hc⟩
        cases before with
        | nil =>
          obtain ⟨rfl, -⟩ := List.cons.inj hsplit
          exact absurd hc (hgooda e)
        | cons d before =>
          obtain ⟨rfl, rfl⟩ := List.cons.inj hsplit
          exact ⟨before, c, after, rfl, (List.forall_mem_cons.mp hbefore).2, hc⟩

/-- The error of a pause is that of the first bad word. -/
theorem foldlM_pauseStep_eq_error_iff {ws : List Word} {micros : Binary64} {e : WordError} :
    ws.foldlM pauseStep micros = .error e ↔
      ∃ before u after, ws = before ++ u :: after ∧ (∀ a ∈ before, ∀ e, ¬a.BadPause e) ∧
        u.BadPause e := by
  refine foldlM_eq_error_iff (fun h micros => h.pauseStep_eq micros) fun h micros => ?_
  obtain ⟨unit, v, -, -, -, hstep⟩ | ⟨-, hstep⟩ := pauseStep_of_not_badPause h micros
  · exact ⟨_, hstep⟩
  · exact ⟨_, hstep⟩

theorem Pausing.concat {ws : List Word} {x : Binary64} {w : Word} (h : Pausing ws x)
    (hw : ∀ unit, ¬w.Counts unit) : Pausing (ws ++ [w]) x := by
  cases h with
  | none h => exact .none (List.forall_mem_append.mpr ⟨h, List.forall_mem_singleton.mpr hw⟩)
  | last hunit hv h =>
    rw [List.append_assoc, List.cons_append]
    exact .last hunit hv (List.forall_mem_append.mpr ⟨h, List.forall_mem_singleton.mpr hw⟩)

theorem inRange_zero : InRange 0 := ⟨Binary64.isFinite_zero, Binary64.value_zero.ge, by
  rw [Binary64.value_zero]
  norm_num⟩

/-- **Words that are not bad give a pause**, in range. -/
theorem exists_pausing {ws : List Word} (h : ∀ u ∈ ws, ∀ e, ¬u.BadPause e) :
    ∃ x, ws.foldlM pauseStep 0 = .ok x ∧ Pausing ws x ∧ InRange x := by
  induction ws using List.reverseRecOn with
  | nil => exact ⟨0, rfl, .none (List.forall_mem_nil _), inRange_zero⟩
  | append_singleton ws w ih =>
    obtain ⟨hws, hw⟩ := List.forall_mem_append.mp h
    obtain ⟨x, hfold, hpausing, hrange⟩ := ih hws
    have hnext : (ws ++ [w]).foldlM pauseStep 0 = pauseStep x w := by
      rw [List.foldlM_append, hfold]
      change (pauseStep x w >>= fun y => .ok y) = _
      cases pauseStep x w <;> rfl
    rw [hnext]
    -- the new last word counts, or else all is as it was
    obtain ⟨unit, v, hunit, hv, hvrange, hstep⟩ | ⟨hother, hstep⟩ :=
      pauseStep_of_not_badPause (hw w (List.mem_singleton_self w)) x
    · exact ⟨_, hstep, .last hunit hv (List.forall_mem_nil _), hvrange⟩
    · exact ⟨x, hstep, hpausing.concat hother, hrange⟩

/-- Whatever is read of a pause is in range. -/
theorem inRange_of_foldlM {ws : List Word} {x : Binary64} (h : ws.foldlM pauseStep 0 = .ok x) :
    InRange x := by
  refine of_foldlM_ok (P := InRange) ?_ inRange_zero h
  intro b w b' hb hstep
  by_cases hw : ∀ e, ¬w.BadPause e
  · obtain ⟨unit, v, -, -, hrange, hnext⟩ | ⟨-, hnext⟩ := pauseStep_of_not_badPause hw b
    · rw [hnext] at hstep
      obtain rfl := Except.ok.inj hstep
      exact hrange
    · rw [hnext] at hstep
      obtain rfl := Except.ok.inj hstep
      exact hb
  · obtain ⟨e, he⟩ := not_forall_not.mp hw
    rw [he.pauseStep_eq b] at hstep
    cases hstep

/-! ### Lines -/

theorem InRange.toNat_toUInt64 {x : Binary64} (h : InRange x) :
    (x.toUInt64.toNat : ℤ) = round x.value ∧ x.toUInt64.toNat ≤ 4294967295000 :=
  Binary64.toNat_toUInt64 h.isFinite h.nonneg (by exact_mod_cast h.le) (by decide)

namespace Command

theorem instruction_pause_eq (ws : List Word) :
    pause.instruction ws =
      (fun x => Instruction.pause x.toUInt64) <$> ws.foldlM pauseStep 0 := by
  unfold instruction
  cases ws.foldlM pauseStep 0 <;> rfl

/-- Only a pause is read from the words of a pause. -/
theorem exists_of_instruction_eq_pause {c : Command} {ws : List Word} {micros : UInt64}
    (h : c.instruction ws = .ok (.pause micros)) :
    ∃ x, ws.foldlM pauseStep 0 = .ok x ∧ micros = x.toUInt64 := by
  cases c with
  | pause =>
    obtain ⟨x, hx, hmicros⟩ := bind_eq_ok_iff.mp h
    cases hmicros
    exact ⟨x, hx, rfl⟩
  | move =>
    obtain ⟨m, -, hm⟩ := bind_eq_ok_iff.mp h
    cases hm
  | setPosition =>
    obtain ⟨coordinates, -, hc⟩ := bind_eq_ok_iff.mp h
    cases hc
  | home | absolute | relative | release => cases h

end Command

end Gcode

namespace Instruction

open Gcode

/-- **What the words of a pause say.**  The words are read from left to right, and the first
one that is bad is refused as it stands: without a value, with one that is no finite number,
with one below zero, or with one that exceeds `2 ^ 32 - 1` milliseconds.  If no word is bad,
the last one with a duration counts: its milliseconds times a thousand, each product rounded
once as numbers are, to the nearest whole number of microseconds with halves up.  No pause
has more than `4294967295000` of them, so that the number is always in range. -/
theorem ofLine?_pause :
    (∀ line w params, Instructs (String.toList line) (w :: params) → Command.pause.NamedBy w →
      (∀ e, ofLine? line = .error e ↔
        ∃ before u after, params = before ++ u :: after ∧
          (∀ a ∈ before, ∀ e, ¬a.BadPause e) ∧ u.BadPause e) ∧
      ((∀ u ∈ params, ∀ e, ¬u.BadPause e) →
        ∃ x micros, Pausing params x ∧ InRange x ∧ (micros.toNat : ℤ) = round x.value ∧
          ofLine? line = .ok (some (.pause micros)))) ∧
    ∀ line micros, ofLine? line = .ok (some (.pause micros)) → micros.toNat ≤ 4294967295000 := by
  refine ⟨fun line w params hline hw => ⟨?_, ?_⟩, ?_⟩
  · intro e
    rw [hline.ofLine?_of_named hw, map_eq_error_iff, Command.instruction_pause_eq, map_eq_error_iff,
      foldlM_pauseStep_eq_error_iff]
  · intro hgood
    obtain ⟨x, hfold, hpausing, hrange⟩ := exists_pausing hgood
    refine ⟨x, x.toUInt64, hpausing, hrange, hrange.toNat_toUInt64.1, ?_⟩
    rw [hline.ofLine?_of_named hw, Command.instruction_pause_eq, hfold]
    rfl
  · intro line micros h
    obtain ⟨w, params, c, -, -, hread⟩ := exists_of_ofLine?_eq_some h
    obtain ⟨x, hfold, rfl⟩ := Command.exists_of_instruction_eq_pause hread
    exact (inRange_of_foldlM hfold).toNat_toUInt64.2

/-- A pause at the bound, and one with a word below zero in front of a word that is no
number. -/
theorem ofLine?_pause_at_bound :
    (ofLine? "G4 p1 S4294967.295" = .ok (some (.pause 4294967295000)) ∧
      (4294967295000 : UInt64).toNat ≤ 4294967295000) ∧
    ofLine? "N1 g04 P1 s-1 Pq" = .error (.negativeDuration "s-1") ∧
      ∃ before u after,
        [Word.mk 'P' ['1'], ⟨'s', ['-', '1']⟩, ⟨'P', ['q']⟩] = before ++ u :: after ∧
          (∀ a ∈ before, ∀ e, ¬a.BadPause e) ∧ u.BadPause (.negativeDuration "s-1") := by
  have hlong : ofLine? "G4 p1 S4294967.295" = .ok (some (.pause 4294967295000)) := by
    decide +kernel
  have hbad : ofLine? "N1 g04 P1 s-1 Pq" = .error (.negativeDuration "s-1") := by
    decide +kernel
  have hline : Instructs "N1 g04 P1 s-1 Pq".toList
      [⟨'g', ['0', '4']⟩, ⟨'P', ['1']⟩, ⟨'s', ['-', '1']⟩, ⟨'P', ['q']⟩] :=
    instructs_iff.mpr (by decide)
  have hpause : Command.pause.NamedBy ⟨'g', ['0', '4']⟩ :=
    Command.ofWord?_eq_some_iff.mp (by decide)
  exact ⟨⟨hlong, ofLine?_pause.2 _ _ hlong⟩, hbad,
    ((ofLine?_pause.1 _ _ _ hline hpause).1 _).mp hbad⟩

end Instruction

end TachoPrint
