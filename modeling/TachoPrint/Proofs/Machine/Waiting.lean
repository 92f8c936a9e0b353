import Mathlib.Algebra.Order.Floor.Div
import TachoPrint.Proofs.Machine.Polling
import TachoPrint.Proofs.Setup.RoundTrip

/-!
# How long a wait takes

Polling an endstop looks once more than it sleeps.  It ends at the first look that fails or
shows the level, or else at the one after the delays that cover its timeout.  As all delays
are of one length, the time slept is less than one delay past the timeout.

## Main definitions

* `Polling.rounds` — the delays that cover a timeout.
* `Polling.Fits` — a timeout that is over before the clock is.
* `Endstop.Decides` — a look that ends a wait.
* `Axis.Waited` — what a wait with a number of delays leaves.

## Main results

* `Polling.timeout_le_rounds_mul`, `Polling.rounds_mul_lt` — the time slept.
* `Endstop.pollFrom_of_vain` — looks in vain and in time lead on.
* `Axis.awaitEndstop_exact` — **how often a wait looks and sleeps, and how it ends.**
-/

namespace TachoPrint

/-! ### The delays of a timeout -/

namespace Polling

@[simp] theorem toNat_step (p : Polling) : p.step.toNat = max p.interval.toNat 1 := by
  unfold step
  split
  · next h => rw [h]; rfl
  · next h =>
    have hpos : p.interval.toNat ≠ 0 := fun h0 => h (UInt32.toNat_inj.mp h0)
    exact (max_eq_left (Nat.one_le_iff_ne_zero.mpr hpos)).symm

/-- How many delays cover the timeout. -/
def rounds (p : Polling) : Nat := p.timeout.toNat ⌈/⌉ p.step.toNat

theorem timeout_le_rounds_mul (p : Polling) : p.timeout.toNat ≤ p.rounds * p.step.toNat := by
  rw [Nat.mul_comm]
  exact (ceilDiv_le_iff_le_mul p.step_pos).mp (Nat.le_refl p.rounds)

/-- Fewer delays do not cover the timeout. -/
theorem mul_lt_timeout {p : Polling} {n : Nat} (h : n < p.rounds) :
    n * p.step.toNat < p.timeout.toNat := by
  rw [Nat.mul_comm]
  exact Nat.lt_of_not_le fun hle => Nat.not_le_of_lt h ((ceilDiv_le_iff_le_mul p.step_pos).mpr hle)

/-- The last delay begins in time. -/
theorem rounds_mul_lt (p : Polling) :
    p.rounds * p.step.toNat < p.timeout.toNat + p.step.toNat := by
  cases h : p.rounds with
  | zero =>
    have hstep := p.step_pos
    omega
  | succ n =>
    have hlt : n * p.step.toNat < p.timeout.toNat := mul_lt_timeout (by omega)
    rw [Nat.succ_mul]
    omega

/-- A delay past the timeout can still be counted in 64 bits. -/
def Fits (p : Polling) : Prop := p.timeout.toNat + p.step.toNat < 18446744073709551616

instance (p : Polling) : Decidable p.Fits := inferInstanceAs (Decidable (_ < _))

/-- The timeout of a setup that was read has 63 bits. -/
theorem fits_of_ofToml {text : String} {p : PrinterSetup} (h : PrinterSetup.ofToml text = .ok p) :
    p.limits.polling.Fits := by
  have htimeout : p.limits.polling.timeout.toNat ≤ 9223372036854775807 :=
    PrinterSetup.writable_of_ofToml h
  have hstep := p.limits.polling.step.toNat_lt
  unfold Fits
  omega

end Polling

/-! ### Looks in vain -/

namespace Endstop

/-- The look ends a wait: it fails, or it shows the level that is waited for. -/
def Decides (readings : Nat → Reading) (inverted : Bool) (k : Nat) : Prop :=
  readings k = .broken ∨ shows readings inverted k = true

instance (readings : Nat → Reading) (inverted : Bool) (k : Nat) :
    Decidable (Decides readings inverted k) := inferInstanceAs (Decidable (_ ∨ _))

section

variable {readings : Nat → Reading} {inverted : Bool} {step timeout : Nat} {pos : 0 < step}

theorem pollFrom_of_broken {k : Nat} (h : readings k = .broken) (waited : Nat) :
    pollFrom readings inverted step timeout pos k waited = (.broken, k) := by
  unfold pollFrom
  exact if_pos h

theorem pollFrom_of_late {k waited : Nat} (hvain : ¬Decides readings inverted k)
    (h : timeout ≤ waited) :
    pollFrom readings inverted step timeout pos k waited = (.timedOut, k) := by
  obtain ⟨hread, hshows⟩ := not_or.mp hvain
  unfold pollFrom
  rw [if_neg hread]
  exact (if_neg hshows).trans (if_pos h)

/-- One look in vain and in time leads to the next one. -/
theorem pollFrom_succ {k waited : Nat} (hvain : ¬Decides readings inverted k)
    (htime : waited < timeout) (hfits : timeout + step < 18446744073709551616) :
    pollFrom readings inverted step timeout pos k waited =
      pollFrom readings inverted step timeout pos (k + 1) (waited + step) := by
  obtain ⟨hread, hshows⟩ := not_or.mp hvain
  conv => lhs; unfold pollFrom
  rw [if_neg hread]
  apply (if_neg hshows).trans
  rw [if_neg (by omega), if_neg (by omega)]

/-- **Looks in vain and in time lead on**, each by one delay. -/
theorem pollFrom_of_vain {k waited n : Nat} (hvain : ∀ m < n, ¬Decides readings inverted (k + m))
    (htime : ∀ m < n, waited + m * step < timeout)
    (hfits : timeout + step < 18446744073709551616) :
    pollFrom readings inverted step timeout pos k waited =
      pollFrom readings inverted step timeout pos (k + n) (waited + n * step) := by
  -- on the number of looks, the last of which is taken alone
  induction n with
  | zero => rw [Nat.zero_mul, Nat.add_zero, Nat.add_zero]
  | succ n ih =>
    rw [ih (fun m hm => hvain m (by omega)) fun m hm => htime m (by omega),
      pollFrom_succ (hvain n (Nat.lt_succ_self n)) (htime n (Nat.lt_succ_self n)) hfits,
      Nat.succ_mul, Nat.add_assoc, Nat.add_assoc]

end

/-- The delays among the events of polling. -/
theorem count_waited_pollEvents (readings : Nat → Reading) (step : UInt32) (first last : Nat) :
    (pollEvents readings step first last).count (.waited step) = last - first := by
  have hone : (List.count (.waited step) ∘ fun k =>
      [DeviceEvent.read (readings k), .waited step]) = fun _ => 1 := by
    funext k
    simp
  unfold pollEvents
  rw [List.count_append, List.count_flatMap, hone, List.map_const', List.sum_replicate_nat,
    List.length_range', Nat.mul_one]
  simp

end Endstop

/-- What a wait reports when polling ends. -/
def Endstop.PollEnd.outcome (timeout : UInt64) : Endstop.PollEnd → Outcome DeviceError Unit
  | .met => .done ()
  | .broken => .failed .endstop
  | .timedOut => .failed (.endstopTimeout timeout)
  | .overflowed => .crashed

/-! ### The wait of an axis -/

namespace Axis

/-- What a wait with `n` delays leaves: one look more than delays, nothing else at the devices,
and an axis on which only the readings of the endstop have advanced. -/
structure Waited (a : Axis) (e : Endstop) (step : UInt32) (n : Nat)
    (r : Run DeviceEvent Axis DeviceError Unit) : Prop where
  trace : r.trace = Endstop.pollEvents e.readings step e.reads (e.reads + n)
  looks : r.trace.countP DeviceEvent.isLook = n + 1
  delays : r.trace.count (.waited step) = n
  commands : commandsOf r.trace = []
  state : r.state = { a with endstop := some { e with reads := e.reads + n + 1 } }

variable {a : Axis} {e : Endstop} {inverted : Bool} {polling : Polling}

/-- A wait whose last look is known. -/
theorem waited_of_pollFrom {n : Nat} {ending : Endstop.PollEnd} (he : a.endstop = some e)
    (h : Endstop.pollFrom e.readings inverted polling.step.toNat polling.timeout.toNat
      polling.step_pos e.reads 0 = (ending, e.reads + n)) :
    Waited a e polling.step n (awaitEndstop inverted polling a) ∧
      (awaitEndstop inverted polling a).ending = ending.outcome polling.timeout := by
  have hrun : awaitEndstop inverted polling a =
      ⟨Endstop.pollEvents e.readings polling.step e.reads (e.reads + n),
        { a with endstop := some { e with reads := e.reads + n + 1 } },
        ending.outcome polling.timeout⟩ := by
    unfold awaitEndstop
    rw [he]
    dsimp only
    rw [h]
    rfl
  rw [hrun]
  refine ⟨⟨rfl, ?_, ?_, commandsOf_pollEvents _ _ _ _, rfl⟩, rfl⟩
  · rw [Endstop.countP_pollEvents _ _ (Nat.le_add_right _ _)]
    omega
  · rw [Endstop.count_waited_pollEvents]
    omega

/-- Looks in vain cost a delay each, up to as many as cover the timeout. -/
theorem pollFrom_of_vain {n : Nat} (hfits : polling.Fits) (hn : n ≤ polling.rounds)
    (hvain : ∀ m < n, ¬Endstop.Decides e.readings inverted (e.reads + m)) :
    Endstop.pollFrom e.readings inverted polling.step.toNat polling.timeout.toNat
        polling.step_pos e.reads 0 =
      Endstop.pollFrom e.readings inverted polling.step.toNat polling.timeout.toNat
        polling.step_pos (e.reads + n) (n * polling.step.toNat) := by
  have htime : ∀ m < n, 0 + m * polling.step.toNat < polling.timeout.toNat := by
    intro m hm
    rw [Nat.zero_add]
    exact Polling.mul_lt_timeout (Nat.lt_of_lt_of_le hm hn)
  rw [Endstop.pollFrom_of_vain hvain htime hfits, Nat.zero_add]

/-- The first look that ends a wait, if it comes in time. -/
theorem awaitEndstop_of_decides {n : Nat} (he : a.endstop = some e) (hfits : polling.Fits)
    (hn : n ≤ polling.rounds)
    (hvain : ∀ m < n, ¬Endstop.Decides e.readings inverted (e.reads + m))
    (hdecides : Endstop.Decides e.readings inverted (e.reads + n)) :
    Waited a e polling.step n (awaitEndstop inverted polling a) ∧
      (awaitEndstop inverted polling a).ending =
        if e.readings (e.reads + n) = .broken then .failed .endstop else .done () := by
  have hpoll := pollFrom_of_vain hfits hn hvain
  by_cases hbroken : e.readings (e.reads + n) = .broken
  · rw [Endstop.pollFrom_of_broken hbroken] at hpoll
    rw [if_pos hbroken]
    exact waited_of_pollFrom he hpoll
  · rw [Endstop.pollFrom_of_shows hbroken (hdecides.resolve_left hbroken)] at hpoll
    rw [if_neg hbroken]
    exact waited_of_pollFrom he hpoll

/-- Without such a look, the wait takes its whole time. -/
theorem awaitEndstop_of_vain (he : a.endstop = some e) (hfits : polling.Fits)
    (hvain : ∀ n ≤ polling.rounds, ¬Endstop.Decides e.readings inverted (e.reads + n)) :
    Waited a e polling.step polling.rounds (awaitEndstop inverted polling a) ∧
      (awaitEndstop inverted polling a).ending = .failed (.endstopTimeout polling.timeout) := by
  have hpoll := pollFrom_of_vain hfits (Nat.le_refl _) fun m hm => hvain m (Nat.le_of_lt hm)
  rw [Endstop.pollFrom_of_late (hvain _ (Nat.le_refl _)) polling.timeout_le_rounds_mul] at hpoll
  exact waited_of_pollFrom he hpoll

/-- A wait ends, after at most one look more than delays cover its timeout. -/
theorem exists_waited (he : a.endstop = some e) (hfits : polling.Fits) (inverted : Bool) :
    ∃ n ≤ polling.rounds, Waited a e polling.step n (awaitEndstop inverted polling a) ∧
      (awaitEndstop inverted polling a).ending ≠ .crashed := by
  by_cases h : ∃ n, n ≤ polling.rounds ∧ Endstop.Decides e.readings inverted (e.reads + n)
  · -- the least of those looks is the first
    obtain ⟨hle, hdecides⟩ := Nat.find_spec h
    have hvain : ∀ m < Nat.find h, ¬Endstop.Decides e.readings inverted (e.reads + m) :=
      fun m hm hm' => Nat.find_min h hm ⟨by omega, hm'⟩
    obtain ⟨hwaited, hending⟩ := awaitEndstop_of_decides he hfits hle hvain hdecides
    refine ⟨Nat.find h, hle, hwaited, ?_⟩
    rw [hending]
    split <;> nofun
  · obtain ⟨hwaited, hending⟩ :=
      awaitEndstop_of_vain he hfits fun n hn hdecides => h ⟨n, hn, hdecides⟩
    refine ⟨polling.rounds, Nat.le_refl _, hwaited, ?_⟩
    rw [hending]
    nofun

/-- **How often a wait looks and sleeps, and how it ends.**  The first look that fails or shows
the level ends it, if no more delays come before than cover the timeout.  Without such a look
the wait sleeps for the timeout, and for less than one delay more.  Nothing is sent to the
motor in either case.  A timeout that was read from a setup fits. -/
theorem awaitEndstop_exact :
    (∀ (text : String) (p : PrinterSetup), PrinterSetup.ofToml text = .ok p →
      p.limits.polling.Fits) ∧
    ∀ (a : Axis) (e : Endstop) (inverted : Bool) (polling : Polling), a.endstop = some e →
      polling.Fits →
      (polling.step.toNat = max polling.interval.toNat 1 ∧
        (awaitEndstop inverted polling a).ending ≠ .crashed ∧
        (awaitEndstop inverted polling a).trace.countP DeviceEvent.isLook ≤ polling.rounds + 1) ∧
      (∀ n ≤ polling.rounds, (∀ m < n, ¬Endstop.Decides e.readings inverted (e.reads + m)) →
        Endstop.Decides e.readings inverted (e.reads + n) →
        Waited a e polling.step n (awaitEndstop inverted polling a) ∧
          (awaitEndstop inverted polling a).ending =
            if e.readings (e.reads + n) = .broken then .failed .endstop else .done ()) ∧
      ((∀ n ≤ polling.rounds, ¬Endstop.Decides e.readings inverted (e.reads + n)) →
        Waited a e polling.step polling.rounds (awaitEndstop inverted polling a) ∧
          (awaitEndstop inverted polling a).ending = .failed (.endstopTimeout polling.timeout) ∧
          polling.timeout.toNat ≤ polling.rounds * polling.step.toNat ∧
          polling.rounds * polling.step.toNat < polling.timeout.toNat + polling.step.toNat) := by
  refine ⟨fun _ _ => Polling.fits_of_ofToml, fun a e inverted polling he hfits => ⟨?_, ?_, ?_⟩⟩
  · obtain ⟨n, hn, hwaited, hending⟩ := exists_waited he hfits inverted
    refine ⟨polling.toNat_step, hending, ?_⟩
    rw [hwaited.looks]
    omega
  · intro n hn hvain hdecides
    exact awaitEndstop_of_decides he hfits hn hvain hdecides
  · intro hvain
    obtain ⟨hwaited, hending⟩ := awaitEndstop_of_vain he hfits hvain
    exact ⟨hwaited, hending, polling.timeout_le_rounds_mul, polling.rounds_mul_lt⟩

/-- An axis whose endstop shows some readings, the last one over and over. -/
def scripted (script : Array Reading) : Axis :=
  { fresh PrinterSetup.standard.x with endstop := some (.scripted script) }

/-- Looks every three milliseconds for at most seven: an endstop that breaks at the third look
ends the wait there, and one that stays low is looked at four times. -/
theorem awaitEndstop_exact_scripted :
    (Waited (scripted #[.low, .low, .broken]) (.scripted #[.low, .low, .broken]) 3 2
        (awaitEndstop false ⟨3, 7⟩ (scripted #[.low, .low, .broken])) ∧
      (awaitEndstop false ⟨3, 7⟩ (scripted #[.low, .low, .broken])).ending = .failed .endstop) ∧
    Waited (scripted #[.low]) (.scripted #[.low]) 3 3
        (awaitEndstop false ⟨3, 7⟩ (scripted #[.low])) ∧
      (awaitEndstop false ⟨3, 7⟩ (scripted #[.low])).ending = .failed (.endstopTimeout 7) := by
  have hbroken := (awaitEndstop_exact.2 (scripted #[.low, .low, .broken])
    (.scripted #[.low, .low, .broken]) false ⟨3, 7⟩ rfl (by decide)).2.1
  have hlow := (awaitEndstop_exact.2 (scripted #[.low]) (.scripted #[.low]) false ⟨3, 7⟩ rfl
    (by decide)).2.2
  refine ⟨hbroken 2 (by decide) (by decide) (by decide), ?_⟩
  obtain ⟨hwaited, hending, -⟩ := hlow (by decide)
  exact ⟨hwaited, hending⟩

end Axis

end TachoPrint
