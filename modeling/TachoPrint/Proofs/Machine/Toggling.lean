import TachoPrint.Proofs.Machine.Encoder
import TachoPrint.Proofs.Machine.Homing

/-!
# Homing on simulated hardware

A simulated endstop changes at every look.  So polling it for any time at all meets the
level at the first look or at the second one, and the next look is in vain.  A search for
the endstop therefore takes two looks or three, whichever way round the endstop is read and
however often it was looked at before.  Nothing but arithmetic can go wrong.

## Main definitions

* `Endstop.shows` — a reading meets the level that polling waits for.
* `Axis.homingLooks` — the looks that homing an axis takes.
* `Axis.HomingFits` — the arithmetic of homing has answers.

## Main results

* `Endstop.pollFrom_toggling` — polling takes one look or two.
* `Axis.home_of_simulated` — **homing succeeds exactly when its arithmetic has answers**, with
  two looks or three.
-/

namespace TachoPrint

open TachoPrint.Action

/-! ### Polling -/

namespace Endstop

/-- A reading meets the level that polling waits for. -/
def shows (readings : Nat → Reading) (inverted : Bool) (k : Nat) : Bool :=
  (readings k == .high) != inverted

theorem shows_not (readings : Nat → Reading) (inverted : Bool) (k : Nat) :
    shows readings (!inverted) k = !shows readings inverted k := by
  unfold shows
  cases readings k == .high <;> cases inverted <;> rfl

/-- The next reading of an endstop that changes at every look is the other one. -/
@[simp] theorem shows_toggling_succ (inverted : Bool) (k : Nat) :
    shows toggling.readings inverted (k + 1) = !shows toggling.readings inverted k := by
  have hstep : (toggling.readings (k + 1) == .high) = !(toggling.readings k == .high) := by
    unfold toggling
    by_cases h : k % 2 = 0
    · have hodd : (k + 1) % 2 ≠ 0 := by omega
      simp [h, hodd]
    · have heven : (k + 1) % 2 = 0 := by omega
      simp [h, heven]
  unfold shows
  rw [hstep]
  cases toggling.readings k == .high <;> cases inverted <;> rfl

/-- Once a level was met, at the first look or at the second, the next look meets the
other level. -/
@[simp] theorem shows_toggling_next (inverted : Bool) (k : Nat) :
    shows toggling.readings (!inverted)
      (k + if shows toggling.readings inverted k then 1 else 2) = true := by
  cases h : shows toggling.readings inverted k with
  | true =>
    rw [if_pos rfl, shows_not, shows_toggling_succ, h]
    rfl
  | false =>
    rw [if_neg (by decide), shows_not, shows_toggling_succ, shows_toggling_succ, h]
    rfl

theorem toggling_ne_broken (k : Nat) : toggling.readings k ≠ .broken := by
  unfold toggling
  dsimp only
  split <;> nofun

section

variable {inverted : Bool} {step timeout : Nat} {pos : 0 < step}

theorem pollFrom_of_shows {readings : Nat → Reading} {k : Nat} (hread : readings k ≠ .broken)
    (h : shows readings inverted k = true) (waited : Nat) :
    pollFrom readings inverted step timeout pos k waited = (.met, k) := by
  have hmet : ((readings k == .high) != inverted) = true := h
  rw [pollFrom, if_neg hread, if_pos hmet]

/-- **Polling for any time at all meets the level at the first look or at the second.** -/
theorem pollFrom_toggling (htimeout : 0 < timeout) (hstep : step < 4294967296) (k : Nat) :
    pollFrom toggling.readings inverted step timeout pos k 0 =
      (.met, if shows toggling.readings inverted k then k else k + 1) := by
  cases h : shows toggling.readings inverted k with
  | true => exact pollFrom_of_shows (toggling_ne_broken k) h 0
  | false =>
    have hnot : ¬((toggling.readings k == .high) != inverted) = true := by
      change ¬shows toggling.readings inverted k = true
      rw [h]
      decide
    have hnext : shows toggling.readings inverted (k + 1) = true := by
      rw [shows_toggling_succ, h]
      rfl
    rw [pollFrom, if_neg (toggling_ne_broken k), if_neg hnot, if_neg (by omega), if_neg (by omega),
      pollFrom_of_shows (toggling_ne_broken (k + 1)) hnext]
    rfl

end

/-- Polling ends at the first reading or later. -/
theorem le_pollFrom (readings : Nat → Reading) (inverted : Bool) (step timeout : Nat)
    (pos : 0 < step) (k waited : Nat) :
    k ≤ (pollFrom readings inverted step timeout pos k waited).2 := by
  fun_induction pollFrom readings inverted step timeout pos k waited with
  | case1 | case2 | case3 | case4 => exact Nat.le_refl _
  | case5 k waited hbroken hvain htime hover ih => omega

/-- The looks among the events of polling. -/
theorem countP_pollEvents (readings : Nat → Reading) (step : UInt32) {first last : Nat}
    (h : first ≤ last) :
    (pollEvents readings step first last).countP DeviceEvent.isLook = last + 1 - first := by
  have hone : (List.countP DeviceEvent.isLook ∘ fun k =>
      [DeviceEvent.read (readings k), .waited step]) = fun _ => 1 := rfl
  have hlast : [DeviceEvent.read (readings last)].countP DeviceEvent.isLook = 1 := rfl
  unfold pollEvents
  rw [List.countP_append, List.countP_flatMap, hone, List.map_const', List.sum_replicate_nat,
    List.length_range', hlast]
  omega

end Endstop

/-! ### Looks, told from the events -/

namespace Axis

/-- The readings that the endstop of an axis has shown so far. -/
def reads (a : Axis) : Nat := (a.endstop.map (·.reads)).getD 0

/-- The events tell how often the endstop was looked at. -/
def Looked (a : Axis) (t : List DeviceEvent) (a' : Axis) : Prop :=
  a'.reads = a.reads + t.countP DeviceEvent.isLook

theorem steady_looked : Steady (fun _ => True) Looked where
  chains :=
    { nil := fun _ => rfl
      append := fun h h' => by
        unfold Looked at h h' ⊢
        rw [h', h, List.countP_append, Nat.add_assoc] }
  command c a := by
    rw [command_apply]
    have hnone : (Motor.issue c a.motor).trace.countP DeviceEvent.isLook = 0 := by
      unfold Motor.issue
      dsimp only
      split
      · rfl
      · split <;> rfl
    unfold Looked
    rw [hnone]
    rfl
  poll inverted polling a := by
    unfold awaitEndstop Looked
    split
    · rfl
    · next e he =>
      have hle := Endstop.le_pollFrom e.readings inverted polling.step.toNat
        polling.timeout.toNat polling.step_pos e.reads 0
      dsimp only
      rw [Endstop.countP_pollEvents _ _ hle]
      simp only [reads, he, Option.map_some, Option.getD_some]
      omega
  setPosition p _ a := rfl

/-- The axis after some looks at its endstop. -/
def looked (a : Axis) (n : Nat) : Axis :=
  { a with endstop := a.endstop.map fun e => { e with reads := e.reads + n } }

@[simp] theorem looked_looked (a : Axis) (m n : Nat) :
    (a.looked m).looked n = a.looked (m + n) := by
  unfold looked
  cases a.endstop with
  | none => rfl
  | some e =>
    simp only [Option.map_some]
    rw [Nat.add_assoc]

/-! ### Actions that lead from one axis to another -/

/-- From `a` the action succeeds, and but for the motor, which obeys, it leaves `b`. -/
structure Leads (x : Act Unit) (a b : Axis) : Prop where
  ending : (x a).ending = .done ()
  bare : (x a).state.bare = b.bare
  obeys : (x a).state.motor.Obeys

variable {x : Act Unit} {f : Unit → Act Unit} {a b c : Axis}

theorem Leads.bind (hx : Leads x a b)
    (hf : ∀ b', b'.bare = b.bare → b'.motor.Obeys → Leads (f ()) b' c) : Leads (x >>= f) a c := by
  obtain ⟨hending, hbare, hobeys⟩ := hf _ hx.bare hx.obeys
  refine ⟨?_, ?_, ?_⟩
  · rw [bind_of_done hx.ending]
    exact hending
  · rw [bind_of_done hx.ending]
    exact hbare
  · rw [bind_of_done hx.ending]
    exact hobeys

theorem Leads.get_bind {g : Axis → Act Unit} (h : Leads (g a) a b) : Leads (get >>= g) a b :=
  ⟨h.ending, h.bare, h.obeys⟩

theorem Leads.crashed_of_bind (hx : Leads x a b)
    (hf : ∀ b', b'.bare = b.bare → b'.motor.Obeys → (f () b').ending = .crashed) :
    ((x >>= f) a).ending = .crashed := by
  rw [bind_of_done hx.ending]
  exact hf _ hx.bare hx.obeys

theorem Drives.leads (hx : Drives x) (ha : a.motor.Obeys) (hb : a.bare = b.bare) :
    Leads x a b := by
  obtain ⟨-, ⟨-, hbare⟩, hobeys⟩ := hx a ha
  exact ⟨hx.ending_eq ha, hbare.trans hb, hobeys⟩

/-! ### Homing -/

variable {polling : Polling} {e : Endstop} {inverted : Bool}

/-- Polling a simulated endstop succeeds. -/
theorem leads_awaitEndstop (ha : a.motor.Obeys) (hb : a.bare = b.bare) (he : b.endstop = some e)
    (htoggles : e.readings = Endstop.toggling.readings) (htimeout : 0 < polling.timeout.toNat) :
    Leads (awaitEndstop inverted polling) a
      (b.looked (if Endstop.shows e.readings inverted e.reads then 1 else 2)) := by
  have hend : a.endstop = some e := (congrArg endstop hb).trans he
  have hpoll : Endstop.pollFrom e.readings inverted polling.step.toNat polling.timeout.toNat
      polling.step_pos e.reads 0 =
        (.met, if Endstop.shows e.readings inverted e.reads then e.reads else e.reads + 1) := by
    obtain ⟨readings, reads⟩ := e
    obtain rfl := htoggles
    exact Endstop.pollFrom_toggling htimeout (UInt32.toNat_lt _) reads
  unfold awaitEndstop
  refine ⟨?_, ?_, ?_⟩
  · simp only [hend, hpoll]
  · simp only [hend, hpoll, looked, he, Option.map_some]
    -- the two axes have lost their motors, so with the same endstop they are the same
    have hsame : ∀ o : Option Endstop,
        ({ a with endstop := o } : Axis).bare = ({ b with endstop := o } : Axis).bare :=
      fun o => congrArg (fun c : Axis => { c with endstop := o }) hb
    cases Endstop.shows e.readings inverted e.reads <;> exact hsame _
  · simp only [hend]
    exact ha

/-- The looks that homing takes. -/
def homingLooks (a : Axis) : Nat :=
  match a.endstop with
  | none => 0
  | some e => if Endstop.shows e.readings a.setup.homing.invertSensor e.reads then 2 else 3

/-- The search for a simulated endstop succeeds if it has speeds. -/
theorem leads_seek (ha : a.Simulated) (he : a.endstop.isSome) (hfits : a.SeekFits)
    (htimeout : 0 < polling.timeout.toNat) :
    Leads (seek polling) a (a.looked a.homingLooks) := by
  obtain ⟨speed, back, hspeed, hback⟩ := hfits.exists_speeds
  obtain ⟨e, he⟩ := Option.isSome_iff_exists.mp he
  have htoggles := ha.toggles e he
  let inverted := a.setup.homing.invertSensor
  let first := if Endstop.shows e.readings inverted e.reads then 1 else 2
  -- the second level is met at once, since the first one was met at the look before
  have hsecond : Endstop.shows e.readings (!inverted) (e.reads + first) = true := by
    obtain ⟨readings, reads⟩ := e
    obtain rfl := htoggles
    exact Endstop.shows_toggling_next inverted reads
  have hlooks : a.homingLooks = first + 1 := by
    unfold homingLooks
    rw [he]
    dsimp only [first]
    split <;> rfl
  have hlooked : (a.looked first).endstop = some { e with reads := e.reads + first } := by
    unfold looked
    rw [he]
    rfl
  rw [seek_eq]
  apply Leads.get_bind
  rw [hspeed]
  apply ((drives_setOut speed).leads ha.obeys rfl).bind
  intro b hb hbo
  apply (leads_awaitEndstop hbo hb he htoggles htimeout).bind
  intro b hb hbo
  rw [hback]
  apply ((drives_setOut back).leads hbo hb).bind
  intro b hb hbo
  apply (leads_awaitEndstop hbo hb hlooked htoggles htimeout).bind
  intro b hb hbo
  rw [if_pos hsecond, looked_looked, ← hlooks] at hb
  exact drives_stop.leads hbo hb

/-- Without a speed in either direction the search crashes, if only on the way back. -/
theorem seek_crashed_of_not_fits (ha : a.Simulated) (he : a.endstop.isSome) (hfits : ¬a.SeekFits)
    (htimeout : 0 < polling.timeout.toNat) : (seek polling a).ending = .crashed := by
  obtain ⟨e, he⟩ := Option.isSome_iff_exists.mp he
  have hlowest : a.toCounts a.setup.homing.speed = Int32.minValue := Decidable.not_not.mp hfits
  have hnone : negCounts? Int32.minValue = none := if_pos rfl
  have hspeed : a.seekSpeed? = if a.setup.homing.invertMotor then none
      else some Int32.minValue := by
    unfold seekSpeed?
    rw [hlowest]
    rfl
  rw [seek_eq, get_bind_apply, hspeed]
  cases a.setup.homing.invertMotor with
  | true => rfl
  | false =>
    apply ((drives_setOut _).leads ha.obeys rfl).crashed_of_bind
    intro b hb hbo
    apply (leads_awaitEndstop hbo hb he (ha.toggles e he) htimeout).crashed_of_bind
    intro b _ _
    rw [hnone]
    rfl

/-- The search does not turn the motor by counts. -/
theorem encoder_seek (hs : (seek polling a).ending ≠ .crashed) :
    (seek polling a).state.motor.encoder = a.motor.encoder := by
  obtain ⟨speed, hspeed⟩ := exists_seekSpeed hs
  apply Counted.encoder_eq (steady_counted.seek polling a)
  intro c hc
  have hmem := (follows_seek polling hspeed).mem hc
  simp only [seekScript, List.mem_cons, List.not_mem_nil, or_false] at hmem
  rcases hmem with rfl | rfl | rfl | rfl | rfl <;> simp [MotorCommand.call]

/-- The encoder has room for the offset move. -/
def OffsetFits (a : Axis) : Prop := a.HasRoom (a.toCounts a.setup.homing.offset)

instance (a : Axis) : Decidable a.OffsetFits := inferInstanceAs (Decidable (a.HasRoom _))

/-- After the search homing succeeds if the encoder has room for the offset move. -/
theorem finishHome_of_obeys (ha : a.motor.Obeys) :
    (a.OffsetFits → Leads finishHome a { a with position := 0 }) ∧
      (¬a.OffsetFits → (finishHome a).ending = .crashed) := by
  obtain ⟨hturn, hcrash⟩ := turn_of_obeys ha (a.toCounts a.setup.homing.speed.abs)
    (a.toCounts a.setup.homing.offset)
  rw [← applyOffset_eq] at hturn hcrash
  constructor
  · intro hfits
    obtain ⟨hdone, -, hbare⟩ := hturn hfits
    have hfinish : finishHome a = ⟨(applyOffset a).trace ++ [],
        { (applyOffset a).state with position := 0 }, .done ()⟩ := bind_of_done hdone
    refine ⟨?_, ?_, ?_⟩
    · rw [hfinish]
    · rw [hfinish]
      exact congrArg (fun b : Axis => { b with position := 0 }) hbare
    · rw [hfinish]
      exact steady_obeys.applyOffset a ha
  · intro hfits
    exact congrArg Run.ending (bind_of_crashed (hcrash hfits).1)

/-- The arithmetic of homing has answers. -/
def HomingFits (a : Axis) : Prop := a.endstop.isSome → a.SeekFits ∧ a.OffsetFits

instance (a : Axis) : Decidable a.HomingFits := inferInstanceAs (Decidable (_ → _))

/-- **Homing on simulated hardware succeeds exactly when its arithmetic has answers.** -/
theorem home_of_simulated (ha : a.Simulated) (htimeout : 0 < polling.timeout.toNat) :
    (a.HomingFits → Leads (home polling) a { a.looked a.homingLooks with position := 0 }) ∧
      (¬a.HomingFits → (home polling a).ending = .crashed) := by
  cases he : a.endstop.isSome with
  | false =>
    have hhome : home polling a = ⟨[], { a with position := 0 }, .done ()⟩ :=
      home_of_no_endstop he
    have hlooked : a.looked a.homingLooks = a := by
      obtain ⟨setup, motor, endstop, countsPerTurn, position⟩ := a
      obtain rfl : endstop = none := Option.not_isSome_iff_eq_none.mp ((Bool.not_eq_true _).mpr he)
      rfl
    rw [hlooked]
    refine ⟨fun _ => ⟨by rw [hhome], by rw [hhome], by rw [hhome]; exact ha.obeys⟩, ?_⟩
    intro hfits
    refine absurd ?_ hfits
    intro h
    rw [he] at h
    cases h
  | true =>
    by_cases hseek : a.SeekFits
    · have hleads := leads_seek ha he hseek htimeout
      let b := (seek polling a).state
      -- the search changes neither how the axis is built nor its encoder
      have hoffset : b.OffsetFits ↔ a.OffsetFits := by
        obtain ⟨hsetup, hcounts⟩ := steady_build.seek polling a
        unfold OffsetFits HasRoom
        rw [toCounts_of_build hsetup hcounts, hsetup, encoder_seek (by simp [hleads.ending])]
      obtain ⟨hdone, hcrash⟩ := finishHome_of_obeys hleads.obeys
      have hhome := home_of_seek_done he hleads.ending
      constructor
      · intro hfits
        obtain ⟨hending, hbare, hobeys⟩ := hdone (hoffset.mpr (hfits he).2)
        refine ⟨by rw [hhome]; exact hending, ?_, by rw [hhome]; exact hobeys⟩
        rw [hhome]
        exact hbare.trans (congrArg (fun c : Axis => { c with position := 0 }) hleads.bare)
      · intro hfits
        rw [hhome]
        exact hcrash fun h => hfits fun _ => ⟨hseek, hoffset.mp h⟩
    · refine ⟨fun hfits => absurd (hfits he).1 hseek, ?_⟩
      intro _
      exact home_of_seek_crashed he (seek_crashed_of_not_fits ha he hseek htimeout)

end Axis

end TachoPrint
