import TachoPrint.Proofs.Machine.Program
import TachoPrint.Proofs.Machine.Steady
import TachoPrint.Proofs.Motion.Plan
import TachoPrint.Setup.Validity

/-!
# The head stays within its limits

Places are clamped by the plan of a move, heights are refused by the vertical axis, and
speeds are refused by the head.  Together they keep the logical state within the limits
of a usable setup, whatever fails on the way.

## Main definitions

* `HeadLimits.Allows` — the coordinates that the limits allow along an axis.
* `Instruction.WithinLimits` — an instruction with finite numbers that states no place
  beyond the limits.
* `Head.Sound` — the invariant.
* `Head.Reached` — the heads that programs and instructions can reach.

## Main results

* `Head.sound_execute` — an instruction keeps the invariant, however it ends.
* `Head.linearMove_ne_badVelocity` — a move at the current speed is not refused for it.
* `Head.within_limits_of_reached` — **every head reached is within its limits.**
-/

namespace TachoPrint

open TachoPrint.Action

/-! ### Limits -/

/-- The coordinates that the limits allow along an axis. -/
def HeadLimits.Allows (limits : HeadLimits) : AxisName → Binary64 → Prop
  | .x, p => p.Between (-limits.travel) limits.travel
  | .y, p => p.Between (-limits.travel) limits.travel
  | .z, p => p.isFinite ∧ p.Between 0 limits.height

instance (limits : HeadLimits) : (n : AxisName) → (p : Binary64) → Decidable (limits.Allows n p)
  | .x, _ => inferInstanceAs (Decidable (_ ∧ _))
  | .y, _ => inferInstanceAs (Decidable (_ ∧ _))
  | .z, _ => inferInstanceAs (Decidable (_ ∧ _))

/-- Limits that are positive and finite. -/
structure HeadLimits.Usable (limits : HeadLimits) : Prop where
  velocity : limits.velocity.isPositive
  travel : limits.travel.isPositive
  height : limits.height.isPositive

namespace HeadLimits

variable {limits : HeadLimits}

/-- Where homing leaves an axis is allowed. -/
theorem Usable.allows_zero (hl : limits.Usable) (n : AxisName) : limits.Allows n 0 := by
  cases n with
  | x => exact Binary64.between_zero hl.travel
  | y => exact Binary64.between_zero hl.travel
  | z =>
    obtain ⟨hnan, -, hle⟩ := Binary64.between_zero hl.height
    exact ⟨Binary64.isFinite_zero, hnan, Binary64.atMost_refl hnan, hle⟩

@[grind →] theorem Allows.isNaN {n : AxisName} {p : Binary64} (h : limits.Allows n p) :
    p.isNaN = false := by
  cases n with
  | x => exact h.1
  | y => exact h.1
  | z => exact h.2.1

/-- The vertical axis refuses the heights that are not allowed. -/
theorem Usable.allows_of_allowedHeight (hl : limits.Usable) {p : Binary64}
    (h : Axis.AllowedHeight p limits.height) : limits.Allows .z p := by
  unfold Axis.AllowedHeight at h
  rw [Bool.or_eq_false_iff, Bool.or_eq_false_iff, Bool.not_eq_false'] at h
  obtain ⟨⟨hfinite, hlow⟩, hhigh⟩ := h
  have hnan := Binary64.isNaN_of_isFinite hfinite
  have hheight := Binary64.isNaN_of_isFinite (Binary64.isFinite_of_isPositive hl.height)
  have hzero := Binary64.isNaN_of_isFinite Binary64.isFinite_zero
  exact ⟨hfinite, hnan, Binary64.atMost_of_not_less hnan hzero hlow,
    Binary64.atMost_of_not_less hheight hnan hhigh⟩

end HeadLimits

/-- The numbers of the instruction are finite, and the places that it states are
allowed. -/
def Instruction.WithinLimits (limits : HeadLimits) : Instruction → Prop
  | .move m => m.goal.Finite ∧ ∀ v ∈ m.feed, v.isFinite
  | .setPosition c => c.Finite ∧ (∀ p ∈ c.x, limits.Allows .x p) ∧
      (∀ p ∈ c.y, limits.Allows .y p) ∧ ∀ p ∈ c.z, limits.Allows .z p
  | _ => True

instance (limits : HeadLimits) : (i : Instruction) → Decidable (i.WithinLimits limits)
  | .move _ => inferInstanceAs (Decidable (_ ∧ _))
  | .setPosition _ => inferInstanceAs (Decidable (_ ∧ _))
  | .pause _ => .isTrue trivial
  | .setPositioning _ => .isTrue trivial
  | .home _ => .isTrue trivial
  | .release _ => .isTrue trivial

/-! ### Usable setups -/

@[simp] theorem orFault_eq_none_iff {holds : Bool} {fault : SetupFault} :
    orFault holds fault = none ↔ holds = true := by
  unfold orFault
  cases holds <;> simp

@[grind →] theorem AxisSetup.speed_isPositive {name : AxisName} {a : AxisSetup}
    (h : a.fault? name = none) : a.speed.isPositive := by
  unfold fault? at h
  rw [Option.or_eq_none_iff, Option.or_eq_none_iff, orFault_eq_none_iff, orFault_eq_none_iff] at h
  exact h.2.1

theorem AxisSetup.homingSpeed_isPositive {name : AxisName} {a : AxisSetup}
    (h : a.fault? name = none) : a.homing.speed.isPositive := by
  unfold fault? at h
  rw [Option.or_eq_none_iff, Option.or_eq_none_iff, orFault_eq_none_iff, orFault_eq_none_iff,
    orFault_eq_none_iff] at h
  exact h.2.2

theorem AxisSetup.ratio_isFinite {name : AxisName} {a : AxisSetup} (h : a.fault? name = none) :
    a.degreesPerMm.isFinite := by
  unfold fault? at h
  rw [Option.or_eq_none_iff, orFault_eq_none_iff] at h
  exact (Bool.and_eq_true_iff.mp h.1).1

namespace PrinterSetup

/-- A setup without a fault has no fault in any of its parts. -/
theorem eq_none_of_fault? {p : PrinterSetup} (h : p.fault? = none) :
    p.z.fault? .z = none ∧ p.limits.Usable := by
  unfold fault? at h
  rw [List.findSome?_eq_none_iff] at h
  simp only [List.mem_cons, List.not_mem_nil, or_false, id_eq, forall_eq_or_imp, forall_eq,
    orFault_eq_none_iff] at h
  obtain ⟨-, -, hz, -, hv, ht, hh, -⟩ := h
  exact ⟨hz, hv, ht, hh⟩

end PrinterSetup

/-! ### The invariant -/

/-- The setup of an axis stays, and its position is allowed if it was allowed. -/
def Axis.StaysAllowed (Place : Binary64 → Prop) (a : Axis) (_ : List DeviceEvent) (a' : Axis) :
    Prop := a'.setup = a.setup ∧ (Place a.position → Place a'.position)

theorem Axis.steady_staysAllowed (Place : Binary64 → Prop) :
    Axis.Steady Place (StaysAllowed Place) where
  chains :=
    { nil := fun _ => ⟨rfl, id⟩
      append := fun h h' => ⟨h'.1.trans h.1, h'.2 ∘ h.2⟩ }
  command c a := by
    rw [command_apply]
    exact ⟨rfl, id⟩
  poll inverted polling a := by
    unfold awaitEndstop
    split <;> exact ⟨rfl, id⟩
  setPosition p hp a := ⟨rfl, fun _ => hp⟩

namespace Head

theorem steady_staysAllowed (Place : AxisName → Binary64 → Prop) : Steady Place
    (fun n => Axis.StaysAllowed (Place n)) (fun _ _ _ => True) where
  axis n := Axis.steady_staysAllowed (Place n)
  extruder :=
    { chains := { nil := fun _ => trivial, append := fun _ _ => trivial }
      command := fun _ _ => trivial }

/-- The head has these limits and is within them; it has a usable speed, and so has its
vertical axis. -/
structure Sound (limits : HeadLimits) (h : Head) : Prop where
  limits_eq : h.limits = limits
  position : ∀ n, limits.Allows n (h.axis n).position
  velocity : h.velocity.isPositive
  speed : h.z.setup.speed.isPositive

variable {limits : HeadLimits} {h : Head}

/-- What happens at allowed places keeps the invariant. -/
theorem Sound.of_jointwise {h' : Head} {t : List Event} (hs : h.Sound limits)
    (hj : Jointwise (fun n => Axis.StaysAllowed (limits.Allows n)) (fun _ _ _ => True) h t h') :
    h'.Sound limits where
  limits_eq := hj.limits.trans hs.limits_eq
  position n := (hj.axis n).2 (hs.position n)
  velocity := hj.velocity hs.velocity
  speed := by
    have hsetup : h'.z.setup = h.z.setup := (hj.axis .z).1
    rw [hsetup]
    exact hs.speed

/-- From a sound head an instruction within the limits leads to allowed places only. -/
theorem Sound.admits (hl : limits.Usable) (hs : h.Sound limits) {i : Instruction}
    (hi : i.WithinLimits limits) : Admits limits.Allows i h := by
  cases i with
  | move m =>
    intro v plan hplan
    rw [hs.limits_eq] at hplan
    have htarget := Position.target?_of_plan hplan
    obtain ⟨hx, hy⟩ := Position.between_of_target? (hs.position .x).isNaN (hs.position .y).isNaN
      hi.1 htarget
    rw [Binary64.abs_of_isPositive hl.travel] at hx hy
    -- the height is any number at all here; the vertical axis refuses the wrong ones
    refine ⟨hx, hy, fun hz => hl.allows_of_allowedHeight ?_⟩
    rwa [hs.limits_eq] at hz
  | setPosition c => exact hi.2
  | home axes => exact hl.allows_zero
  | pause micros => trivial
  | setPositioning mode => trivial
  | release axes => trivial

/-- **An instruction keeps the invariant**, however it ends. -/
theorem sound_execute (hl : limits.Usable) {i : Instruction} (hi : i.WithinLimits limits)
    (hs : h.Sound limits) : (execute i h).state.Sound limits :=
  hs.of_jointwise (jointwise_execute (steady_staysAllowed limits.Allows) (hs.admits hl hi))

theorem sound_runProgram (hl : limits.Usable) {p : List Instruction}
    (hp : ∀ i ∈ p, i.WithinLimits limits) (hs : h.Sound limits) :
    (runProgram p h).state.Sound limits := by
  refine keeps_runProgram (chains_preserved (Sound limits))
    (fun i hi h hs => sound_execute hl (hp i hi) hs) ?_ h hs
  intro h hs
  exact hs.of_jointwise ((steady_staysAllowed limits.Allows).stopAll h)

end Head

/-! ### Refusals for a speed -/

/-- The refusal is not for a speed. -/
def DeviceError.SparesSpeed (e : DeviceError) : Prop := ∀ v, e ≠ .motion (.badVelocity v)

theorem DeviceError.IsMotor.sparesSpeed {e : DeviceError} (he : e.IsMotor) : e.SparesSpeed := by
  obtain ⟨fault, rfl⟩ := he
  simp [SparesSpeed]

theorem DeviceError.sparesSpeed_outOfRange (target highest : Binary64) :
    (DeviceError.outOfRange target highest).SparesSpeed := by
  simp [SparesSpeed]

/-! ### Refusals of motors -/

/-- A motor is refused for its own failure and for nothing else. -/
theorem Motor.refuses_issue (c : MotorCommand) : Refuses DeviceError.IsMotor (issue c) := by
  intro m e h
  simp only [issue] at h
  split at h
  · cases h
    exact ⟨_, rfl⟩
  · split at h <;> cases h

namespace Axis

theorem refuses_command (c : MotorCommand) : Refuses DeviceError.IsMotor (command c) :=
  fun a e h => Motor.refuses_issue c a.motor e h

theorem refuses_runAt (velocity : Binary64) : Refuses DeviceError.IsMotor (runAt velocity) := by
  intro a e h
  unfold runAt at h
  rw [get_bind_apply] at h
  split at h
  · exact refuses_command .stop a e h
  · exact (refuses_command _).bind (fun _ _ _ => refuses_command .run) a e h

theorem refuses_turn (speed counts : Int32) :
    Refuses DeviceError.IsMotor (turn speed counts) := by
  unfold turn
  split
  · exact (refuses_command _).bind fun _ _ _ => (refuses_command _).bind fun _ _ _ =>
      refuses_command .await
  · exact fun _ _ h => nomatch h

/-- A change of height is not refused for the speed of an axis with a usable one. -/
theorem sparesSpeed_of_moveToHeight {height highest : Binary64} {a : Axis} {e : DeviceError}
    (ha : a.setup.speed.isPositive) (h : (moveToHeight height highest a).ending = .failed e) :
    e.SparesSpeed := by
  unfold moveToHeight at h
  split at h
  · cases h
    exact DeviceError.sparesSpeed_outOfRange _ _
  · rw [get_bind_apply] at h
    unfold moveTo checkVelocity at h
    rw [if_pos ha] at h
    dsimp only at h
    rw [get_bind_apply] at h
    rcases failed_of_bind_failed h with hturn | ⟨_, -, hplace⟩
    · exact (refuses_turn _ _ a e hturn).sparesSpeed
    · cases hplace

end Axis

theorem Extruder.refuses_command (c : MotorCommand) : Refuses DeviceError.IsMotor (command c) :=
  fun e _ h => Motor.refuses_issue c e.motor _ h

theorem Extruder.refuses_runAt (velocity : Binary64) :
    Refuses DeviceError.IsMotor (runAt velocity) := by
  intro a e h
  unfold runAt at h
  rw [get_bind_apply] at h
  split at h
  · exact refuses_command .stop a e h
  · exact (refuses_command _).bind (fun _ _ _ => refuses_command .run) a e h

namespace Head

variable {limits : HeadLimits} {h : Head}

theorem refuses_onAxis {n : AxisName} {act : Axis.Act Unit}
    (hact : Refuses DeviceError.IsMotor act) :
    Refuses DeviceError.IsMotor (onAxis n act) := fun h e he => hact (h.axis n) e he

theorem refuses_onExtruder {act : Extruder.Act Unit} (hact : Refuses DeviceError.IsMotor act) :
    Refuses DeviceError.IsMotor (onExtruder act) := by
  intro h e he
  unfold onExtruder at he
  split at he
  · cases he
  · next f hf => exact hact f e he

theorem refuses_start (plan : Plan) : Refuses DeviceError.IsMotor (start plan) :=
  (refuses_onAxis (Axis.refuses_runAt _)).bind fun _ _ _ =>
    (refuses_onAxis (Axis.refuses_runAt _)).bind fun _ _ _ =>
      refuses_onExtruder (Extruder.refuses_runAt _)

theorem refuses_stopAll : Refuses DeviceError.IsMotor stopAll := by
  intro h e he
  rw [stopAll_eq] at he
  dsimp only at he
  cases hfault : h.stopFault? with
  | none =>
    rw [hfault] at he
    cases he
  | some fault =>
    rw [hfault] at he
    cases he
    exact ⟨fault, rfl⟩

theorem refuses_settle {plan : Plan} {started : Except DeviceError Unit}
    (hstarted : ∀ e, started = .error e → e.IsMotor) :
    Refuses DeviceError.IsMotor (settle plan started) := by
  refine (Refuses.attempt stopAll).bind ?_
  intro s stopped hstopped
  refine Refuses.bind ?_ fun _ _ _ _ _ he => nomatch he
  intro h e he
  cases started with
  | error cause =>
    cases he
    exact hstarted e rfl
  | ok _ =>
    cases stopped with
    | error cause =>
      cases he
      exact refuses_stopAll.of_attempt hstopped
    | ok _ => cases he

theorem refuses_runTimed (plan : Plan) : Refuses DeviceError.IsMotor (runTimed plan) := by
  rw [runTimed_eq]
  refine (Refuses.attempt _).bind ?_
  intro s started hstarted
  refine Refuses.bind ?_ fun _ _ _ => refuses_settle ?_
  · intro h e he
    split at he <;> cases he
  · intro e he
    subst he
    exact (refuses_start plan).of_attempt hstarted

theorem sparesSpeed_of_carryOut {plan : Plan} {e : DeviceError} (hz : h.z.setup.speed.isPositive)
    (he : (carryOut plan h).ending = .failed e) : e.SparesSpeed := by
  rw [carryOut_eq, get_bind_apply] at he
  rcases failed_of_bind_failed he with hheight | ⟨_, -, hplane⟩
  · split at hheight
    · exact Axis.sparesSpeed_of_moveToHeight hz hheight
    · cases hheight
  · split at hplane
    · exact (refuses_runTimed plan _ e hplane).sparesSpeed
    · cases hplane

/-- **A move at the current speed is not refused for its speed**, if the head and the
vertical axis have usable ones. -/
theorem linearMove_ne_badVelocity {m : Move} (hm : m.feed = none) (hv : h.velocity.isPositive)
    (hz : h.z.setup.speed.isPositive) (v : Binary64) :
    (linearMove m h).ending ≠ .failed (.motion (.badVelocity v)) := by
  intro he
  rw [linearMove_eq, hm] at he
  dsimp only at he
  rw [pure_bind_apply] at he
  split at he
  · unfold follow at he
    rw [get_bind_apply] at he
    -- either the plan is refused or what it asks for is
    rcases failed_of_bind_failed he with hplan | ⟨plan, -, hcarry⟩
    · cases hp : h.position.plan m.goal h.mode h.velocity h.limits.travel with
      | done plan =>
        rw [hp] at hplan
        cases hplan
      | failed cause =>
        rw [hp] at hplan
        cases hplan
        exact Position.plan_ne_badVelocity hv v hp
      | crashed =>
        rw [hp] at hplan
        cases hplan
    · exact sparesSpeed_of_carryOut hz hcarry v rfl
  · cases he

/-! ### Heads that are reached -/

theorem assembleAxis_done {hw : Hardware} {n : AxisName} {setup : AxisSetup} {a : Axis}
    (h : (assembleAxis hw n setup ()).ending = .done a) : a.setup = setup ∧ a.position = 0 := by
  obtain ⟨⟨b, u⟩, hb, hdone⟩ := exists_of_bind_done h
  obtain rfl := Outcome.done.inj hdone
  obtain ⟨⟨counts, motor⟩, -, hbuilt⟩ := exists_of_bind_done (done_of_apart_done hb)
  obtain rfl := Outcome.done.inj hbuilt
  exact ⟨rfl, rfl⟩

/-- A head that was just put together from a usable setup. -/
theorem sound_of_assemble {setup : PrinterSetup} {hw : Hardware} (hsetup : setup.fault? = none)
    (h₀ : (assemble setup hw ()).ending = .done h) : h.Sound setup.limits := by
  obtain ⟨hz, hl⟩ := PrinterSetup.eq_none_of_fault? hsetup
  obtain ⟨x, hx, h₁⟩ := exists_of_bind_done h₀
  obtain ⟨y, hy, h₂⟩ := exists_of_bind_done h₁
  obtain ⟨z, hz', h₃⟩ := exists_of_bind_done h₂
  obtain ⟨e, -, h₄⟩ := exists_of_bind_done h₃
  -- the head is made of the axes just built, and these stand at zero
  obtain rfl := Outcome.done.inj h₄
  refine ⟨rfl, ?_, hl.velocity, ?_⟩
  · intro n
    have hzero := hl.allows_zero n
    cases n with
    | x => exact (assembleAxis_done hx).2 ▸ hzero
    | y => exact (assembleAxis_done hy).2 ▸ hzero
    | z => exact (assembleAxis_done hz').2 ▸ hzero
  · change z.setup.speed.isPositive = true
    rw [(assembleAxis_done hz').1]
    exact AxisSetup.speed_isPositive hz

/-- The heads that are reached from a setup: a head is put together from the setup and
any hardware, and then executes instructions and programs that stay within the limits of
the setup, which may fail anywhere.  Homing every axis is one of the instructions. -/
inductive Reached (setup : PrinterSetup) : Head → Prop where
  | assembled {hw : Hardware} {h : Head} (done : (assemble setup hw ()).ending = .done h) :
      Reached setup h
  | executed {h : Head} {i : Instruction} (hi : i.WithinLimits setup.limits)
      (before : Reached setup h) : Reached setup (execute i h).state
  | ran {h : Head} {p : List Instruction} (hp : ∀ i ∈ p, i.WithinLimits setup.limits)
      (before : Reached setup h) : Reached setup (runProgram p h).state

theorem sound_of_reached {setup : PrinterSetup} (hsetup : setup.fault? = none)
    (hr : Reached setup h) : h.Sound setup.limits := by
  have hl := (PrinterSetup.eq_none_of_fault? hsetup).2
  induction hr with
  | assembled done => exact sound_of_assemble hsetup done
  | executed hi _ ih => exact sound_execute hl hi ih
  | ran hp _ ih => exact sound_runProgram hl hp ih

/-- **Every head reached is within its limits.**  Its place in the plane is within the
travel limit on either side, its height is finite and between the bed and the highest
place, and its speed is positive and finite, so that a move without a feed rate is not
refused for its speed. -/
theorem within_limits_of_reached {setup : PrinterSetup} (hsetup : setup.fault? = none)
    (hr : Reached setup h) :
    h.position.x.Between (-setup.travelLimit) setup.travelLimit ∧
      h.position.y.Between (-setup.travelLimit) setup.travelLimit ∧
      h.position.z.isFinite ∧ h.position.z.Between 0 setup.maxHeight ∧
      h.velocity.isPositive ∧ h.velocity.isFinite ∧
      ∀ (m : Move) (v : Binary64), m.feed = none →
        (execute (.move m) h).ending ≠ .failed (.motion (.badVelocity v)) := by
  have hs := sound_of_reached hsetup hr
  obtain ⟨hfinite, hz⟩ := hs.position .z
  exact ⟨hs.position .x, hs.position .y, hfinite, hz, hs.velocity,
    Binary64.isFinite_of_isPositive hs.velocity,
    fun m v hm => linearMove_ne_badVelocity hm hs.velocity hs.speed v⟩

/-- Steps that lead out of the numbers, then a height that is refused. -/
def farAway : List Instruction :=
  [.setPositioning .relative, .move { goal := { x := some 1e308 } },
    .move { goal := { x := some 1e308, z := some (-1) } }]

/-- The standard printer stays within its limits on the way far away. -/
theorem within_limits_of_reached_farAway :
    PrinterSetup.standard.fault? = none ∧
      ∃ h₀, (assemble .standard simulated ()).ending = .done h₀ ∧
        Reached .standard (runProgram farAway h₀).state ∧
        (runProgram farAway h₀).state.position.x.Between (-100) 100 ∧
        (runProgram farAway h₀).state.position.z.Between 0 150 ∧
        (execute (.move { goal := { x := some 5 } }) (runProgram farAway h₀).state).ending ≠
          .failed (.motion (.badVelocity 0)) := by
  have hsetup : PrinterSetup.standard.fault? = none := by decide +kernel
  have hfar : ∀ i ∈ farAway, i.WithinLimits PrinterSetup.standard.limits := by decide +kernel
  have hdone : (assemble .standard simulated ()).ending.isDone = true := by decide +kernel
  cases hend : (assemble .standard simulated ()).ending with
  | done h₀ =>
    have hr : Reached .standard (runProgram farAway h₀).state := .ran hfar (.assembled hend)
    obtain ⟨hx, -, -, hz, -, -, hmove⟩ := within_limits_of_reached hsetup hr
    exact ⟨hsetup, h₀, rfl, hr, hx, hz, hmove _ _ rfl⟩
  | failed e =>
    rw [hend] at hdone
    cases hdone
  | crashed =>
    rw [hend] at hdone
    cases hdone

end Head

end TachoPrint
