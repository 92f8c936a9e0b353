import TachoPrint.Proofs.Machine.Steady

/-!
# Motors that obey

Where no command fails, the only thing that can go wrong at a motor is that a turn leads
out of the range of its encoder.  Every other command succeeds and changes nothing but the
motor.  An action made of such commands has one ending, and the head looks the same before
and after it as long as nobody looks at the motors.

## Main definitions

* `Action.Surely I R x` — from the states with `I` the action succeeds and keeps `R`.
* `Motor.Obeys`, `Head.Obeys` — no command fails.
* `Axis.bare`, `Head.bare` — an axis and a head without what their motors went through.
* `Axis.undriven`, `Head.undriven` — a trace without its commands.

## Main results

* `Axis.turn_of_obeys` — a turn succeeds or leads out of the range of the encoder.
* `Head.drives_start`, `Head.drives_release` — what has no turn in it succeeds.
* `Head.runTimed_of_obeys` — a timed move succeeds, and without its commands it is a delay.
-/

namespace TachoPrint

open TachoPrint.Action

/-! ### Actions that succeed -/

namespace Action

variable {ω σ ε α β : Type}

/-- From the states with `I` the action has a result, keeps the relation and leaves a
state with `I`. -/
def Surely (I : σ → Prop) (R : σ → List ω → σ → Prop) (x : Action ω σ ε α) : Prop :=
  ∀ s, I s → (∃ a, (x s).ending = .done a) ∧ R s (x s).trace (x s).state ∧ I (x s).state

namespace Surely

variable {I : σ → Prop} {R : σ → List ω → σ → Prop} {x : Action ω σ ε α}
  {f : α → Action ω σ ε β}

theorem pure (hR : Chains R) (a : α) : Surely I R (Pure.pure a : Action ω σ ε α) :=
  fun s hs => ⟨⟨a, rfl⟩, hR.nil s, hs⟩

theorem bind (hR : Chains R) (hx : Surely I R x) (hf : ∀ a, Surely I R (f a)) :
    Surely I R (x >>= f) := by
  intro s hs
  obtain ⟨⟨a, ha⟩, hrx, hIx⟩ := hx s hs
  obtain ⟨⟨b, hb⟩, hrf, hIf⟩ := hf a _ hIx
  rw [bind_of_done ha]
  exact ⟨⟨b, hb⟩, hR.append hrx hrf, hIf⟩

theorem get_bind {f : σ → Action ω σ ε β} (hf : ∀ a, Surely I R (f a)) :
    Surely I R (Action.get >>= f) := fun s hs => hf s s hs

theorem ending_eq {x : Action ω σ ε Unit} (hx : Surely I R x) {s : σ} (hs : I s) :
    (x s).ending = .done () := by
  obtain ⟨⟨u, hu⟩, -⟩ := hx s hs
  exact hu

end Surely

end Action

/-! ### Traces without commands -/

/-- True of the events at a motor. -/
def DeviceEvent.isCommand (e : DeviceEvent) : Bool := e.command?.isSome

/-- True of the events at a motor of the head. -/
def Event.isCommand : Event → Bool
  | .device _ e => e.isCommand
  | .slept _ => false

/-- What is left of the events at an axis without the commands. -/
def Axis.undriven (t : List DeviceEvent) : List DeviceEvent := t.filter (!·.isCommand)

/-- What is left of a trace without the commands: delays, and looks at endstops. -/
def Head.undriven (t : List Event) : List Event := t.filter (!·.isCommand)

@[simp] theorem Axis.undriven_append (t u : List DeviceEvent) :
    undriven (t ++ u) = undriven t ++ undriven u := List.filter_append ..

@[simp] theorem Head.undriven_append (t u : List Event) :
    undriven (t ++ u) = undriven t ++ undriven u := List.filter_append ..

@[simp] theorem Head.undriven_map_device (j : Joint) (t : List DeviceEvent) :
    undriven (t.map (Event.device j)) = (Axis.undriven t).map (Event.device j) := by
  unfold undriven Axis.undriven
  rw [List.filter_map]
  rfl

@[simp] theorem Head.undriven_map_slept (t : List UInt32) :
    undriven (t.map Event.slept) = t.map Event.slept := by
  unfold undriven
  rw [List.filter_eq_self]
  intro e he
  obtain ⟨n, -, rfl⟩ := List.mem_map.mp he
  rfl

/-- True of a look at an endstop. -/
def DeviceEvent.isLook : DeviceEvent → Bool
  | .read _ => true
  | _ => false

/-- How often the endstop of an axis was looked at. -/
def Head.looks (n : AxisName) (t : List Event) : Nat :=
  (eventsAt (.axis n) t).countP DeviceEvent.isLook

/-! ### One motor -/

namespace Motor

/-- No command of the motor fails. -/
def Obeys (m : Motor) : Prop := ∀ call k, m.faults call k = none

variable {m : Motor}

@[grind =, simp] theorem Obeys.fault? (hm : m.Obeys) (call : MotorCall) :
    m.fault? call = none := hm _ _

@[grind =, simp] theorem Obeys.fails (hm : m.Obeys) (call : MotorCall) : m.fails call = false :=
  fails_eq_false_iff.mpr (hm.fault? call)

theorem faults_obey? {c : MotorCommand} {m' : Motor} (h : m.obey? c = some m') :
    m'.faults = m.faults := by
  cases c with
  | turn n =>
    rw [obey?_turn, Option.map_eq_some_iff] at h
    obtain ⟨e, -, rfl⟩ := h
    rfl
  | _ =>
    obtain rfl := Option.some.inj h
    rfl

/-- A command does not change which commands fail. -/
@[simp] theorem faults_issue (c : MotorCommand) (m : Motor) :
    (issue c m).state.faults = m.faults := by
  simp only [issue]
  split
  · rfl
  · split
    · next m' h =>
      have hfaults := faults_obey? h
      exact hfaults
    · rfl

theorem Obeys.issue (hm : m.Obeys) (c : MotorCommand) : (Motor.issue c m).state.Obeys := by
  unfold Obeys
  rw [faults_issue]
  exact hm

/-- A command other than a turn succeeds. -/
theorem Obeys.issue_eq (hm : m.Obeys) {c : MotorCommand} (hc : c.call ≠ .turn) :
    Motor.issue c m = ⟨[.obeyed c], m.after c, .done ()⟩ := by
  rw [Motor.issue_eq m hc, answer, hm.fault?]
  rfl

theorem Obeys.after (hm : m.Obeys) {c : MotorCommand} (hc : c.call ≠ .turn) :
    (m.after c).Obeys := by
  have h := hm.issue c
  rwa [hm.issue_eq hc] at h

/-- A turn succeeds if the encoder has room for its counts, and crashes otherwise. -/
theorem Obeys.issue_turn (hm : m.Obeys) (n : Int32) :
    (Motor.issue (.turn n) m).trace = (if (addCounts? m.encoder n).isSome then [.obeyed (.turn n)]
      else []) ∧
    (Motor.issue (.turn n) m).ending =
      if (addCounts? m.encoder n).isSome then .done () else .crashed := by
  have hf : m.fault? (MotorCommand.turn n).call = none := hm.fault? _
  simp only [Motor.issue, hf, obey?_turn]
  cases addCounts? m.encoder n <;> exact ⟨rfl, rfl⟩

end Motor

/-! ### One axis -/

namespace Axis

/-- The axis without what its motor went through. -/
def bare (a : Axis) : Axis := { a with motor := { countsPerTurn := 0 } }

/-- Between the two axes there were only commands, and they differ in their motors
only. -/
def Driven (a : Axis) (t : List DeviceEvent) (a' : Axis) : Prop :=
  undriven t = [] ∧ a'.bare = a.bare

theorem chains_driven : Chains Driven where
  nil _ := ⟨rfl, rfl⟩
  append h h' := by
    refine ⟨?_, h'.2.trans h.2⟩
    rw [undriven_append, h.1, h'.1]
    rfl

/-- From an axis whose motor obeys the action succeeds, gives only commands and changes
only the motor. -/
abbrev Drives (x : Act Unit) : Prop := Surely (·.motor.Obeys) Driven x

theorem drives_command {c : MotorCommand} (hc : c.call ≠ .turn) : Drives (command c) := by
  intro a ha
  rw [command_apply, ha.issue_eq hc]
  exact ⟨⟨(), rfl⟩, ⟨rfl, rfl⟩, ha.after hc⟩

theorem drives_stop : Drives stop := drives_command (by decide)

theorem drives_setStopAction (action : StopAction) : Drives (setStopAction action) :=
  drives_command (by simp [MotorCommand.call])

theorem drives_release : Drives release :=
  (drives_setStopAction .coast).bind chains_driven fun _ => drives_stop

/-- Set out at a speed. -/
def setOut (speed : Int32) : Act Unit := do
  command (.speed speed)
  command .run

theorem drives_setOut (speed : Int32) : Drives (setOut speed) := by
  have hspeed : Drives (command (.speed speed)) := drives_command (by simp [MotorCommand.call])
  exact hspeed.bind chains_driven fun _ => drives_command (by decide)

/-- The search for the endstop sets out twice, there and back. -/
theorem seek_eq (polling : Polling) : seek polling = (do
    let a ← get
    let speed ← finish (.orCrash a.seekSpeed?)
    setOut speed
    awaitEndstop a.setup.homing.invertSensor polling
    let back ← finish (.orCrash (negCounts? speed))
    setOut back
    awaitEndstop (!a.setup.homing.invertSensor) polling
    stop) := by
  simp only [seek, setOut, bind_assoc]

theorem drives_runAt (velocity : Binary64) : Drives (runAt velocity) := by
  apply Surely.get_bind
  intro a
  dsimp only
  split
  · exact drives_stop
  · exact drives_setOut _

/-- The encoder of the axis has room for a turn by these counts. -/
def HasRoom (a : Axis) (counts : Int32) : Prop :=
  counts = 0 ∨ (addCounts? a.motor.encoder counts).isSome

instance (a : Axis) (counts : Int32) : Decidable (a.HasRoom counts) :=
  inferInstanceAs (Decidable (_ ∨ _))

/-- **A turn succeeds if the encoder has room for it**, and otherwise crashes once the motor
has taken the speed. -/
theorem turn_of_obeys {a : Axis} (ha : a.motor.Obeys) (speed counts : Int32) :
    (a.HasRoom counts → (turn speed counts a).ending = .done () ∧
      Driven a (turn speed counts a).trace (turn speed counts a).state) ∧
    (¬a.HasRoom counts → (turn speed counts a).ending = .crashed ∧
      (turn speed counts a).trace = [.obeyed (.speed speed)]) := by
  have hcall : (MotorCommand.speed speed).call ≠ .turn := by simp [MotorCommand.call]
  unfold turn HasRoom
  by_cases h0 : counts = 0
  · rw [if_neg (not_not_intro h0)]
    exact ⟨fun _ => ⟨rfl, chains_driven.nil a⟩, fun h => absurd (Or.inl h0) h⟩
  rw [if_pos h0]
  -- after the speed the encoder is still where it was
  let b : Axis := { a with motor := a.motor.after (.speed speed) }
  have hspeed : command (.speed speed) a = ⟨[.obeyed (.speed speed)], b, .done ()⟩ := by
    rw [command_apply, ha.issue_eq hcall]
  have hb : b.motor.Obeys := ha.after hcall
  have hencoder : b.motor.encoder = a.motor.encoder := by
    change (a.motor.after (.speed speed)).encoder = _
    unfold Motor.after
    rw [if_neg (by rw [ha.fails]; decide)]
    rfl
  obtain ⟨htrace, hending⟩ := hb.issue_turn counts
  rw [hencoder] at htrace hending
  rw [bind_of_done (congrArg Run.ending hspeed), hspeed]
  cases hroom : (addCounts? a.motor.encoder counts).isSome with
  | true =>
    refine ⟨?_, fun h => absurd (Or.inr rfl) h⟩
    intro _
    rw [if_pos hroom] at htrace hending
    have hturn : (command (.turn counts) b).ending = .done () := by
      rw [command_apply]
      exact hending
    have hawait : Drives (command .await) := drives_command (by decide)
    obtain ⟨⟨u, hu⟩, hdriven, -⟩ := hawait (command (.turn counts) b).state
      (by rw [command_apply]; exact hb.issue _)
    rw [bind_of_done hturn]
    refine ⟨hu, ?_⟩
    have hfirst : Driven a [.obeyed (.speed speed)] b := ⟨rfl, rfl⟩
    have hsecond : Driven b (command (.turn counts) b).trace (command (.turn counts) b).state := by
      rw [command_apply, htrace]
      exact ⟨rfl, rfl⟩
    exact chains_driven.append hfirst (chains_driven.append hsecond hdriven)
  | false =>
    constructor
    · intro h
      rcases h with h | h
      · exact absurd h h0
      · cases h
    · intro _
      rw [if_neg (by rw [hroom]; decide)] at htrace hending
      have hturn : (command (.turn counts) b).ending = .crashed := by
        rw [command_apply]
        exact hending
      rw [bind_of_crashed hturn, command_apply]
      exact ⟨rfl, by rw [htrace, List.append_nil]⟩

/-! ### Changes of height -/

/-- The counts of a move to a height. -/
def heightCounts (a : Axis) (height : Binary64) : Int32 := a.toCounts (height - a.position)

theorem moveToHeight_of_refused {a : Axis} {height highest : Binary64}
    (h : ¬AllowedHeight height highest) :
    moveToHeight height highest a = ⟨[], a, .failed (.outOfRange height highest)⟩ := by
  unfold moveToHeight
  unfold AllowedHeight at h
  rw [if_pos ((Bool.not_eq_false _).mp h)]
  rfl

/-- No height is moved to without a speed. -/
theorem moveToHeight_of_not_isPositive {a : Axis} (hspeed : a.setup.speed.isPositive = false)
    {height highest : Binary64} (h : AllowedHeight height highest) :
    moveToHeight height highest a = ⟨[], a, .failed (.motion (.badVelocity a.setup.speed))⟩ := by
  unfold moveToHeight
  rw [if_neg (by rw [h]; decide), get_bind_apply]
  unfold moveTo checkVelocity
  rw [if_neg (by rw [hspeed]; decide)]
  rfl

/-- Where height and speed are accepted a move is a turn and the new position. -/
theorem moveToHeight_eq {a : Axis} (hspeed : a.setup.speed.isPositive) {height highest : Binary64}
    (h : AllowedHeight height highest) :
    moveToHeight height highest a =
      (turn (a.toCounts a.setup.speed) (a.heightCounts height) >>= fun _ =>
        setPosition height) a := by
  unfold moveToHeight
  rw [if_neg (by rw [h]; decide), get_bind_apply]
  unfold moveTo checkVelocity
  rw [if_pos hspeed]
  rfl

/-- **A move to a height that is allowed succeeds if the encoder has room for it.** -/
theorem moveToHeight_of_obeys {a : Axis} (ha : a.motor.Obeys) (hspeed : a.setup.speed.isPositive)
    {height highest : Binary64} (h : AllowedHeight height highest) :
    (a.HasRoom (a.heightCounts height) →
      (moveToHeight height highest a).ending = .done () ∧
      Driven { a with position := height } (moveToHeight height highest a).trace
        (moveToHeight height highest a).state) ∧
    (¬a.HasRoom (a.heightCounts height) →
      (moveToHeight height highest a).ending = .crashed ∧
      (moveToHeight height highest a).trace = [.obeyed (.speed (a.toCounts a.setup.speed))]) := by
  obtain ⟨hroom, hnone⟩ := turn_of_obeys ha (a.toCounts a.setup.speed) (a.heightCounts height)
  rw [moveToHeight_eq hspeed h]
  constructor
  · intro hr
    obtain ⟨hdone, hquiet, hbare⟩ := hroom hr
    rw [bind_of_done hdone]
    refine ⟨rfl, ?_, ?_⟩
    · rw [undriven_append, hquiet]
      rfl
    · exact congrArg (fun b : Axis => { b with position := height }) hbare
  · intro hr
    obtain ⟨hcrash, htrace⟩ := hnone hr
    rw [bind_of_crashed hcrash]
    exact ⟨rfl, htrace⟩

/-- Whatever an axis does, its motor goes on to obey. -/
theorem steady_obeys : Steady (fun _ => True) fun a _ a' => a.motor.Obeys → a'.motor.Obeys where
  chains := chains_preserved fun (a : Axis) => a.motor.Obeys
  command c a ha := by
    rw [command_apply]
    exact ha.issue c
  poll inverted polling a ha := by
    unfold awaitEndstop
    split <;> exact ha
  setPosition p _ a := id

end Axis

/-! ### The extruder -/

namespace Extruder

/-- Between the two extruders there were only commands. -/
def Driven (_ : Extruder) (t : List DeviceEvent) (_ : Extruder) : Prop := Axis.undriven t = []

theorem chains_driven : Chains Driven where
  nil _ := rfl
  append h h' := by
    unfold Driven at h h' ⊢
    rw [Axis.undriven_append, h, h']
    rfl

/-- From an extruder whose motor obeys the action succeeds and gives only commands. -/
abbrev Drives (x : Act Unit) : Prop := Surely (·.motor.Obeys) Driven x

theorem drives_command {c : MotorCommand} (hc : c.call ≠ .turn) : Drives (command c) := by
  intro e he
  rw [command_apply, he.issue_eq hc]
  exact ⟨⟨(), rfl⟩, rfl, he.after hc⟩

theorem drives_stop : Drives stop := drives_command (by decide)

theorem drives_release : Drives release := by
  have hcoast : Drives (command (.stopAction .coast)) := drives_command (by decide)
  exact hcoast.bind chains_driven fun _ => drives_stop

theorem drives_runAt (velocity : Binary64) : Drives (runAt velocity) := by
  apply Surely.get_bind
  intro e
  dsimp only
  split
  · exact drives_stop
  · have hspeed : Drives (command (.speed (e.toCounts velocity))) :=
      drives_command (by simp [MotorCommand.call])
    exact hspeed.bind chains_driven fun _ => drives_command (by decide)

end Extruder

/-! ### The head -/

namespace Head

/-- No command of any motor of the head fails. -/
structure Obeys (h : Head) : Prop where
  axis : ∀ n, (h.axis n).motor.Obeys
  extruder : ∀ e ∈ h.e, e.motor.Obeys

/-- The head without what its motors went through.  An extruder is nothing but its
motor. -/
def bare (h : Head) : Head := { h with x := h.x.bare, y := h.y.bare, z := h.z.bare, e := none }

/-- Between the two heads there were only commands, and they differ in their motors
only. -/
def Driven (h : Head) (t : List Event) (h' : Head) : Prop := undriven t = [] ∧ h'.bare = h.bare

theorem chains_driven : Chains Driven where
  nil _ := ⟨rfl, rfl⟩
  append h h' := by
    refine ⟨?_, h'.2.trans h.2⟩
    rw [undriven_append, h.1, h'.1]
    rfl

/-- From a head whose motors obey the action succeeds, gives only commands and changes
only motors. -/
abbrev Drives (x : Act Unit) : Prop := Surely Obeys Driven x

variable {h : Head}

theorem bare_withAxis (n : AxisName) {a : Axis} (ha : a.bare = (h.axis n).bare) :
    (h.withAxis n a).bare = h.bare := by
  cases n with
  | x => exact congrArg (fun b => { h.bare with x := b }) ha
  | y => exact congrArg (fun b => { h.bare with y := b }) ha
  | z => exact congrArg (fun b => { h.bare with z := b }) ha

theorem Obeys.withAxis (hh : h.Obeys) (n : AxisName) {a : Axis} (ha : a.motor.Obeys) :
    (h.withAxis n a).Obeys where
  axis m := by
    by_cases hnm : n = m
    · subst hnm
      rw [axis_withAxis_self]
      exact ha
    · rw [axis_withAxis_of_ne h a hnm]
      exact hh.axis m
  extruder e he := by
    rw [e_withAxis] at he
    exact hh.extruder e he

/-- Motors obey at any speed of the head. -/
theorem Obeys.withVelocity (hh : h.Obeys) (velocity : Binary64) :
    { h with velocity := velocity }.Obeys := ⟨fun n => hh.axis n, hh.extruder⟩

theorem drives_onAxis (n : AxisName) {act : Axis.Act Unit} (hact : Axis.Drives act) :
    Drives (onAxis n act) := by
  intro h hh
  obtain ⟨hdone, ⟨hquiet, hbare⟩, hobeys⟩ := hact (h.axis n) (hh.axis n)
  refine ⟨hdone, ⟨?_, bare_withAxis n hbare⟩, hh.withAxis n hobeys⟩
  change undriven ((act (h.axis n)).trace.map _) = []
  rw [undriven_map_device, hquiet]
  rfl

theorem drives_onExtruder {act : Extruder.Act Unit} (hact : Extruder.Drives act) :
    Drives (onExtruder act) := by
  intro h hh
  unfold onExtruder
  split
  · exact ⟨⟨(), rfl⟩, chains_driven.nil h, hh⟩
  · next e he =>
    obtain ⟨hdone, hquiet, hobeys⟩ := hact e (hh.extruder e he)
    refine ⟨hdone, ⟨?_, rfl⟩, ⟨?_, ?_⟩⟩
    · rw [undriven_map_device, hquiet]
      rfl
    · intro n
      cases n with
      | x => exact hh.axis .x
      | y => exact hh.axis .y
      | z => exact hh.axis .z
    · intro f hf
      obtain rfl := Option.some.inj hf
      exact hobeys

/-- Starting the motors of a plan succeeds. -/
theorem drives_start (plan : Plan) : Drives (start plan) :=
  (drives_onAxis .x (Axis.drives_runAt _)).bind chains_driven fun _ =>
    (drives_onAxis .y (Axis.drives_runAt _)).bind chains_driven fun _ =>
      drives_onExtruder (Extruder.drives_runAt _)

@[simp] theorem Obeys.stopFault? (hh : h.Obeys) : h.stopFault? = none := by
  unfold Head.stopFault? motors
  have hx : h.x.motor.fault? .stop = none := (hh.axis .x).fault? _
  have hy : h.y.motor.fault? .stop = none := (hh.axis .y).fault? _
  have hz : h.z.motor.fault? .stop = none := (hh.axis .z).fault? _
  cases he : h.e with
  | none => simp [hx, hy, hz]
  | some e => simp [hx, hy, hz, (hh.extruder e he).fault?]

theorem Obeys.halted (hh : h.Obeys) : h.halted.Obeys where
  axis n := by
    have hstop : MotorCommand.stop.call ≠ .turn := by decide
    cases n with
    | x => exact (hh.axis .x).after hstop
    | y => exact (hh.axis .y).after hstop
    | z => exact (hh.axis .z).after hstop
  extruder e he := by
    obtain ⟨f, hf, rfl⟩ := Option.map_eq_some_iff.mp he
    exact (hh.extruder f hf).after (by decide)

@[simp] theorem undriven_stopEvents (h : Head) : undriven h.stopEvents = [] := by
  unfold undriven
  rw [List.filter_eq_nil_iff]
  intro e he
  obtain ⟨p, -, rfl⟩ := List.mem_map.mp he
  simp [Event.isCommand, DeviceEvent.isCommand]

theorem drives_optional {act : Act Unit} (hact : Drives act) (c : Prop) [Decidable c] :
    Drives (if c then act else pure ()) := by
  split
  · exact hact
  · exact Surely.pure chains_driven ()

/-- Releasing axes succeeds. -/
theorem drives_release (axes : AxisSet) : Drives (release axes) := by
  rw [release_eq]
  have haxis := fun n => drives_onAxis n Axis.drives_release
  apply (drives_optional (haxis .x) _).bind chains_driven
  intro _
  apply (drives_optional (haxis .y) _).bind chains_driven
  intro _
  apply (drives_optional (haxis .z) _).bind chains_driven
  intro _
  exact drives_optional (drives_onExtruder Extruder.drives_release) _

/-- The head at the target of a plan in the plane. -/
def arrived (h : Head) (plan : Plan) : Head :=
  { h with
    x := { h.x with position := plan.target.x }
    y := { h.y with position := plan.target.y }
    extruded := plan.target.e }

theorem Obeys.arrived (hh : h.Obeys) (plan : Plan) : (h.arrived plan).Obeys where
  axis n := by
    cases n with
    | x => exact hh.axis .x
    | y => exact hh.axis .y
    | z => exact hh.axis .z
  extruder := hh.extruder

/-- **A timed move succeeds.**  Without its commands it is a delay, and then the head is at
the target. -/
theorem runTimed_of_obeys (hh : h.Obeys) (plan : Plan) :
    (runTimed plan h).ending = .done () ∧
      undriven (runTimed plan h).trace = (chunks (planMicros plan).toNat).map Event.slept ∧
      (runTimed plan h).state.bare = (h.arrived plan).bare ∧ (runTimed plan h).state.Obeys := by
  obtain ⟨⟨u, hstart⟩, ⟨hquiet, hbare⟩, hstarted⟩ := drives_start plan h hh
  let h₁ := (start plan h).state
  have hpause : (if (Except.ok u : Except DeviceError Unit).isOk then pause (planMicros plan)
      else pure ()) h₁ = ⟨(chunks (planMicros plan).toNat).map Event.slept, h₁, .done ()⟩ := rfl
  -- every stop succeeds, so the head takes the place that was planned
  have hsettle : settle plan (.ok u) h₁ =
      ⟨h₁.stopEvents ++ [], h₁.halted.arrived plan, .done ()⟩ := by
    have hstop : attempt stopAll h₁ = ⟨h₁.stopEvents, h₁.halted, .done (.ok ())⟩ := by
      have hending : (stopAll h₁).ending = .done () := by
        rw [stopAll_eq, hstarted.stopFault?]
        rfl
      simp only [attempt, hending]
      rw [stopAll_eq]
    unfold settle
    rw [bind_of_done (congrArg Run.ending hstop), hstop]
    rfl
  have hrun : runTimed plan h = ⟨(start plan h).trace ++
      ((chunks (planMicros plan).toNat).map Event.slept ++ (h₁.stopEvents ++ [])),
        h₁.halted.arrived plan, .done ()⟩ := by
    rw [runTimed_eq, bind_of_done (attempt_of_done hstart), attempt_trace, attempt_state,
      bind_of_done (congrArg Run.ending hpause), hpause, hsettle]
  rw [hrun]
  refine ⟨rfl, ?_, ?_, ?_⟩
  · rw [undriven_append, hquiet, undriven_append, undriven_map_slept, List.append_nil,
      undriven_stopEvents, List.append_nil]
    rfl
  · exact congrArg (·.arrived plan) hbare
  · exact hstarted.halted.arrived plan

end Head

end TachoPrint
