import TachoPrint.Proofs.Machine.Homing
import TachoPrint.Proofs.Machine.Obedience
import TachoPrint.Proofs.Machine.Program

/-!
# Hardware does not influence the logical run

Two heads may be built quite differently: their gears, encoders and polarities, the speeds
and offsets of their homing, and whether they feed filament.  Their motors are then told
different things, and not even equally often.  But as long as the motors obey, what the
heads do besides is the same: they stay in step from one action to the next.  Only one
thing parts them, a turn that leads out of the range of an encoder, where the arithmetic of
the motor has no answer; and nothing else that crashes does so right after a motor has taken
a speed.

## Main definitions

* `Run.LostAfter` — a run that crashed right after an event of a kind.
* `Run.InStep` — two runs that end alike and show the same, unless one of them is lost.
* `Axis.Twins`, `Head.Twins` — axes and heads that differ in their hardware only.

## Main results

* `Run.InStep.bind` — sequences of actions that are in step are in step.
* `Head.inStep_execute` — an instruction keeps twins in step.
* `Head.logical_run_of_twins` — **twins end alike, at the same place, with the same delays and
  the same looks at their endstops.**
-/

namespace TachoPrint

open TachoPrint.Action

/-! ### Runs in step -/

namespace Run

variable {ω σ ε α β : Type}

/-- The run crashed, and the last event before was one of these. -/
def LostAfter (last : ω → Bool) (r : Run ω σ ε α) : Prop :=
  r.ending = .crashed ∧ ∃ e ∈ r.trace.getLast?, last e

/-- The two runs end alike, but for the hidden events they show the same, and they leave
related states, unless one of them is lost. -/
def InStep (last hidden : ω → Bool) (S : σ → σ → Prop) (r r' : Run ω σ ε α) : Prop :=
  r.LostAfter last ∨ r'.LostAfter last ∨
    (r.ending = r'.ending ∧ r.trace.filter (!hidden ·) = r'.trace.filter (!hidden ·) ∧
      S r.state r'.state)

variable {last hidden : ω → Bool} {S : σ → σ → Prop} {s s' : σ}

/-- What comes before does not matter for what a run was lost after. -/
theorem LostAfter.append {u : List ω} {o : Outcome ε α} (h : LostAfter last ⟨u, s, o⟩)
    (t : List ω) : LostAfter last ⟨t ++ u, s, o⟩ := by
  obtain ⟨hcrash, e, he, hlast⟩ := h
  refine ⟨hcrash, e, ?_, hlast⟩
  change (t ++ u).getLast? = some e
  rw [List.getLast?_append, Option.mem_def.mp he]
  rfl

section

variable {x y : Action ω σ ε α} {f g : α → Action ω σ ε β}

theorem LostAfter.bind (h : (x s).LostAfter last) : ((x >>= f) s).LostAfter last := by
  rw [bind_of_crashed h.1]
  exact ⟨rfl, h.2⟩

theorem LostAfter.bind_of_done {a : α} (hx : (x s).ending = .done a)
    (hf : (f a (x s).state).LostAfter last) : ((x >>= f) s).LostAfter last := by
  rw [Action.bind_of_done hx]
  exact LostAfter.append hf _

/-- **Sequences stay in step if their parts do.** -/
theorem InStep.bind (hxy : InStep last hidden S (x s) (y s'))
    (hfg : ∀ a t t', S t t' → InStep last hidden S (f a t) (g a t')) :
    InStep last hidden S ((x >>= f) s) ((y >>= g) s') := by
  rcases hxy with hlost | hlost | ⟨hending, hshown, hstate⟩
  · exact Or.inl hlost.bind
  · exact Or.inr (Or.inl hlost.bind)
  cases hx : (x s).ending with
  | done a =>
    have hy : (y s').ending = .done a := hending.symm.trans hx
    rcases hfg a _ _ hstate with hlost | hlost | ⟨hlater, hrest, hend⟩
    · exact Or.inl (hlost.bind_of_done hx)
    · exact Or.inr (Or.inl (hlost.bind_of_done hy))
    · refine Or.inr (Or.inr ?_)
      rw [Action.bind_of_done hx, Action.bind_of_done hy]
      refine ⟨hlater, ?_, hend⟩
      rw [List.filter_append, List.filter_append, hshown, hrest]
  | failed e =>
    have hy : (y s').ending = .failed e := hending.symm.trans hx
    rw [bind_of_failed hx, bind_of_failed hy]
    exact Or.inr (Or.inr ⟨rfl, hshown, hstate⟩)
  | crashed =>
    have hy : (y s').ending = .crashed := hending.symm.trans hx
    rw [bind_of_crashed hx, bind_of_crashed hy]
    exact Or.inr (Or.inr ⟨rfl, hshown, hstate⟩)

theorem InStep.attempt (hxy : InStep last hidden S (x s) (y s')) :
    InStep last hidden S (attempt x s) (attempt y s') := by
  have hlost : ∀ {z : Action ω σ ε α} {t : σ}, (z t).LostAfter last →
      (Action.attempt z t).LostAfter last := by
    intro z t h
    refine ⟨attempt_of_crashed h.1, ?_⟩
    rw [attempt_trace]
    exact h.2
  rcases hxy with h | h | ⟨hending, hshown, hstate⟩
  · exact Or.inl (hlost h)
  · exact Or.inr (Or.inl (hlost h))
  · refine Or.inr (Or.inr ⟨?_, ?_, ?_⟩)
    · simp only [Action.attempt]
      rw [hending]
      cases (y s').ending <;> rfl
    · rw [attempt_trace, attempt_trace]
      exact hshown
    · rw [attempt_state, attempt_state]
      exact hstate

end

theorem InStep.same (o : Outcome ε α) (hS : S s s') (t : List ω) :
    InStep last hidden S (⟨t, s, o⟩ : Run ω σ ε α) ⟨t, s', o⟩ := Or.inr (Or.inr ⟨rfl, rfl, hS⟩)

end Run

/-! ### Twin axes -/

/-- True when a motor took a speed. -/
def DeviceEvent.isSpeed : DeviceEvent → Bool
  | .obeyed (.speed _) => true
  | _ => false

namespace Axis

/-- Two axes that look alike but for their hardware: their motors obey, and their homing has
speeds.  The vertical ones have usable speeds. -/
structure Twins (n : AxisName) (a b : Axis) : Prop where
  obeys : a.motor.Obeys ∧ b.motor.Obeys
  fits : a.SeekFits ∧ b.SeekFits
  speed : n = .z → a.setup.speed.isPositive ∧ b.setup.speed.isPositive
  endstop : a.endstop = b.endstop
  position : a.position = b.position
  invertSensor : a.setup.homing.invertSensor = b.setup.homing.invertSensor

/-- Runs of twin axes in step: only the commands may differ. -/
abbrev InStep {α : Type} (n : AxisName) :
    Run DeviceEvent Axis DeviceError α → Run DeviceEvent Axis DeviceError α → Prop :=
  Run.InStep DeviceEvent.isSpeed DeviceEvent.isCommand (Twins n)

variable {n : AxisName} {a b a' b' : Axis} {x y : Act Unit}

/-- Twins are what they are whatever their motors went through. -/
theorem Twins.of_bare (ht : Twins n a b) (ha : a'.bare = a.bare) (hb : b'.bare = b.bare)
    (hobeys : a'.motor.Obeys ∧ b'.motor.Obeys) : Twins n a' b' := by
  obtain ⟨setup, motor, endstop, countsPerTurn, position⟩ := a
  obtain ⟨setup', motor', endstop', countsPerTurn', position'⟩ := b
  obtain ⟨_, _, _, _, _⟩ := a'
  obtain ⟨_, _, _, _, _⟩ := b'
  simp only [bare, Axis.mk.injEq] at ha hb
  obtain ⟨rfl, -, rfl, rfl, rfl⟩ := ha
  obtain ⟨rfl, -, rfl, rfl, rfl⟩ := hb
  exact ⟨hobeys, ht.fits, ht.speed, ht.endstop, ht.position, ht.invertSensor⟩

/-- Actions made of commands are in step, whichever commands they are. -/
theorem inStep_of_drives (hx : Drives x) (hy : Drives y) (ht : Twins n a b) :
    InStep n (x a) (y b) := by
  obtain ⟨-, ⟨hquiet, hbare⟩, hobeys⟩ := hx a ht.obeys.1
  obtain ⟨-, ⟨hquiet', hbare'⟩, hobeys'⟩ := hy b ht.obeys.2
  refine Or.inr (Or.inr ⟨?_, hquiet.trans hquiet'.symm, ht.of_bare hbare hbare' ⟨hobeys, hobeys'⟩⟩)
  rw [hx.ending_eq ht.obeys.1, hy.ending_eq ht.obeys.2]

theorem inStep_setPosition (ht : Twins n a b) (p : Binary64) :
    InStep n (setPosition p a) (setPosition p b) :=
  Or.inr (Or.inr ⟨rfl, rfl, ht.obeys, ht.fits, ht.speed, ht.endstop, rfl, ht.invertSensor⟩)

/-- A turn is lost after its speed exactly when it is too much for the encoder. -/
theorem lostAfter_turn_iff (ha : a.motor.Obeys) (speed counts : Int32) :
    (turn speed counts a).LostAfter DeviceEvent.isSpeed ↔ ¬a.HasRoom counts := by
  obtain ⟨hroom, hnone⟩ := turn_of_obeys ha speed counts
  constructor
  · rintro ⟨hcrash, -⟩ hr
    rw [(hroom hr).1] at hcrash
    cases hcrash
  · intro hr
    obtain ⟨hcrash, htrace⟩ := hnone hr
    exact ⟨hcrash, .obeyed (.speed speed), by rw [htrace]; rfl, rfl⟩

/-- Turns are in step by whatever counts, unless one of them is too much for its encoder. -/
theorem inStep_turn (ht : Twins n a b) (speed counts speed' counts' : Int32) :
    InStep n (turn speed counts a) (turn speed' counts' b) := by
  by_cases hroom : a.HasRoom counts
  · by_cases hroom' : b.HasRoom counts'
    · obtain ⟨hdone, hquiet, hbare⟩ := (turn_of_obeys ht.obeys.1 speed counts).1 hroom
      obtain ⟨hdone', hquiet', hbare'⟩ := (turn_of_obeys ht.obeys.2 speed' counts').1 hroom'
      refine Or.inr (Or.inr ⟨hdone.trans hdone'.symm, hquiet.trans hquiet'.symm, ?_⟩)
      exact ht.of_bare hbare hbare' ⟨steady_obeys.turn _ _ a ht.obeys.1,
        steady_obeys.turn _ _ b ht.obeys.2⟩
    · exact Or.inr (Or.inl ((lostAfter_turn_iff ht.obeys.2 _ _).mpr hroom'))
  · exact Or.inl ((lostAfter_turn_iff ht.obeys.1 _ _).mpr hroom)

/-- Polling is the same at twins. -/
theorem inStep_awaitEndstop (ht : Twins n a b) (inverted : Bool) (polling : Polling) :
    InStep n (awaitEndstop inverted polling a) (awaitEndstop inverted polling b) := by
  unfold awaitEndstop
  rw [← ht.endstop]
  cases a.endstop with
  | none => exact .same _ ht _
  | some e =>
    exact .same _ ⟨ht.obeys, ht.fits, ht.speed, rfl, ht.position, ht.invertSensor⟩ _

theorem inStep_seek (ht : Twins n a b) (polling : Polling) :
    InStep n (seek polling a) (seek polling b) := by
  obtain ⟨speed, back, hspeed, hback⟩ := ht.fits.1.exists_speeds
  obtain ⟨speed', back', hspeed', hback'⟩ := ht.fits.2.exists_speeds
  rw [seek_eq, get_bind_apply, get_bind_apply, hspeed, hspeed', ht.invertSensor]
  apply (inStep_of_drives (drives_setOut speed) (drives_setOut speed') ht).bind
  intro _ c d hcd
  apply (inStep_awaitEndstop hcd _ polling).bind
  intro _ c d hcd
  rw [hback, hback']
  apply (inStep_of_drives (drives_setOut back) (drives_setOut back') hcd).bind
  intro _ c d hcd
  apply (inStep_awaitEndstop hcd _ polling).bind
  intro _ c d hcd
  exact inStep_of_drives drives_stop drives_stop hcd

/-- Homing keeps twins in step, though one may move by an offset and the other not. -/
theorem inStep_home (ht : Twins n a b) (polling : Polling) :
    InStep n (home polling a) (home polling b) := by
  unfold home
  rw [get_bind_apply, get_bind_apply, ← ht.endstop]
  split
  · apply (inStep_seek ht polling).attempt.bind
    intro found c d hcd
    cases found with
    | error e =>
      apply (inStep_of_drives drives_stop drives_stop hcd).attempt.bind
      intro _ c d hcd
      exact .same _ hcd _
    | ok _ =>
      refine Run.InStep.bind ?_ fun _ c d hcd => inStep_setPosition hcd 0
      rw [applyOffset_eq, applyOffset_eq]
      exact inStep_turn hcd _ _ _ _
  · exact inStep_setPosition ht 0

theorem inStep_homing (ht : Twins n a b) (polling : Polling) (m : AxisName) :
    InStep n (homing polling m a) (homing polling m b) := by
  have hbrake := drives_setStopAction .brake
  have hplane : InStep n ((setStopAction .brake >>= fun _ => home polling) a)
      ((setStopAction .brake >>= fun _ => home polling) b) :=
    (inStep_of_drives hbrake hbrake ht).bind fun _ c d hcd => inStep_home hcd polling
  cases m with
  | x => exact hplane
  | y => exact hplane
  | z => exact inStep_home ht polling

/-- A change of height keeps twins in step. -/
theorem inStep_moveToHeight (ht : Twins .z a b) (height highest : Binary64) :
    InStep .z (moveToHeight height highest a) (moveToHeight height highest b) := by
  unfold moveToHeight
  split
  · exact .same _ ht _
  · rw [get_bind_apply, get_bind_apply]
    unfold moveTo checkVelocity
    rw [if_pos (ht.speed rfl).1, if_pos (ht.speed rfl).2]
    exact (inStep_turn ht _ _ _ _).bind fun _ c d hcd => inStep_setPosition hcd height

end Axis

/-! ### Twin heads -/

/-- True when a motor of the head took a speed. -/
def Event.isSpeed : Event → Bool
  | .device _ e => e.isSpeed
  | .slept _ => false

namespace Head

/-- Two heads that look alike but for their hardware, extruders included. -/
structure Twins (h h' : Head) : Prop where
  axis : ∀ n, Axis.Twins n (h.axis n) (h'.axis n)
  extruder : (∀ e ∈ h.e, e.motor.Obeys) ∧ ∀ e ∈ h'.e, e.motor.Obeys
  limits : h.limits = h'.limits
  velocity : h.velocity = h'.velocity
  mode : h.mode = h'.mode
  extruded : h.extruded = h'.extruded

/-- Runs of twin heads in step: only the commands may differ. -/
abbrev InStep {α : Type} : Run Event Head DeviceError α → Run Event Head DeviceError α → Prop :=
  Run.InStep Event.isSpeed Event.isCommand Twins

variable {h h' k k' : Head} {x y : Act Unit}

namespace Twins

theorem obeys (ht : Twins h h') : h.Obeys ∧ h'.Obeys :=
  ⟨⟨fun n => (ht.axis n).obeys.1, ht.extruder.1⟩, ⟨fun n => (ht.axis n).obeys.2, ht.extruder.2⟩⟩

@[grind →] theorem position_eq (ht : Twins h h') : h.position = h'.position := by
  have hx : h.x.position = h'.x.position := (ht.axis .x).position
  have hy : h.y.position = h'.y.position := (ht.axis .y).position
  have hz : h.z.position = h'.z.position := (ht.axis .z).position
  unfold Head.position
  rw [hx, hy, hz, ht.extruded]

theorem axis_bare_eq (hk : k.bare = h.bare) (n : AxisName) : (k.axis n).bare = (h.axis n).bare := by
  have haxis : ∀ j : Head, (j.axis n).bare = j.bare.axis n := fun j => by cases n <;> rfl
  rw [haxis, haxis, hk]

/-- Twins are what they are whatever their motors went through. -/
theorem of_bare (ht : Twins h h') (hk : k.bare = h.bare) (hk' : k'.bare = h'.bare)
    (hobeys : k.Obeys ∧ k'.Obeys) : Twins k k' where
  axis n := (ht.axis n).of_bare (axis_bare_eq hk n) (axis_bare_eq hk' n)
    ⟨hobeys.1.axis n, hobeys.2.axis n⟩
  extruder := ⟨hobeys.1.extruder, hobeys.2.extruder⟩
  limits := by
    have hl := congrArg Head.limits hk
    have hl' := congrArg Head.limits hk'
    exact hl.trans (ht.limits.trans hl'.symm)
  velocity := by
    have hv := congrArg Head.velocity hk
    have hv' := congrArg Head.velocity hk'
    exact hv.trans (ht.velocity.trans hv'.symm)
  mode := by
    have hm := congrArg Head.mode hk
    have hm' := congrArg Head.mode hk'
    exact hm.trans (ht.mode.trans hm'.symm)
  extruded := by
    have he := congrArg Head.extruded hk
    have he' := congrArg Head.extruded hk'
    exact he.trans (ht.extruded.trans he'.symm)

theorem withAxis (ht : Twins h h') (n : AxisName) {a b : Axis} (hab : Axis.Twins n a b) :
    Twins (h.withAxis n a) (h'.withAxis n b) where
  axis m := by
    by_cases hnm : n = m
    · subst hnm
      rw [axis_withAxis_self, axis_withAxis_self]
      exact hab
    · rw [axis_withAxis_of_ne h a hnm, axis_withAxis_of_ne h' b hnm]
      exact ht.axis m
  extruder := by
    rw [e_withAxis, e_withAxis]
    exact ht.extruder
  limits := by
    rw [limits_withAxis, limits_withAxis]
    exact ht.limits
  velocity := by
    rw [velocity_withAxis, velocity_withAxis]
    exact ht.velocity
  mode := by
    cases n <;> exact ht.mode
  extruded := by
    cases n <;> exact ht.extruded

end Twins

theorem inStep_of_drives (hx : Drives x) (hy : Drives y) (ht : Twins h h') :
    InStep (x h) (y h') := by
  obtain ⟨-, ⟨hquiet, hbare⟩, hobeys⟩ := hx h ht.obeys.1
  obtain ⟨-, ⟨hquiet', hbare'⟩, hobeys'⟩ := hy h' ht.obeys.2
  refine Or.inr (Or.inr ⟨?_, hquiet.trans hquiet'.symm, ht.of_bare hbare hbare' ⟨hobeys, hobeys'⟩⟩)
  rw [hx.ending_eq ht.obeys.1, hy.ending_eq ht.obeys.2]

/-- Axes in step keep their heads in step. -/
theorem inStep_onAxis (ht : Twins h h') {n : AxisName} {act act' : Axis.Act Unit}
    (hact : Axis.InStep n (act (h.axis n)) (act' (h'.axis n))) :
    InStep (onAxis n act h) (onAxis n act' h') := by
  have hlost : ∀ {k : Head} {z : Axis.Act Unit}, (z (k.axis n)).LostAfter DeviceEvent.isSpeed →
      (onAxis n z k).LostAfter Event.isSpeed := by
    rintro k z ⟨hcrash, e, he, hspeed⟩
    refine ⟨hcrash, .device (.axis n) e, ?_, hspeed⟩
    change ((z (k.axis n)).trace.map _).getLast? = _
    rw [List.getLast?_map, Option.mem_def.mp he]
    rfl
  rcases hact with h₁ | h₁ | ⟨hending, hshown, hstate⟩
  · exact Or.inl (hlost h₁)
  · exact Or.inr (Or.inl (hlost h₁))
  · refine Or.inr (Or.inr ⟨hending, ?_, ht.withAxis n hstate⟩)
    change undriven ((act (h.axis n)).trace.map _) = undriven ((act' (h'.axis n)).trace.map _)
    rw [undriven_map_device, undriven_map_device]
    exact congrArg (List.map _) hshown

/-- A timed move takes as long on either head. -/
theorem inStep_runTimed (ht : Twins h h') (plan : Plan) :
    InStep (runTimed plan h) (runTimed plan h') := by
  obtain ⟨hdone, hshown, hbare, hobeys⟩ := runTimed_of_obeys ht.obeys.1 plan
  obtain ⟨hdone', hshown', hbare', hobeys'⟩ := runTimed_of_obeys ht.obeys.2 plan
  have harrived : Twins (h.arrived plan) (h'.arrived plan) :=
    { axis := fun n => by
        have hn := ht.axis n
        cases n with
        | x => exact ⟨hn.obeys, hn.fits, hn.speed, hn.endstop, rfl, hn.invertSensor⟩
        | y => exact ⟨hn.obeys, hn.fits, hn.speed, hn.endstop, rfl, hn.invertSensor⟩
        | z => exact hn
      extruder := ht.extruder
      limits := ht.limits
      velocity := ht.velocity
      mode := ht.mode
      extruded := rfl }
  exact Or.inr (Or.inr ⟨hdone.trans hdone'.symm, hshown.trans hshown'.symm,
    harrived.of_bare hbare hbare' ⟨hobeys, hobeys'⟩⟩)

theorem inStep_carryOut (ht : Twins h h') (plan : Plan) :
    InStep (carryOut plan h) (carryOut plan h') := by
  rw [carryOut_eq, get_bind_apply, get_bind_apply, ← ht.position_eq, ← ht.limits]
  refine Run.InStep.bind ?_ ?_
  · split
    · exact inStep_onAxis ht (Axis.inStep_moveToHeight (ht.axis .z) _ _)
    · exact .same _ ht _
  · intro _ k k' hk
    split
    · exact inStep_runTimed hk plan
    · exact .same _ hk _

theorem inStep_follow (ht : Twins h h') (goal : Coordinates) :
    InStep (follow goal h) (follow goal h') := by
  unfold follow
  rw [get_bind_apply, get_bind_apply, ← ht.position_eq, ← ht.limits, ← ht.mode, ← ht.velocity]
  exact (Run.InStep.same _ ht _).bind fun plan k k' hk => inStep_carryOut hk plan

theorem inStep_setVelocity (ht : Twins h h') (velocity : Binary64) :
    InStep (setVelocity velocity h) (setVelocity velocity h') := by
  rw [setVelocity_eq, setVelocity_eq]
  split
  · refine .same _ ?_ _
    exact
      { axis := fun n => by
          have hn := ht.axis n
          cases n <;> exact hn
        extruder := ht.extruder
        limits := ht.limits
        velocity := rfl
        mode := ht.mode
        extruded := ht.extruded }
  · exact .same _ ht _

theorem inStep_linearMove (ht : Twins h h') (m : Move) :
    InStep (linearMove m h) (linearMove m h') := by
  rw [linearMove_eq]
  refine Run.InStep.bind ?_ ?_
  · cases m.feed with
    | none => exact .same _ ht _
    | some feed => exact inStep_setVelocity ht feed
  · intro _ k k' hk
    split
    · exact inStep_follow hk m.goal
    · exact .same _ hk _

theorem inStep_home (ht : Twins h h') (axes : AxisSet) : InStep (home axes h) (home axes h') := by
  have hthrough : ∀ (ns : List AxisName) (k k' : Head), Twins k k' →
      InStep (homeThrough axes ns k) (homeThrough axes ns k') := by
    intro ns
    induction ns with
    | nil =>
      intro k k' hk
      exact .same _ hk _
    | cons n rest ih =>
      intro k k' hk
      refine Run.InStep.bind ?_ fun _ => ih
      rw [homeIf_apply, homeIf_apply, ← hk.limits]
      split
      · exact inStep_onAxis hk (Axis.inStep_homing (hk.axis n) _ n)
      · exact .same _ hk _
  rw [home_eq_homeThrough]
  exact hthrough _ h h' ht

theorem inStep_setPosition (ht : Twins h h') (c : Coordinates) :
    InStep (setPosition c h) (setPosition c h') := by
  refine Or.inr (Or.inr ⟨rfl, rfl, ?_⟩)
  exact
    { axis := fun n => by
        have hn := ht.axis n
        have hplace : ∀ o : Option Binary64,
            o.getD (h.axis n).position = o.getD (h'.axis n).position := fun o => by
          rw [hn.position]
        cases n <;>
          exact ⟨hn.obeys, hn.fits, hn.speed, hn.endstop, hplace _, hn.invertSensor⟩
      extruder := ht.extruder
      limits := ht.limits
      velocity := ht.velocity
      mode := ht.mode
      extruded := congrArg (Option.getD c.e) ht.extruded }

/-- **An instruction keeps twins in step.** -/
theorem inStep_execute (ht : Twins h h') (i : Instruction) :
    InStep (execute i h) (execute i h') := by
  cases i with
  | move m => exact inStep_linearMove ht m
  | pause micros => exact .same _ ht _
  | setPositioning mode =>
    refine .same _ ?_ _
    exact
      { axis := fun n => by
          have hn := ht.axis n
          cases n <;> exact hn
        extruder := ht.extruder
        limits := ht.limits
        velocity := ht.velocity
        mode := rfl
        extruded := ht.extruded }
  | setPosition c => exact inStep_setPosition ht c
  | home axes => exact inStep_home ht axes
  | release axes => exact inStep_of_drives (drives_release axes) (drives_release axes) ht

/-- **A program keeps twins in step.** -/
theorem inStep_runProgram (ht : Twins h h') (p : List Instruction) :
    InStep (runProgram p h) (runProgram p h') := by
  induction p generalizing h h' with
  | nil => exact .same _ ht _
  | cons i rest ih =>
    rcases inStep_execute ht i with hlost | hlost | ⟨hending, hshown, hstate⟩
    · rw [runProgram_cons_of_crashed hlost.1]
      exact Or.inl ⟨rfl, hlost.2⟩
    · rw [runProgram_cons_of_crashed hlost.1]
      exact Or.inr (Or.inl ⟨rfl, hlost.2⟩)
    cases he : (execute i h).ending with
    | done _ =>
      have he' : (execute i h').ending = .done () := hending.symm.trans he
      rw [runProgram_cons_of_done he, runProgram_cons_of_done he']
      rcases ih hstate with hlost | hlost | ⟨hlater, hrest, hend⟩
      · exact Or.inl (hlost.append _)
      · exact Or.inr (Or.inl (hlost.append _))
      · refine Or.inr (Or.inr ⟨hlater, ?_, hend⟩)
        rw [List.filter_append, List.filter_append, hshown, hrest]
    | failed e =>
      -- both heads tell their motors to stop, and these may not even be equally many
      have he' : (execute i h').ending = .failed e := hending.symm.trans he
      rw [runProgram_cons_of_failed he, runProgram_cons_of_failed he']
      refine Or.inr (Or.inr ⟨rfl, ?_, hstate.of_bare rfl rfl
        ⟨hstate.obeys.1.halted, hstate.obeys.2.halted⟩⟩)
      change undriven (_ ++ stopEvents _) = undriven (_ ++ stopEvents _)
      rw [undriven_append, undriven_append, undriven_stopEvents, undriven_stopEvents]
      exact congrArg (· ++ []) hshown
    | crashed =>
      have he' : (execute i h').ending = .crashed := hending.symm.trans he
      rw [runProgram_cons_of_crashed he, runProgram_cons_of_crashed he']
      exact Or.inr (Or.inr ⟨rfl, hshown, hstate⟩)

/-- Looks at endstops are no commands. -/
@[simp] theorem looks_undriven (n : AxisName) (t : List Event) :
    looks n (undriven t) = looks n t := by
  unfold looks undriven eventsAt
  rw [List.countP_filterMap, List.countP_filterMap, List.countP_filter]
  apply List.countP_congr
  intro e _
  cases e with
  | slept micros => simp [Event.at?]
  | device j e =>
    -- an event that is a look is no command, so leaving the commands out leaves it in
    have hlook : e.isLook → e.isCommand = false := by
      cases e <;> simp [DeviceEvent.isLook, DeviceEvent.isCommand, DeviceEvent.command?]
    by_cases hj : j = .axis n
    · simpa [Event.at?, hj, Event.isCommand] using hlook
    · simp [Event.at?, hj]

/-- **Hardware does not influence the logical run.**  Two heads have the same limits, logical
state, endstops and ways to read them, usable vertical speeds, and motors that obey; the
homing speeds have opposites.  If neither run of a program is lost in a turn, right after a
motor has taken its speed, then both end alike, at the same place, with the same speed and
mode, after the same delays and looks at endstops in the same order. -/
theorem logical_run_of_twins (h h' : Head) (ht : Twins h h') (p : List Instruction)
    (hkept : ¬(runProgram p h).LostAfter Event.isSpeed)
    (hkept' : ¬(runProgram p h').LostAfter Event.isSpeed) :
    (runProgram p h).ending = (runProgram p h').ending ∧
      (runProgram p h).state.position = (runProgram p h').state.position ∧
      (runProgram p h).state.velocity = (runProgram p h').state.velocity ∧
      (runProgram p h).state.mode = (runProgram p h').state.mode ∧
      undriven (runProgram p h).trace = undriven (runProgram p h').trace ∧
      ∀ n, looks n (runProgram p h).trace = looks n (runProgram p h').trace := by
  rcases inStep_runProgram ht p with hlost | hlost | ⟨hending, hshown, hstate⟩
  · exact absurd hlost hkept
  · exact absurd hlost hkept'
  · refine ⟨hending, hstate.position_eq, hstate.velocity, hstate.mode, hshown, ?_⟩
    intro n
    rw [← looks_undriven, ← looks_undriven n (runProgram p h').trace]
    exact congrArg (looks n) hshown

/-- The axis with another gear, encoder, polarity and speed, and another homing. -/
def regeared (a : Axis) (counts : Int32) : Axis :=
  { a with
    setup :=
      { a.setup with
        degreesPerMm := 7.5
        inverted := true
        speed := 4
        homing := { a.setup.homing with offset := 3, invertMotor := false, speed := 6 } }
    motor := { countsPerTurn := counts }
    countsPerTurn := counts }

/-- A filament motor. -/
def feeder : Extruder := ⟨⟨.outD, 36⟩, { countsPerTurn := 360 }, 360⟩

/-- The standard printer with every axis changed, and with an extruder. -/
def rebuilt : Head :=
  let h := standard fun _ _ _ => none
  { h with
    x := regeared h.x 180
    y := regeared h.y 720
    z := regeared h.z 1000
    e := some feeder }

/-- What is changed about the axis makes it no other one to look at. -/
theorem twins_regeared {n : AxisName} {a : Axis} {counts : Int32} (ha : a.motor.Obeys)
    (hfits : a.SeekFits ∧ (regeared a counts).SeekFits) (hspeed : a.setup.speed.isPositive) :
    Axis.Twins n a (regeared a counts) where
  obeys := ⟨ha, fun _ _ => rfl⟩
  fits := hfits
  speed _ := ⟨hspeed, by dsimp only [regeared]; decide +kernel⟩
  endstop := by dsimp only [regeared]
  position := by dsimp only [regeared]
  invertSensor := by dsimp only [regeared]

theorem twins_rebuilt : Twins (standard fun _ _ _ => none) rebuilt where
  axis n := by
    cases n with
    | x => exact twins_regeared (fun _ _ => rfl) (by decide +kernel) (by decide +kernel)
    | y => exact twins_regeared (fun _ _ => rfl) (by decide +kernel) (by decide +kernel)
    | z => exact twins_regeared (fun _ _ => rfl) (by decide +kernel) (by decide +kernel)
  extruder := by
    constructor
    · intro e he
      have hnone : (none : Option Extruder) = some e := he
      cases hnone
    · intro e he
      have hfeeder : some feeder = some e := he
      rw [← Option.some.inj hfeeder]
      intro _ _
      rfl
  limits := rfl
  velocity := rfl
  mode := rfl
  extruded := rfl

/-- Homing every axis, a lift, and a move in the plane that feeds filament; then a height above
the highest place. -/
def tour : List Instruction :=
  [.home .all, .move { goal := { z := some 5 } },
    .move { goal := { x := some 10, e := some 2 }, feed := some 30 },
    .move { goal := { z := some 500 } }]

/-- The standard printer and the rebuilt one: both refuse the last height, at the same place. -/
theorem logical_run_of_twins_rebuilt :
    let h := standard fun _ _ _ => none
    Twins h rebuilt ∧ ¬(runProgram tour h).LostAfter Event.isSpeed ∧
      ¬(runProgram tour rebuilt).LostAfter Event.isSpeed ∧
      (runProgram tour h).ending = .failed (.outOfRange 500 150) ∧
      (runProgram tour rebuilt).ending = .failed (.outOfRange 500 150) ∧
      (runProgram tour h).state.position = (runProgram tour rebuilt).state.position ∧
      undriven (runProgram tour h).trace = undriven (runProgram tour rebuilt).trace ∧
      looks .y (runProgram tour rebuilt).trace = looks .y (runProgram tour h).trace := by
  intro h
  have hend : (runProgram tour h).ending = .failed (.outOfRange 500 150) := by decide +kernel
  have hend' : (runProgram tour rebuilt).ending = .failed (.outOfRange 500 150) := by
    decide +kernel
  have hkept : ¬(runProgram tour h).LostAfter Event.isSpeed := by
    rintro ⟨hcrash, -⟩
    rw [hend] at hcrash
    cases hcrash
  have hkept' : ¬(runProgram tour rebuilt).LostAfter Event.isSpeed := by
    rintro ⟨hcrash, -⟩
    rw [hend'] at hcrash
    cases hcrash
  obtain ⟨-, hplace, -, -, hshown, hlooks⟩ :=
    logical_run_of_twins h rebuilt twins_rebuilt tour hkept hkept'
  exact ⟨twins_rebuilt, hkept, hkept', hend, hend', hplace, hshown, (hlooks .y).symm⟩

end Head

end TachoPrint
