import TachoPrint.Proofs.Machine.Parts

/-!
# What every instruction keeps

All that an instruction does to the devices it does by giving commands, by polling
endstops and by calling places by other coordinates.  A relation that chains, and that
each of these keeps at its device, is therefore kept at every device by every
instruction, whatever fails.  A relation may depend on the coordinates that places are
given; then the instruction has to admit none but those.

## Main definitions

* `Axis.Steady Place R`, `Extruder.Steady R` — the relation chains, and single steps
  keep it.
* `Head.Jointwise RA RE` — the relations hold at every device of a head.
* `Head.Admits Place i h` — executing `i` from `h` gives places no other coordinates.

## Main results

* `Head.jointwise_execute` — **an instruction keeps what single steps keep.**
* `Head.keeps_execute` — the same when every coordinate is allowed.
-/

namespace TachoPrint

open TachoPrint.Action

namespace Axis

/-- A relation on an axis that chains, and that a command, a poll and another logical
position keep, if the position is one of the places. -/
structure Steady (Place : Binary64 → Prop) (R : Axis → List DeviceEvent → Axis → Prop) :
    Prop where
  chains : Chains R
  command : ∀ c, Keeps R (command c)
  poll : ∀ inverted polling, Keeps R (awaitEndstop inverted polling)
  setPosition : ∀ p, Place p → Keeps R (setPosition p)

/-- A height that is not refused. -/
def AllowedHeight (height highest : Binary64) : Prop :=
  (!height.isFinite || height.less 0 || highest.less height) = false

@[grind →] theorem AllowedHeight.isFinite {height highest : Binary64}
    (h : AllowedHeight height highest) : height.isFinite = true := by
  unfold AllowedHeight at h
  simp only [Bool.or_eq_false_iff, Bool.not_eq_false'] at h
  exact h.1.1

namespace Steady

variable {Place : Binary64 → Prop} {R : Axis → List DeviceEvent → Axis → Prop}

theorem stop (hR : Steady Place R) : Keeps R stop := hR.command .stop

theorem setStopAction (hR : Steady Place R) (action : StopAction) :
    Keeps R (setStopAction action) := hR.command _

theorem release (hR : Steady Place R) : Keeps R release :=
  (hR.setStopAction .coast).bind hR.chains fun _ => hR.stop

theorem runAt (hR : Steady Place R) (velocity : Binary64) : Keeps R (runAt velocity) := by
  apply Keeps.get_bind
  intro a
  dsimp only
  split
  · exact hR.stop
  · exact (hR.command _).bind hR.chains fun _ => hR.command .run

theorem turn (hR : Steady Place R) (speed counts : Int32) : Keeps R (turn speed counts) := by
  unfold Axis.turn
  split
  · exact (hR.command _).bind hR.chains fun _ => (hR.command _).bind hR.chains fun _ =>
      hR.command .await
  · exact Keeps.pure hR.chains ()

theorem moveTo (hR : Steady Place R) {target : Binary64} (ht : Place target) (speed : Binary64) :
    Keeps R (moveTo target speed) := by
  unfold Axis.moveTo
  split
  · exact Keeps.fail hR.chains _
  · exact Keeps.get_bind fun a => (hR.turn _ _).bind hR.chains fun _ => hR.setPosition target ht

theorem moveToHeight (hR : Steady Place R) {height highest : Binary64}
    (ht : AllowedHeight height highest → Place height) :
    Keeps R (moveToHeight height highest) := by
  unfold Axis.moveToHeight
  split
  · exact Keeps.fail hR.chains _
  · next h => exact Keeps.get_bind fun a => hR.moveTo (ht ((Bool.not_eq_true _).mp h)) _

theorem seek (hR : Steady Place R) (polling : Polling) : Keeps R (seek polling) := by
  apply Keeps.get_bind
  intro a
  apply (Keeps.finish hR.chains _).bind hR.chains
  intro speed
  refine (hR.command _).bind hR.chains fun _ => (hR.command .run).bind hR.chains ?_
  intro _
  apply (hR.poll _ polling).bind hR.chains
  intro _
  apply (Keeps.finish hR.chains _).bind hR.chains
  intro back
  refine (hR.command _).bind hR.chains fun _ => (hR.command .run).bind hR.chains ?_
  intro _
  exact (hR.poll _ polling).bind hR.chains fun _ => hR.stop

theorem applyOffset (hR : Steady Place R) : Keeps R applyOffset :=
  Keeps.get_bind fun _ => hR.turn _ _

theorem home (hR : Steady Place R) (h0 : Place 0) (polling : Polling) : Keeps R (home polling) := by
  apply Keeps.get_bind
  intro a
  split
  · apply (hR.seek polling).attempt.bind hR.chains
    intro found
    split
    · exact hR.stop.attempt.bind hR.chains fun _ => Keeps.fail hR.chains _
    · exact hR.applyOffset.bind hR.chains fun _ => hR.setPosition 0 h0
  · exact hR.setPosition 0 h0

end Steady

end Axis

namespace Extruder

/-- A relation on an extruder that chains, and that a command keeps. -/
structure Steady (R : Extruder → List DeviceEvent → Extruder → Prop) : Prop where
  chains : Chains R
  command : ∀ c, Keeps R (command c)

namespace Steady

variable {R : Extruder → List DeviceEvent → Extruder → Prop}

theorem stop (hR : Steady R) : Keeps R stop := hR.command .stop

theorem release (hR : Steady R) : Keeps R release :=
  (hR.command _).bind hR.chains fun _ => hR.stop

theorem runAt (hR : Steady R) (velocity : Binary64) : Keeps R (runAt velocity) := by
  apply Keeps.get_bind
  intro e
  dsimp only
  split
  · exact hR.stop
  · exact (hR.command _).bind hR.chains fun _ => hR.command .run

end Steady

end Extruder

namespace Head

/-- A relation on an extruder, where there is one; nothing happens at one that is not
there. -/
def AtExtruder (R : Extruder → List DeviceEvent → Extruder → Prop) :
    Option Extruder → List DeviceEvent → Option Extruder → Prop
  | some e, t, some e' => R e t e'
  | none, t, none => t = []
  | _, _, _ => False

/-- The relations hold at each device of the head, between its states and what
happened at it.  The limits stay, and a usable speed is only replaced by another. -/
structure Jointwise (RA : AxisName → Axis → List DeviceEvent → Axis → Prop)
    (RE : Extruder → List DeviceEvent → Extruder → Prop)
    (h : Head) (t : List Event) (h' : Head) : Prop where
  limits : h'.limits = h.limits
  velocity : h.velocity.isPositive → h'.velocity.isPositive
  axis : ∀ n, RA n (h.axis n) (eventsAt (.axis n) t) (h'.axis n)
  extruder : AtExtruder RE h.e (eventsAt .extruder t) h'.e

section

variable {Place : AxisName → Binary64 → Prop}
  {RA : AxisName → Axis → List DeviceEvent → Axis → Prop}
  {RE : Extruder → List DeviceEvent → Extruder → Prop}

theorem AtExtruder.nil (hE : Extruder.Steady RE) (e : Option Extruder) : AtExtruder RE e [] e := by
  cases e with
  | none => rfl
  | some e => exact hE.chains.nil e

theorem AtExtruder.append (hE : Extruder.Steady RE) {e e' e'' : Option Extruder}
    {t u : List DeviceEvent} (h : AtExtruder RE e t e') (h' : AtExtruder RE e' u e'') :
    AtExtruder RE e (t ++ u) e'' := by
  cases e with
  | none =>
    cases e' with
    | none =>
      have ht : t = [] := h
      rw [ht, List.nil_append]
      exact h'
    | some f => exact h.elim
  | some e =>
    cases e' with
    | none => exact h.elim
    | some e' =>
      cases e'' with
      | none => exact h'.elim
      | some e'' => exact hE.chains.append h h'

/-- An extruder is neither fitted nor taken away. -/
theorem AtExtruder.isSome_eq {e e' : Option Extruder} {t : List DeviceEvent}
    (h : AtExtruder RE e t e') : e'.isSome = e.isSome := by
  cases e <;> cases e' <;> first | rfl | exact h.elim

/-- Nothing happens at an extruder that is not there. -/
theorem AtExtruder.eq_nil {e e' : Option Extruder} {t : List DeviceEvent}
    (h : AtExtruder RE e t e') (he : e = none) : t = [] := by
  subst he
  cases e' with
  | none => exact h
  | some e' => exact h.elim

/-- Relations on the devices of a head that single steps keep. -/
structure Steady (Place : AxisName → Binary64 → Prop)
    (RA : AxisName → Axis → List DeviceEvent → Axis → Prop)
    (RE : Extruder → List DeviceEvent → Extruder → Prop) : Prop where
  axis : ∀ n, Axis.Steady (Place n) (RA n)
  extruder : Extruder.Steady RE

namespace Steady

theorem chains (hS : Steady Place RA RE) : Chains (Jointwise RA RE) where
  nil h := ⟨rfl, id, fun n => (hS.axis n).chains.nil _, .nil hS.extruder _⟩
  append h h' := by
    refine ⟨h'.limits.trans h.limits, h'.velocity ∘ h.velocity, ?_, ?_⟩
    · intro n
      rw [eventsAt_append]
      exact (hS.axis n).chains.append (h.axis n) (h'.axis n)
    · rw [eventsAt_append]
      exact h.extruder.append hS.extruder h'.extruder

/-- What an action of one axis keeps at that axis it keeps in the head. -/
theorem onAxis (hS : Steady Place RA RE) {α : Type} {n : AxisName} {act : Axis.Act α}
    (hact : Keeps (RA n) act) : Keeps (Jointwise RA RE) (onAxis n act) := by
  intro h
  simp only [Head.onAxis, within]
  refine ⟨limits_withAxis h n _, ?_, ?_, ?_⟩
  · rw [velocity_withAxis]
    exact id
  · intro m
    rw [eventsAt_map_device]
    -- the axis that acts sees its own events, another one sees none
    by_cases hnm : n = m
    · subst hnm
      rw [if_pos rfl, axis_withAxis_self]
      exact hact _
    · rw [if_neg (by simpa using hnm), axis_withAxis_of_ne h _ hnm]
      exact (hS.axis m).chains.nil _
  · rw [eventsAt_map_device, if_neg (by simp), e_withAxis]
    exact .nil hS.extruder _

theorem onExtruder (hS : Steady Place RA RE) {act : Extruder.Act Unit} (hact : Keeps RE act) :
    Keeps (Jointwise RA RE) (onExtruder act) := by
  intro h
  unfold Head.onExtruder
  split
  · exact hS.chains.nil h
  · next e he =>
    refine ⟨rfl, id, ?_, ?_⟩
    · intro n
      simp
      cases n <;> exact (hS.axis _).chains.nil _
    · rw [eventsAt_map_device, if_pos rfl, he]
      exact hact e

/-! ### Logical state -/

/-- An axis that may be given a position, if one is stated. -/
theorem position (hS : Steady Place RA RE) {n : AxisName} {o : Option Binary64}
    (ho : ∀ p ∈ o, Place n p) (a : Axis) : RA n a [] { a with position := o.getD a.position } := by
  cases o with
  | none => exact (hS.axis n).chains.nil a
  | some p => exact (hS.axis n).setPosition p (ho p rfl) a

theorem setMode (hS : Steady Place RA RE) (mode : Positioning) :
    Keeps (Jointwise RA RE) (setMode mode) := fun h =>
  ⟨rfl, id, fun n => by cases n <;> exact (hS.axis _).chains.nil _, .nil hS.extruder _⟩

theorem setPosition (hS : Steady Place RA RE) {c : Coordinates}
    (hx : ∀ p ∈ c.x, Place .x p) (hy : ∀ p ∈ c.y, Place .y p) (hz : ∀ p ∈ c.z, Place .z p) :
    Keeps (Jointwise RA RE) (setPosition c) := fun h => by
  refine ⟨rfl, id, ?_, .nil hS.extruder _⟩
  intro n
  cases n with
  | x => exact hS.position hx h.x
  | y => exact hS.position hy h.y
  | z => exact hS.position hz h.z

theorem setVelocity (hS : Steady Place RA RE) (velocity : Binary64) :
    Keeps (Jointwise RA RE) (setVelocity velocity) := by
  intro h
  rw [setVelocity_eq]
  split
  · next hv =>
    exact ⟨rfl, fun _ => hv, fun n => by cases n <;> exact (hS.axis _).chains.nil _,
      .nil hS.extruder _⟩
  · exact hS.chains.nil h

/-! ### Moves -/

theorem pause (hS : Steady Place RA RE) (micros : UInt64) :
    Keeps (Jointwise RA RE) (pause micros) := by
  intro h
  simp only [Head.pause, emit]
  refine ⟨rfl, id, ?_, ?_⟩
  · intro n
    rw [eventsAt_map_slept]
    exact (hS.axis n).chains.nil _
  · rw [eventsAt_map_slept]
    exact .nil hS.extruder _

theorem stopAll (hS : Steady Place RA RE) : Keeps (Jointwise RA RE) stopAll := by
  apply (hS.onAxis (hS.axis .x).stop).attempt.bind hS.chains
  intro _
  apply (hS.onAxis (hS.axis .y).stop).attempt.bind hS.chains
  intro _
  apply (hS.onAxis (hS.axis .z).stop).attempt.bind hS.chains
  intro _
  apply (hS.onExtruder hS.extruder.stop).attempt.bind hS.chains
  intro _
  exact Keeps.finish hS.chains _

theorem start (hS : Steady Place RA RE) (plan : Plan) : Keeps (Jointwise RA RE) (start plan) := by
  apply (hS.onAxis ((hS.axis .x).runAt _)).bind hS.chains
  intro _
  apply (hS.onAxis ((hS.axis .y).runAt _)).bind hS.chains
  intro _
  exact hS.onExtruder (hS.extruder.runAt _)

theorem settle (hS : Steady Place RA RE) {plan : Plan} (hx : Place .x plan.target.x)
    (hy : Place .y plan.target.y) (started : Except DeviceError Unit) :
    Keeps (Jointwise RA RE) (settle plan started) := by
  apply hS.stopAll.attempt.bind hS.chains
  intro stopped
  apply (Keeps.finish hS.chains _).bind hS.chains
  intro _ h
  refine ⟨rfl, id, ?_, .nil hS.extruder _⟩
  intro n
  cases n with
  | x => exact (hS.axis .x).setPosition _ hx h.x
  | y => exact (hS.axis .y).setPosition _ hy h.y
  | z => exact (hS.axis .z).chains.nil _

theorem runTimed (hS : Steady Place RA RE) {plan : Plan} (hx : Place .x plan.target.x)
    (hy : Place .y plan.target.y) : Keeps (Jointwise RA RE) (runTimed plan) := by
  rw [runTimed_eq]
  apply (hS.start plan).attempt.bind hS.chains
  intro started
  exact (Keeps.optional hS.chains (hS.pause _) _).bind hS.chains fun _ => hS.settle hx hy started

/-- From one state: the height need only be a place if it is allowed there. -/
theorem carryOut (hS : Steady Place RA RE) {plan : Plan} {h : Head}
    (hx : Place .x plan.target.x) (hy : Place .y plan.target.y)
    (hz : Axis.AllowedHeight plan.target.z h.limits.height → Place .z plan.target.z) :
    Jointwise RA RE h (carryOut plan h).trace (carryOut plan h).state := by
  rw [carryOut_eq, get_bind_apply]
  have hheight := hS.onAxis ((hS.axis .z).moveToHeight hz)
  exact (Keeps.optional hS.chains hheight _).bind hS.chains
    (fun _ => Keeps.optional hS.chains (hS.runTimed hx hy) _) h

theorem follow (hS : Steady Place RA RE) {goal : Coordinates} {h : Head}
    (hplan : ∀ plan, h.position.plan goal h.mode h.velocity h.limits.travel = .done plan →
      Place .x plan.target.x ∧ Place .y plan.target.y ∧
        (Axis.AllowedHeight plan.target.z h.limits.height → Place .z plan.target.z)) :
    Jointwise RA RE h (follow goal h).trace (follow goal h).state := by
  unfold Head.follow
  rw [get_bind_apply]
  cases hp : h.position.plan goal h.mode h.velocity h.limits.travel with
  | done plan =>
    obtain ⟨hx, hy, hz⟩ := hplan plan hp
    exact hS.carryOut hx hy hz
  | failed e => exact hS.chains.nil h
  | crashed => exact hS.chains.nil h

/-- A feed rate changes neither the place nor the limits that a move is planned
with. -/
theorem linearMove (hS : Steady Place RA RE) {m : Move} {h : Head}
    (hplan : ∀ v plan, h.position.plan m.goal h.mode v h.limits.travel = .done plan →
      Place .x plan.target.x ∧ Place .y plan.target.y ∧
        (Axis.AllowedHeight plan.target.z h.limits.height → Place .z plan.target.z)) :
    Jointwise RA RE h (linearMove m h).trace (linearMove m h).state := by
  -- after the feed rate the head may be another one, but the plan is made from the same place
  have hrest : ∀ h' : Head, h'.position = h.position → h'.mode = h.mode → h'.limits = h.limits →
      Jointwise RA RE h' ((if !m.goal.isEmpty then Head.follow m.goal else pure ()) h').trace
        ((if !m.goal.isEmpty then Head.follow m.goal else pure ()) h').state := by
    intro h' hpos hmode hlim
    split
    · apply hS.follow
      intro plan hp
      rw [hpos, hmode, hlim] at hp
      rw [hlim]
      exact hplan _ plan hp
    · exact hS.chains.nil h'
  rw [linearMove_eq]
  cases hm : m.feed with
  | none => exact hrest h rfl rfl rfl
  | some feed =>
    obtain ⟨hpos, hmode, hlim⟩ := setVelocity_logical feed h
    exact Keeps.bind_of_done hS.chains (hS.setVelocity feed h) fun _ _ => hrest _ hpos hmode hlim

/-! ### Homing and releasing -/

theorem homePlane (hS : Steady Place RA RE) {n : AxisName} (h0 : Place n 0) :
    Keeps (Jointwise RA RE) (homePlane n) := by
  apply Keeps.get_bind
  intro h
  apply (hS.onAxis ((hS.axis n).setStopAction _)).bind hS.chains
  intro _
  exact hS.onAxis ((hS.axis n).home h0 _)

theorem homeHeight (hS : Steady Place RA RE) (h0 : Place .z 0) :
    Keeps (Jointwise RA RE) homeHeight :=
  Keeps.get_bind fun _ => hS.onAxis ((hS.axis .z).home h0 _)

/-- An action that is done only if it is asked for. -/
theorem optional (hS : Steady Place RA RE) {act : Act Unit} (c : Prop) [Decidable c]
    (hact : Keeps (Jointwise RA RE) act) :
    Keeps (Jointwise RA RE) (if c then act else pure ()) := Keeps.optional hS.chains hact c

theorem home (hS : Steady Place RA RE) (h0 : ∀ n, Place n 0) (axes : AxisSet) :
    Keeps (Jointwise RA RE) (home axes) := by
  rw [home_eq]
  apply (hS.optional _ (hS.homePlane (h0 .x))).bind hS.chains
  intro _
  apply (hS.optional _ (hS.homePlane (h0 .y))).bind hS.chains
  intro _
  exact hS.optional _ (hS.homeHeight (h0 .z))

theorem release (hS : Steady Place RA RE) (axes : AxisSet) :
    Keeps (Jointwise RA RE) (release axes) := by
  rw [release_eq]
  apply (hS.optional _ (hS.onAxis (hS.axis .x).release)).bind hS.chains
  intro _
  apply (hS.optional _ (hS.onAxis (hS.axis .y).release)).bind hS.chains
  intro _
  apply (hS.optional _ (hS.onAxis (hS.axis .z).release)).bind hS.chains
  intro _
  exact hS.optional _ (hS.onExtruder hS.extruder.release)

end Steady

/-! ### Instructions -/

/-- Executing the instruction from the head gives places only coordinates that are
places. -/
def Admits (Place : AxisName → Binary64 → Prop) : Instruction → Head → Prop
  | .move m, h => ∀ v plan, h.position.plan m.goal h.mode v h.limits.travel = .done plan →
      Place .x plan.target.x ∧ Place .y plan.target.y ∧
        (Axis.AllowedHeight plan.target.z h.limits.height → Place .z plan.target.z)
  | .setPosition c, _ => (∀ p ∈ c.x, Place .x p) ∧ (∀ p ∈ c.y, Place .y p) ∧ ∀ p ∈ c.z, Place .z p
  | .home _, _ => ∀ n, Place n 0
  | _, _ => True

/-- **An instruction keeps what single steps keep**, if it admits only places. -/
theorem jointwise_execute (hS : Steady Place RA RE) {i : Instruction} {h : Head}
    (hi : Admits Place i h) : Jointwise RA RE h (execute i h).trace (execute i h).state := by
  cases i with
  | move m => exact hS.linearMove hi
  | pause micros => exact hS.pause micros h
  | setPositioning mode => exact hS.setMode mode h
  | setPosition c =>
    obtain ⟨hx, hy, hz⟩ := hi
    exact hS.setPosition hx hy hz h
  | home axes => exact hS.home hi axes h
  | release axes => exact hS.release axes h

/-- Where every coordinate is a place every instruction is admitted. -/
theorem admits_of_forall (hP : ∀ n p, Place n p) (i : Instruction) (h : Head) :
    Admits Place i h := by
  cases i with
  | move m =>
    intro v plan _
    exact ⟨hP _ _, hP _ _, fun _ => hP _ _⟩
  | setPosition c => exact ⟨fun p _ => hP _ p, fun p _ => hP _ p, fun p _ => hP _ p⟩
  | home axes =>
    intro n
    exact hP n 0
  | _ => trivial

/-- **Every instruction keeps what single steps keep.** -/
theorem keeps_execute (hS : Steady (fun _ _ => True) RA RE) (i : Instruction) :
    Keeps (Jointwise RA RE) (execute i) := fun h =>
  jointwise_execute hS (admits_of_forall (fun _ _ => trivial) i h)

end

end Head

end TachoPrint
