import TachoPrint.Proofs.Machine.LeftOut
import TachoPrint.Proofs.Machine.MoveEffect
import TachoPrint.Proofs.Motion.Gearing

/-!
# Moves that are too slow for a motor

A timed move rounds twice: the way along an axis is so many counts, and the speed there so many
counts per second.  A motor that has a way but no speed is told to stop, and the head is taken
to have gone the way all the same.  Where there is a speed it has the sign of the way, and there
is one if the move takes no more than a second, since then the speed is no smaller than the way.

## Main definitions

* `Plan.along` — the speed of a plan along an axis.
* `Head.way` — the way that a move takes the head along an axis.

## Main results

* `Head.eventsAt_answers` — orders that are all obeyed, as one axis sees them.
* `Head.exists_trace_of_timed` — the delay of a timed move that succeeds, and what an axis of the
  plane was told before it.
* `Head.driven_of_moved` — **an axis that is taken to have moved was driven, unless the move is
  too slow for it.**
-/

namespace TachoPrint

open TachoPrint.Action

/-- The speed of a plan along an axis.  A timed move does not change the height. -/
def Plan.along (plan : Plan) : AxisName → Binary64
  | .x => plan.vx
  | .y => plan.vy
  | .z => 0

namespace Head

/-- The way that a move takes the head along an axis: its new coordinate less the old one. -/
def way (h : Head) (m : Move) (n : AxisName) : Binary64 :=
  ((linearMove m h).state.axis n).position - (h.axis n).position

variable {h : Head} {m : Move} {n : AxisName} {plan : Plan} {os : List Order}

/-! ### What one axis sees of the orders -/

theorem eventsAt_answer (n : AxisName) {o : Order} (ho : h.fails o = false) :
    eventsAt (.axis n) (h.answer o) = if o.joint = .axis n then [.obeyed o.command] else [] := by
  unfold answer
  rw [← isSome_fault?] at ho
  unfold fault? at ho
  cases hm : h.motor? o.joint with
  | none =>
    -- only the extruder can be missing
    rw [if_neg fun hj => by rw [hj] at hm; cases hm]
    rfl
  | some motor =>
    rw [hm, Option.bind_some, Option.isSome_eq_false_iff, Option.isNone_iff_eq_none] at ho
    have hobeyed : motor.answer o.command = .obeyed o.command := by
      unfold Motor.answer
      rw [ho]
    change eventsAt _ ([motor.answer o.command].map (Event.device o.joint)) = _
    rw [eventsAt_map_device, hobeyed]

/-- **Orders that are all obeyed**, as one axis sees them: its own commands, in their order. -/
theorem eventsAt_answers (n : AxisName) (hobeys : h.obeysAll os = true) :
    eventsAt (.axis n) (h.answers os) =
      (os.filter (·.joint = .axis n)).map (DeviceEvent.obeyed ·.command) := by
  -- on the orders, with the head that the earlier ones leave
  induction os generalizing h with
  | nil => rfl
  | cons o os ih =>
    obtain ⟨ho, hrest⟩ := Bool.and_eq_true_iff.mp hobeys
    rw [Bool.not_eq_true'] at ho
    unfold answers
    rw [if_neg (Bool.eq_false_iff.mp ho), eventsAt_append, eventsAt_answer n ho, ih hrest,
      List.filter_cons]
    by_cases hj : o.joint = .axis n
    · simp [hj]
    · simp [hj]

@[simp] theorem filter_orders (j k : Joint) (cs : List MotorCommand) :
    (orders j cs).filter (·.joint = k) = if j = k then orders j cs else [] := by
  unfold orders
  split
  · next h => simp [h]
  · next h => simp [h]

/-- Of the orders that start a timed move an axis of the plane sees its own run. -/
theorem filter_startOrders (hn : n ≠ .z) (h : Head) (plan : Plan) :
    (h.startOrders plan).filter (·.joint = .axis n) =
      orders (.axis n) (Axis.runScript ((h.axis n).toCounts (plan.along n))) := by
  unfold startOrders
  rw [List.filter_append, List.filter_append, filter_orders, filter_orders, filter_orders]
  cases n with
  | x => simp [Plan.along, axis]
  | y => simp [Plan.along, axis]
  | z => exact absurd rfl hn

/-! ### The timed move -/

/-- A timed move that succeeds has its delay, and before it an axis of the plane sees nothing but
its run. -/
theorem exists_trace_of_timed (hn : n ≠ .z) (ht : h.timedPlan? m = some plan)
    (hdone : (linearMove m h).ending = .done ()) :
    ∃ before after, (linearMove m h).trace =
        before ++ ((chunks (planMicros plan).toNat).map Event.slept ++ after) ∧
      eventsAt (.axis n) before =
        (Axis.runScript ((h.axis n).toCounts (plan.along n))).map DeviceEvent.obeyed := by
  have hmove : linearMove m h = (approach m >>= fun _ => runTimed? (h.timedPlan? m)) h :=
    move_eq m h
  rw [hmove] at hdone ⊢
  rw [ht] at hdone ⊢
  obtain ⟨u, happroach, htimed⟩ := exists_of_bind_done hdone
  obtain ⟨hquiet, haxis⟩ := undisturbed_approach hn m h
  rw [bind_of_done happroach]
  generalize (approach m h).state = there at htimed hquiet haxis ⊢
  change (runTimed plan there).ending = _ at htimed
  change ∃ before after, (approach m h).trace ++ (runTimed plan there).trace = _ ∧ _
  rw [runTimed_run] at htimed ⊢
  have hsucceeds : there.timedSucceeds plan = true := by
    rw [← isNone_timedFault?, Option.isNone_iff_eq_none]
    exact endingOf_eq_done_iff.mp htimed
  have hstarts := (Bool.and_eq_true_iff.mp hsucceeds).1
  refine ⟨(approach m h).trace ++ there.answers (there.startOrders plan),
    (there.afterAll (there.startOrders plan)).stopEvents, ?_, ?_⟩
  · simp only [timedEvents, hstarts, if_true, List.append_assoc]
  · rw [eventsAt_append, hquiet, eventsAt_answers n hstarts, filter_startOrders hn, haxis, orders,
      List.map_map]
    rfl

/-- A timed move goes along an axis of the plane at the way by the time that it takes. -/
theorem along_of_timed (hn : n ≠ .z) (ht : h.timedPlan? m = some plan)
    (hdone : (linearMove m h).ending = .done ()) :
    plan.duration.isPositive = true ∧ plan.along n = h.way m n / plan.duration := by
  obtain ⟨hplan, hidle⟩ := plan_of_timedPlan? ht
  obtain ⟨-, -, hto⟩ := Position.exists_planTo_of_plan hplan
  obtain ⟨hvx, hvy⟩ := Position.speeds_of_planTo hto hidle
  have hplace : (linearMove m h).state.AtPlace plan.target := atPlace_of_timed ht hdone
  refine ⟨Position.isPositive_duration_of_planTo hto hidle, ?_⟩
  cases n with
  | x =>
    change _ = ((linearMove m h).state.x.position - _) / _
    rw [hplace.x]
    exact hvx
  | y =>
    change _ = ((linearMove m h).state.y.position - _) / _
    rw [hplace.y]
    exact hvy
  | z => exact absurd rfl hn

/-- Only a timed move leaves an axis of the plane at another place. -/
theorem exists_timed_of_moved (hn : n ≠ .z)
    (hmoved : ¬(h.way m n).Vanishes) : ∃ plan, h.timedPlan? m = some plan := by
  refine Option.ne_none_iff_exists'.mp fun hnone => hmoved ?_
  have hplace : (linearMove m h).state.AtPlace h.position := atPlace_of_untimed hnone
  have hsame : ((linearMove m h).state.axis n).position = (h.axis n).position := by
    cases n with
    | x => exact hplace.x
    | y => exact hplace.y
    | z => exact absurd rfl hn
  rw [way, hsame]
  exact Binary64.vanishes_sub_self _

/-- **An axis that is taken to have moved was driven, unless the move is too slow for it.**  Let a
move succeed and its way along an axis of the plane be some counts.  Then it has a timed move, and
all that the motor is told before the delay is to run at the speed at which the way takes the time
of the plan, or to stop if that speed is no count per second.  The speed has the sign of the way,
and it is some counts if the move takes no more than a second. -/
theorem driven_of_moved (hn : n ≠ .z) (hdone : (linearMove m h).ending = .done ())
    (hmoved : (h.axis n).toCounts (h.way m n) ≠ 0) :
    ∃ plan before after, h.timedPlan? m = some plan ∧
      (linearMove m h).trace =
        before ++ ((chunks (planMicros plan).toNat).map Event.slept ++ after) ∧
      let speed := (h.axis n).toCounts (h.way m n / plan.duration)
      eventsAt (.axis n) before =
        (if speed = 0 then [.obeyed .stop] else [.obeyed (.speed speed), .obeyed .run]) ∧
      (speed ≠ 0 → speed.toInt.sign = ((h.axis n).toCounts (h.way m n)).toInt.sign) ∧
      (plan.duration.atMost 1 → speed ≠ 0) := by
  have hvanishes : ¬(h.way m n).Vanishes := fun hv =>
    hmoved ((h.axis n).gearing.toCounts_of_vanishes hv)
  obtain ⟨plan, ht⟩ := exists_timed_of_moved hn hvanishes
  obtain ⟨hpositive, halong⟩ := along_of_timed hn ht hdone
  obtain ⟨before, after, htrace, hbefore⟩ := exists_trace_of_timed hn ht hdone
  have hnumber : (h.way m n).isNaN = false := Binary64.isNaN_of_not_vanishes hvanishes
  refine ⟨plan, before, after, ht, htrace, ?_, ?_, ?_⟩
  · rw [hbefore, halong, Axis.runScript]
    split <;> rfl
  · intro hspeed
    exact Gearing.sign_toCounts_eq (Binary64.negative_div hnumber hpositive) hspeed hmoved
  · intro hshort
    exact Gearing.toCounts_ne_zero_of_within (Binary64.within_div hnumber hpositive hshort) hmoved

/-- A way of a second to (30, 40). -/
def aSecond : Move := ⟨{ x := some 30, y := some 40 }, some 50⟩

/-- The first motor of the standard printer has 150 counts to go, and runs at as many counts per
second. -/
theorem driven_of_moved_aSecond :
    let h := standard fun _ _ _ => none
    (linearMove aSecond h).ending = .done () ∧ h.x.toCounts (h.way aSecond .x) = 150 ∧
      ∃ before after, (linearMove aSecond h).trace =
          before ++ ((chunks 1000000).map Event.slept ++ after) ∧
        eventsAt (.axis .x) before = [.obeyed (.speed 150), .obeyed .run] := by
  intro h
  have hdone : (linearMove aSecond h).ending = .done () := by decide +kernel
  have hway : h.x.toCounts (h.way aSecond .x) = 150 := by decide +kernel
  have hmoved : (h.axis .x).toCounts (h.way aSecond .x) ≠ 0 := by decide +kernel
  obtain ⟨plan, before, after, ht, htrace, hevents, -, hshort⟩ :=
    driven_of_moved (n := .x) (by decide) hdone hmoved
  have hplan : h.timedPlan? aSecond = some ⟨⟨30, 40, 0, 0⟩, 1, 30, 40, 0⟩ := by decide +kernel
  obtain rfl := Option.some.inj (ht.symm.trans hplan)
  have hspeed : (h.axis .x).toCounts (h.way aSecond .x / 1) = 150 := by decide +kernel
  have hdelay : (planMicros ⟨⟨30, 40, 0, 0⟩, 1, 30, 40, 0⟩).toNat = 1000000 := by decide +kernel
  rw [if_neg (hshort (by decide +kernel)), hspeed] at hevents
  rw [hdelay] at htrace
  exact ⟨hdone, hway, before, after, htrace, hevents⟩

/-- A millimetre at three millimetres per minute. -/
def creep : Move := ⟨{ x := some 1 }, some 0.05⟩

/-- The head is taken to have gone five counts on which no motor was driven. -/
theorem not_driven_of_moved :
    ¬∀ (setup : PrinterSetup) (h : Head) (m : Move), setup.fault? = none → Printed setup h →
      h.Obeys → (linearMove m h).ending = .done () → h.x.toCounts (h.way m .x) ≠ 0 →
        ∃ (speed : Int32) (before after : List Event), (linearMove m h).trace = before ++ after ∧
          speed ≠ 0 ∧ speed.toInt.sign = (h.x.toCounts (h.way m .x)).toInt.sign ∧
          .obeyed (.speed speed) ∈ eventsAt (.axis .x) before ∧
          .obeyed .run ∈ eventsAt (.axis .x) before := by
  intro hall
  have hsetup : PrinterSetup.standard.fault? = none := by decide +kernel
  obtain ⟨speed, before, after, htrace, -, -, -, hrun⟩ := hall .standard (dry .standard) creep
    hsetup (.assembled (assemble_simulated .standard)) (dry_dry hsetup).obeys (by decide +kernel)
    (by decide +kernel)
  have hnone : DeviceEvent.obeyed .run ∉
      eventsAt (.axis .x) (linearMove creep (dry .standard)).trace := by
    decide +kernel
  rw [htrace, eventsAt_append, List.mem_append] at hnone
  exact hnone (.inl hrun)

end Head

end TachoPrint
