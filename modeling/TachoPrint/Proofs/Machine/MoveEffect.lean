import TachoPrint.Proofs.Machine.Obedience
import TachoPrint.Proofs.Machine.Orders
import TachoPrint.Proofs.Machine.Place

/-!
# What a move does

A move that is planned and whose height is allowed does two things: it changes the height,
and then it crosses the plane in a timed move.  Each is written out in full: the orders that
the motors are given, up to the first that fails, the delays, the stops that follow whatever
happened, and the place where all this leaves the head.

## Main definitions

* `Head.heightOrders`, `Head.raised` — the orders of a change of height, and the head after it.
* `Head.timedEvents`, `Head.timedSucceeds` — the trace of a timed move, and whether every
  motor starts and stops.
* `Head.timedFault?`, `Head.moveFault?` — the first fault of a timed move, and of a whole move.

## Main results

* `Head.sum_chunks` — the single delays make up the delay.
* `Head.raise_run`, `Head.runTimed_run` — a change of height, and a timed move.
* `Head.linearMove_effect` — **the full effect of a move.**
-/

namespace TachoPrint

open TachoPrint.Action

namespace Head

/-- **The single delays make up the delay.** -/
@[simp] theorem sum_chunks (micros : Nat) : ((chunks micros).map UInt32.toNat).sum = micros := by
  have hchunk : ∀ n ≤ maxChunk, (UInt32.ofNat n).toNat = n := by
    intro n hn
    exact UInt32.toNat_ofNat_of_lt (Nat.lt_of_le_of_lt hn (by decide))
  have hrest : micros % maxChunk ≤ maxChunk := Nat.le_of_lt (Nat.mod_lt _ (by decide))
  have hsum := Nat.div_add_mod micros maxChunk
  unfold chunks
  rw [List.map_append, List.sum_append_nat, List.map_replicate, List.sum_replicate_nat,
    hchunk maxChunk (Nat.le_refl _), Nat.mul_comm]
  split
  · next h =>
    rw [h] at hsum
    simpa using hsum
  · simpa [hchunk _ hrest] using hsum

/-! ### The change of height -/

/-- The orders of a change to the height of a plan: none if the head has it, or if the way
has no counts. -/
def heightOrders (h : Head) (plan : Plan) : List Order :=
  if plan.target.z.equals h.position.z then []
  else orders (.axis .z)
    (Axis.turnScript (h.z.toCounts h.z.setup.speed) (h.z.heightCounts plan.target.z))

/-- The head after a change to the height of a plan.  It is at that height only if every
order was obeyed. -/
def raised (h : Head) (plan : Plan) : Head :=
  let there := h.afterAll (h.heightOrders plan)
  if !plan.target.z.equals h.position.z && h.obeysAll (h.heightOrders plan) then
    there.withAxis .z { there.z with position := plan.target.z }
  else there

/-- **A change of height gives its orders**, and states the new height if they are obeyed. -/
theorem raise_run {h : Head} {plan : Plan} (hspeed : h.z.setup.speed.isPositive)
    (hheight : plan.target.z.equals h.position.z ∨
      Axis.AllowedHeight plan.target.z h.limits.height)
    (hc : (raise plan h).ending ≠ .crashed) :
    raise plan h = ⟨h.answers (h.heightOrders plan), h.raised plan,
      endingOf (h.firstFault? (h.heightOrders plan))⟩ := by
  have hraise : raise plan h = (if !plan.target.z.equals h.position.z then
      onAxis .z (Axis.moveToHeight plan.target.z h.limits.height) else pure ()) h := rfl
  unfold raised
  cases hz : plan.target.z.equals h.position.z with
  | true =>
    rw [hraise, hz]
    unfold heightOrders
    rw [hz]
    rfl
  | false =>
    have hallowed : Axis.AllowedHeight plan.target.z h.limits.height :=
      hheight.resolve_left (by rw [hz]; exact Bool.false_ne_true)
    -- the change is the turn, and then the new height
    have hmove : raise plan h = (give (h.heightOrders plan) >>= fun _ =>
        onAxis .z (Axis.setPosition plan.target.z)) h := by
      rw [hraise, hz]
      change onAxis .z _ h = _
      rw [onAxis_congr (Axis.moveToHeight_eq hspeed hallowed), ← onAxis_bind, onAxis_turn]
      unfold heightOrders
      rw [hz]
      rfl
    rw [hmove] at hc ⊢
    have hgive := give_eq (ending_ne_crashed_of_bind hc)
    rw [← isNone_firstFault?]
    cases hfault : h.firstFault? (h.heightOrders plan) with
    | none =>
      rw [hfault] at hgive
      rw [bind_of_done (congrArg Run.ending hgive), hgive]
      simp [onAxis, within, Axis.setPosition, Action.modify, axis]
    | some fault =>
      rw [hfault] at hgive
      rw [bind_of_failed (congrArg Run.ending hgive), hgive]
      simp

/-! ### The timed move -/

/-- The trace of a timed move: the orders that start it, up to the first that fails, the
delay if none does, and a stop of every motor. -/
def timedEvents (h : Head) (plan : Plan) : List Event :=
  h.answers (h.startOrders plan) ++
    ((if h.obeysAll (h.startOrders plan) then (chunks (planMicros plan).toNat).map Event.slept
      else []) ++ (h.afterAll (h.startOrders plan)).stopEvents)

/-- Every motor of a timed move starts, and every motor stops. -/
def timedSucceeds (h : Head) (plan : Plan) : Bool :=
  h.obeysAll (h.startOrders plan) &&
    !(h.afterAll (h.startOrders plan)).motors.any fun p => p.2.fails .stop

/-- The first fault of a timed move: of the orders that start it, or else of the stops. -/
def timedFault? (h : Head) (plan : Plan) : Option MotorFault :=
  (h.firstFault? (h.startOrders plan)).or (h.afterAll (h.startOrders plan)).stopFault?

/-- A timed move succeeds where it has no first fault. -/
@[simp] theorem isNone_timedFault? (h : Head) (plan : Plan) :
    (h.timedFault? plan).isNone = h.timedSucceeds plan := by
  unfold timedFault? timedSucceeds
  rw [← isNone_firstFault?, ← isSome_stopFault?]
  cases h.firstFault? (h.startOrders plan) with
  | none => simp
  | some fault => simp

/-- The head after a timed move.  It is at the target only if everything succeeded. -/
def timed (h : Head) (plan : Plan) : Head :=
  let stopped := (h.afterAll (h.startOrders plan)).halted
  if h.timedSucceeds plan then stopped.arrived plan else stopped

/-- The end of a timed move by what its start reported: a fault of the start comes before one
of the stops. -/
theorem settle_run (plan : Plan) (started : Option MotorFault) (h : Head) :
    settle plan (report started) h =
      ⟨h.stopEvents,
        if (started.or h.stopFault?).isNone then h.halted.arrived plan else h.halted,
        endingOf (started.or h.stopFault?)⟩ := by
  have hstop : attempt stopAll h =
      ⟨h.stopEvents, h.halted, .done (report h.stopFault?)⟩ := by
    simp only [attempt, stopAll_eq]
    cases h.stopFault? <;> rfl
  unfold settle
  rw [bind_of_done (congrArg Run.ending hstop), hstop]
  cases started with
  | some fault => simp [report, bind, Except.bind, Outcome.ofExcept, andThen, finish]
  | none =>
    cases h.stopFault? with
    | some fault => simp [report, bind, Except.bind, Outcome.ofExcept, andThen, finish]
    | none => simp [report, bind, Except.bind, Outcome.ofExcept, andThen, finish, arrived,
        Action.modify]

theorem call_of_mem_startOrders {h : Head} {plan : Plan} {o : Order}
    (ho : o ∈ h.startOrders plan) : o.command.call ≠ .turn := by
  simp only [startOrders, orders, List.mem_append, List.mem_map] at ho
  rcases ho with ⟨c, hc, rfl⟩ | ⟨c, hc, rfl⟩ | ⟨c, hc, rfl⟩
  · exact Axis.call_of_mem_runScript hc
  · exact Axis.call_of_mem_runScript hc
  · unfold feedScript at hc
    cases he : h.e with
    | none =>
      rw [he] at hc
      cases hc
    | some e =>
      rw [he] at hc
      exact Axis.call_of_mem_runScript hc

/-- **A timed move gives its orders, waits unless one failed, and stops every motor.** -/
theorem runTimed_run (plan : Plan) (h : Head) :
    runTimed plan h = ⟨h.timedEvents plan, h.timed plan, endingOf (h.timedFault? plan)⟩ := by
  have hstart : start plan h = ⟨h.answers (h.startOrders plan), h.afterAll (h.startOrders plan),
      endingOf (h.firstFault? (h.startOrders plan))⟩ := by
    rw [start_eq]
    exact give_eq (give_ne_crashed (fun o => call_of_mem_startOrders) h)
  have hstarted : attempt (start plan) h = ⟨h.answers (h.startOrders plan),
      h.afterAll (h.startOrders plan), .done (report (h.firstFault? (h.startOrders plan)))⟩ := by
    simp only [attempt, hstart]
    cases h.firstFault? (h.startOrders plan) <;> rfl
  rw [runTimed_eq, bind_of_done (congrArg Run.ending hstarted), hstarted]
  unfold timedEvents timed
  rw [← isNone_timedFault?, ← isNone_firstFault?]
  unfold timedFault?
  cases h.firstFault? (h.startOrders plan) with
  | none =>
    have hpause : ((if (report none).isOk then pause (planMicros plan) else pure ())
        (h.afterAll (h.startOrders plan))) = ⟨(chunks (planMicros plan).toNat).map Event.slept,
          h.afterAll (h.startOrders plan), .done ()⟩ := rfl
    rw [bind_of_done (congrArg Run.ending hpause), hpause, settle_run]
    rfl
  | some fault =>
    have hpause : ((if (report (some fault)).isOk then pause (planMicros plan) else pure ())
        (h.afterAll (h.startOrders plan))) = ⟨[], h.afterAll (h.startOrders plan), .done ()⟩ := rfl
    rw [bind_of_done (congrArg Run.ending hpause), hpause, settle_run]
    rfl

/-! ### The move -/

/-- Every order of the change of height is obeyed, and so is the timed move, if there is
one. -/
def moveSucceeds (h : Head) (plan : Plan) : Bool :=
  h.obeysAll (h.heightOrders plan) && (plan.isIdle || (h.raised plan).timedSucceeds plan)

/-- The first fault of a move with a plan: of the change of height, or else of the timed move,
if there is one. -/
def moveFault? (h : Head) (plan : Plan) : Option MotorFault :=
  (h.firstFault? (h.heightOrders plan)).or
    (if plan.isIdle then none else (h.raised plan).timedFault? plan)

/-- A move with a plan succeeds where it has no first fault. -/
theorem isNone_moveFault? (h : Head) (plan : Plan) :
    (h.moveFault? plan).isNone = h.moveSucceeds plan := by
  unfold moveFault? moveSucceeds
  rw [← isNone_firstFault?, ← isNone_timedFault?]
  cases h.firstFault? (h.heightOrders plan) with
  | some fault => simp
  | none => cases plan.isIdle <;> simp

/-- There is a timed move, and the change of height before it succeeds. -/
def crosses (h : Head) (plan : Plan) : Bool :=
  h.obeysAll (h.heightOrders plan) && !plan.isIdle

/-- The trace of a move with a plan: the orders of the change of height, up to the first
that fails, and the timed move if none does. -/
def moveEvents (h : Head) (plan : Plan) : List Event :=
  h.answers (h.heightOrders plan) ++
    if h.crosses plan then (h.raised plan).timedEvents plan else []

/-- The head after a move with a plan. -/
def moved (h : Head) (plan : Plan) : Head :=
  if h.crosses plan then (h.raised plan).timed plan else h.raised plan

/-- **A plan is carried out height first.**  The plane is not crossed unless the whole
change of height succeeded. -/
theorem carryOut_run {h : Head} {plan : Plan} (hspeed : h.z.setup.speed.isPositive)
    (hheight : plan.target.z.equals h.position.z ∨
      Axis.AllowedHeight plan.target.z h.limits.height)
    (hc : (carryOut plan h).ending ≠ .crashed) :
    carryOut plan h = ⟨h.moveEvents plan, h.moved plan, endingOf (h.moveFault? plan)⟩ := by
  rw [carryOut_eq_raise] at hc ⊢
  have hraise := raise_run hspeed hheight (ending_ne_crashed_of_bind hc)
  unfold moveEvents moved moveFault? crosses
  rw [← isNone_firstFault?]
  cases hfault : h.firstFault? (h.heightOrders plan) with
  | some fault =>
    rw [hfault] at hraise
    rw [bind_of_failed (congrArg Run.ending hraise), hraise]
    simp
  | none =>
    rw [hfault] at hraise
    rw [bind_of_done (congrArg Run.ending hraise), hraise]
    cases plan.isIdle with
    | true => simp [Pure.pure, finish]
    | false => simp [runTimed_run]

/-! ### Where it leaves the head -/

/-- The height after a change of height. -/
def newHeight (h : Head) (plan : Plan) : Binary64 :=
  if !plan.target.z.equals h.position.z && h.obeysAll (h.heightOrders plan) then plan.target.z
  else h.position.z

/-- The place after a move.  A timed move leads to its target if it succeeds. -/
def newPosition (h : Head) (plan : Plan) : Position :=
  let place := if h.moveSucceeds plan && !plan.isIdle then plan.target else h.position
  { place with z := h.newHeight plan }

/-- The head has the planned height just when every order of the change of height was
obeyed. -/
theorem newHeight_equals {h : Head} {plan : Plan} (hheight : plan.target.z.equals h.position.z ∨
      Axis.AllowedHeight plan.target.z h.limits.height) :
    (h.newHeight plan).equals plan.target.z = h.obeysAll (h.heightOrders plan) := by
  unfold newHeight
  cases hz : plan.target.z.equals h.position.z with
  | true =>
    -- nothing is ordered, and the height was that of the plan
    have hnone : h.heightOrders plan = [] := by
      unfold heightOrders
      rw [hz]
      rfl
    rw [hnone, Binary64.equals_comm]
    exact hz
  | false =>
    have hallowed := hheight.resolve_left (by rw [hz]; exact Bool.false_ne_true)
    have hfinite := hallowed.isFinite
    cases h.obeysAll (h.heightOrders plan) with
    | true => exact (Binary64.equals_iff (Binary64.isNaN_of_isFinite hfinite)).mpr rfl
    | false =>
      rw [Binary64.equals_comm]
      exact hz

/-- A change of height changes no coordinate but the height. -/
theorem logical_raised (h : Head) (plan : Plan) :
    (h.raised plan).logical = ({ h.position with z := h.newHeight plan }, h.velocity, h.mode) := by
  have hafter := logical_afterAll h (h.heightOrders plan)
  unfold raised newHeight
  unfold logical position at hafter ⊢
  simp only [Prod.mk.injEq, Position.mk.injEq] at hafter
  split
  · simp [withAxis, hafter]
  · simp [hafter]

/-- A timed move changes no height. -/
theorem logical_timed (h : Head) (plan : Plan) :
    (h.timed plan).logical = (if h.timedSucceeds plan then h.arrived plan else h).logical := by
  have hafter := logical_afterAll h (h.startOrders plan)
  unfold logical position at hafter
  simp only [Prod.mk.injEq, Position.mk.injEq] at hafter
  unfold timed logical position
  split <;> simp [halted, arrived, hafter]

theorem logical_moved (h : Head) (plan : Plan) :
    (h.moved plan).logical = (h.newPosition plan, h.velocity, h.mode) := by
  have hraised := logical_raised h plan
  unfold moved newPosition moveSucceeds crosses
  cases hcross : h.obeysAll (h.heightOrders plan) && !plan.isIdle with
  | false =>
    -- without a timed move the change of height is all there is
    have hplace : (h.obeysAll (h.heightOrders plan) &&
        (plan.isIdle || (h.raised plan).timedSucceeds plan) && !plan.isIdle) = false := by
      rw [Bool.and_right_comm, hcross]
      rfl
    rw [hplace]
    exact hraised
  | true =>
    obtain ⟨hok, hidle⟩ := Bool.and_eq_true_iff.mp hcross
    rw [Bool.not_eq_true'] at hidle
    rw [hok, hidle]
    simp only [Bool.true_and, Bool.false_or, Bool.not_false, Bool.and_true, if_true]
    rw [logical_timed]
    unfold logical position at hraised ⊢
    simp only [Prod.mk.injEq, Position.mk.injEq] at hraised
    cases (h.raised plan).timedSucceeds plan with
    | true => simp [arrived, hraised]
    | false => simp [hraised]

/-- The head as the plan of a move finds it: at the speed that the move states, if it
states one. -/
def atSpeedOf (h : Head) (m : Move) : Head := { h with velocity := m.feed.getD h.velocity }

theorem linearMove_atSpeedOf {m : Move} (hfeed : ∀ v ∈ m.feed, v.isPositive = true)
    (hgoal : m.goal.isEmpty = false) (h : Head) :
    linearMove m h = follow m.goal (h.atSpeedOf m) := by
  rw [linearMove_eq, hgoal]
  unfold atSpeedOf
  cases hm : m.feed with
  | none => rfl
  | some feed =>
    have hset := setVelocity_of_isPositive (hfeed feed hm) h
    simp only [bind_of_done (congrArg Run.ending hset), hset]
    rfl

theorem follow_of_plan {goal : Coordinates} {h : Head} {plan : Plan}
    (hplan : h.position.plan goal h.mode h.velocity h.limits.travel = .done plan) :
    follow goal h = carryOut plan h := by
  unfold follow
  rw [get_bind_apply, hplan]
  rfl

/-- **The full effect of a move.**  With a vertical axis that has a speed, let a move have a
feed rate that is accepted, a goal, a plan, and a height that the head has or that is allowed,
and let it not crash.  Then its trace is that of the change of height followed by that of the
timed move, whose delays make up the planned time; it succeeds if no motor failed, and otherwise
ends with the first fault that a driver reported; the head is at the planned height just when the
change of height succeeded, and at the planned place if there was a timed move and everything
succeeded; and the feed rate is in force however it ended. -/
theorem linearMove_effect {m : Move} {h : Head} {plan : Plan}
    (hspeed : h.z.setup.speed.isPositive = true) (hfeed : ∀ v ∈ m.feed, v.isPositive = true)
    (hgoal : m.goal.isEmpty = false)
    (hplan : h.position.plan m.goal h.mode (m.feed.getD h.velocity) h.limits.travel = .done plan)
    (hheight : plan.target.z.equals h.position.z = true ∨
      Axis.AllowedHeight plan.target.z h.limits.height)
    (hc : (linearMove m h).ending ≠ .crashed) :
    let start := h.atSpeedOf m
    linearMove m h = ⟨start.moveEvents plan, start.moved plan,
        endingOf (start.moveFault? plan)⟩ ∧
      (start.moveFault? plan).isNone = start.moveSucceeds plan ∧
      ((chunks (planMicros plan).toNat).map UInt32.toNat).sum = (planMicros plan).toNat ∧
      (start.moved plan).logical = (start.newPosition plan, m.feed.getD h.velocity, h.mode) ∧
      (start.newHeight plan).equals plan.target.z = start.obeysAll (start.heightOrders plan) := by
  intro start
  have hfollow : linearMove m h = carryOut plan start :=
    (linearMove_atSpeedOf hfeed hgoal h).trans (follow_of_plan hplan)
  rw [hfollow] at hc ⊢
  exact ⟨carryOut_run hspeed hheight hc, isNone_moveFault? start plan, sum_chunks _,
    logical_moved start plan, newHeight_equals hheight⟩

/-- A lift to the height of 5, and then the way to (30, 40) at a speed of 10. -/
def liftAndCross : Move := ⟨{ x := some 30, y := some 40, z := some 5 }, some 10⟩

/-- The second motor takes its speed but does not run, and the first does not stop: the height is
changed, nothing is waited for, every motor is told to stop, the head is above the place where it
was, and the run is what is reported. -/
theorem linearMove_effect_liftAndCross :
    let h := standard fun j c _ =>
      if j = .axis .y ∧ c = .run then some ⟨"Stalled"⟩
      else if j = .axis .x ∧ c = .stop then some ⟨"Unplugged"⟩
      else none
    let plan : Plan := ⟨⟨30, 40, 5, 0⟩, 5, 6, 8, 0⟩
    linearMove liftAndCross h = ⟨(h.atSpeedOf liftAndCross).moveEvents plan,
        (h.atSpeedOf liftAndCross).moved plan, .failed (.motor ⟨"Stalled"⟩)⟩ ∧
      ((h.atSpeedOf liftAndCross).moveEvents plan).length = 10 ∧
      (linearMove liftAndCross h).state.logical = (⟨0, 0, 5, 0⟩, 10, .absolute) := by
  intro h plan
  have hplan : h.position.plan liftAndCross.goal h.mode (liftAndCross.feed.getD h.velocity)
      h.limits.travel = .done plan := by decide +kernel
  have hallowed : Axis.AllowedHeight plan.target.z h.limits.height := by
    unfold Axis.AllowedHeight
    decide +kernel
  obtain ⟨hrun, -, -, hlogical, -⟩ := linearMove_effect (by decide +kernel) (by decide +kernel) rfl
    hplan (.inr hallowed) (by decide +kernel)
  have hfault : (h.atSpeedOf liftAndCross).moveFault? plan = some ⟨"Stalled"⟩ := by
    decide +kernel
  rw [hfault] at hrun
  refine ⟨hrun, by decide +kernel, ?_⟩
  rw [hrun, hlogical]
  decide +kernel

end Head

end TachoPrint
