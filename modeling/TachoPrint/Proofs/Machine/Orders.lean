import TachoPrint.Proofs.Machine.Parts

/-!
# Orders to the motors

An order is one command for the motor of one joint.  Orders are given one after the other
up to the first that fails, so the motors alone decide how far a list of orders gets and
what it leaves in the trace.  Turns, runs and the start of a timed move are such lists.

## Main definitions

* `Head.Order` — a command and the joint that it is for.
* `Head.answers`, `Head.afterAll`, `Head.firstFault?` — what comes of a list of orders: the
  events, the head, and the fault of the first that fails.
* `Head.obeysAll` — no order of a list fails.
* `Head.give` — the action of giving a list of orders.
* `Axis.runScript`, `Head.startOrders` — the commands of a run, and the orders that start
  a timed move.

## Main results

* `Head.give_eq` — **a list of orders leaves what the motors answer up to the first failure.**
* `Head.start_eq` — starting a timed move is giving its orders.
-/

namespace TachoPrint

open TachoPrint.Action

/-- A command that does not crash is answered. -/
theorem Motor.issue_of_ne_crashed {c : MotorCommand} {m : Motor}
    (h : (issue c m).ending ≠ .crashed) :
    issue c m = ⟨[m.answer c], m.after c, endingOf (m.fault? c.call)⟩ := by
  cases hf : m.fault? c.call with
  | some fault => simp [issue, answer, after, fails, hf]
  | none =>
    simp only [issue, hf] at h
    cases ho : Motor.obey? { m with tally := m.tally.bump c.call } c with
    | some m' => simp [issue, answer, after, fails, hf, ho]
    | none =>
      rw [ho] at h
      exact absurd rfl h

namespace Head

/-! ### Orders -/

/-- A command for the motor of a joint. -/
structure Order where
  joint : Joint
  command : MotorCommand

/-- The motor of a joint; the extruder need not have one. -/
def motor? (h : Head) : Joint → Option Motor
  | .axis n => some (h.axis n).motor
  | .extruder => h.e.map (·.motor)

/-- The head with another motor at a joint. -/
def withMotor (h : Head) (m : Motor) : Joint → Head
  | .axis n => h.withAxis n { h.axis n with motor := m }
  | .extruder => { h with e := h.e.map fun e => { e with motor := m } }

/-- The event of an order.  No order reaches a joint that is not there. -/
def answer (h : Head) (o : Order) : List Event :=
  ((h.motor? o.joint).map fun m => Event.device o.joint (m.answer o.command)).toList

/-- The order fails. -/
def fails (h : Head) (o : Order) : Bool := (h.motor? o.joint).any (·.fails o.command.call)

/-- What the driver reports to an order, if that fails. -/
def fault? (h : Head) (o : Order) : Option MotorFault :=
  (h.motor? o.joint).bind (·.fault? o.command.call)

@[simp] theorem isSome_fault? (h : Head) (o : Order) : (h.fault? o).isSome = h.fails o := by
  unfold fault? fails
  cases h.motor? o.joint with
  | none => rfl
  | some m => rfl

/-- The head after an order. -/
def after (h : Head) (o : Order) : Head :=
  (h.motor? o.joint).elim h fun m => h.withMotor (m.after o.command) o.joint

/-- The events of orders given one after the other, up to the first that fails. -/
def answers (h : Head) : List Order → List Event
  | [] => []
  | o :: os => h.answer o ++ if h.fails o then [] else (h.after o).answers os

/-- The head after orders given one after the other, up to the first that fails. -/
def afterAll (h : Head) : List Order → Head
  | [] => h
  | o :: os => if h.fails o then h.after o else (h.after o).afterAll os

/-- None of the orders fails when they are given one after the other. -/
def obeysAll (h : Head) : List Order → Bool
  | [] => true
  | o :: os => !h.fails o && (h.after o).obeysAll os

/-- The fault of the first order that fails when they are given one after the other. -/
def firstFault? (h : Head) : List Order → Option MotorFault
  | [] => none
  | o :: os => (h.fault? o).or ((h.after o).firstFault? os)

/-- Orders are all obeyed where there is no first fault among them. -/
@[simp] theorem isNone_firstFault? (h : Head) (os : List Order) :
    (h.firstFault? os).isNone = h.obeysAll os := by
  induction os generalizing h with
  | nil => rfl
  | cons o os ih =>
    unfold firstFault? obeysAll
    rw [← ih, ← isSome_fault?]
    cases h.fault? o <;> rfl

/-! ### Giving orders -/

/-- Give an order. -/
def order (o : Order) : Act Unit :=
  match o.joint with
  | .axis n => onAxis n (Axis.command o.command)
  | .extruder => onExtruder (Extruder.command o.command)

/-- Give orders one after the other, up to the first that fails. -/
def give : List Order → Act Unit
  | [] => pure ()
  | o :: os => do
      order o
      give os

/-- An order is passed on to the motor, if there is one. -/
theorem order_eq (o : Order) (h : Head) : order o h =
    match h.motor? o.joint with
    | none => ⟨[], h, .done ()⟩
    | some m => ⟨(Motor.issue o.command m).trace.map (Event.device o.joint),
        h.withMotor (Motor.issue o.command m).state o.joint, (Motor.issue o.command m).ending⟩ := by
  obtain ⟨j, c⟩ := o
  cases j with
  | axis n => simp only [order, onAxis, within, Axis.command_apply, motor?, withMotor]
  | extruder =>
    obtain ⟨x, y, z, e, limits, velocity, mode, extruded⟩ := h
    cases e with
    | none => rfl
    | some e => simp only [order, onExtruder, Extruder.command_apply, motor?, withMotor,
        Option.map_some]

theorem order_of_ne_crashed {o : Order} {h : Head} (hc : (order o h).ending ≠ .crashed) :
    order o h = ⟨h.answer o, h.after o, endingOf (h.fault? o)⟩ := by
  rw [order_eq] at hc ⊢
  unfold answer after fault?
  cases hm : h.motor? o.joint with
  | none => rfl
  | some m =>
    rw [hm] at hc
    dsimp only at hc ⊢
    rw [Motor.issue_of_ne_crashed hc]
    rfl

/-- **A list of orders leaves what the motors answer, up to the first failure**, which is what
is reported. -/
theorem give_eq {os : List Order} {h : Head} (hc : (give os h).ending ≠ .crashed) :
    give os h = ⟨h.answers os, h.afterAll os, endingOf (h.firstFault? os)⟩ := by
  -- on the orders, with the head that the earlier ones leave
  induction os generalizing h with
  | nil => rfl
  | cons o os ih =>
    have ho := order_of_ne_crashed (ending_ne_crashed_of_bind (x := order o) hc)
    unfold give answers afterAll firstFault?
    unfold give at hc
    rw [← isSome_fault?]
    cases hf : h.fault? o with
    | some fault =>
      rw [hf] at ho
      rw [bind_of_failed (congrArg Run.ending ho), ho]
      simp
    | none =>
      rw [hf] at ho
      rw [bind_of_done (congrArg Run.ending ho), ho] at hc ⊢
      simp [ih hc]

/-- Only turns can crash. -/
theorem give_ne_crashed {os : List Order} (hos : ∀ o ∈ os, o.command.call ≠ .turn) (h : Head) :
    (give os h).ending ≠ .crashed := by
  induction os generalizing h with
  | nil => exact fun hc => nomatch hc
  | cons o os ih =>
    obtain ⟨ho, hos⟩ := List.forall_mem_cons.mp hos
    have hfirst : (order o h).ending ≠ .crashed := by
      rw [order_eq]
      cases h.motor? o.joint with
      | none => exact fun hc => nomatch hc
      | some m =>
        dsimp only
        rw [Motor.issue_eq m ho]
        exact endingOf_ne_crashed _
    unfold give
    cases hend : (order o h).ending with
    | done _ =>
      rw [bind_of_done hend]
      exact ih hos _
    | failed e =>
      rw [bind_of_failed hend]
      exact fun hc => nomatch hc
    | crashed => exact absurd hend hfirst

theorem give_append (os ps : List Order) :
    give (os ++ ps) = (give os >>= fun _ => give ps) := by
  induction os with
  | nil => rfl
  | cons o os ih =>
    rw [List.cons_append, give, ih, give, bind_assoc]

/-! ### What orders leave alone -/

/-- What a program is about: place, speed, and how coordinates are read. -/
def logical (h : Head) : Position × Binary64 × Positioning := (h.position, h.velocity, h.mode)

theorem logical_withMotor (h : Head) (m : Motor) (j : Joint) :
    (h.withMotor m j).logical = h.logical := by
  cases j with
  | axis n => cases n <;> rfl
  | extruder => rfl

theorem logical_after (h : Head) (o : Order) : (h.after o).logical = h.logical := by
  unfold after
  cases h.motor? o.joint with
  | none => rfl
  | some m => exact logical_withMotor h _ _

/-- Orders change motors only. -/
theorem logical_afterAll (h : Head) (os : List Order) : (h.afterAll os).logical = h.logical := by
  induction os generalizing h with
  | nil => rfl
  | cons o os ih =>
    unfold afterAll
    split
    · exact logical_after h o
    · exact (ih _).trans (logical_after h o)

end Head

/-! ### Turns and runs -/

/-- The commands of a run at a speed; a speed of no counts stops. -/
def Axis.runScript (speed : Int32) : List MotorCommand :=
  if speed = 0 then [.stop] else [.speed speed, .run]

theorem Axis.call_of_mem_runScript {speed : Int32} {c : MotorCommand} (h : c ∈ runScript speed) :
    c.call ≠ .turn := by
  unfold runScript at h
  split at h
  · rw [List.mem_singleton] at h
    subst h
    decide
  · simp only [List.mem_cons, List.not_mem_nil, or_false] at h
    rcases h with rfl | rfl
    · exact fun hc => nomatch hc
    · decide

namespace Head

/-- The same commands as orders for one joint. -/
def orders (j : Joint) (cs : List MotorCommand) : List Order := cs.map (Order.mk j)

theorem onAxis_turn (n : AxisName) (speed counts : Int32) :
    onAxis n (Axis.turn speed counts) = give (orders (.axis n) (Axis.turnScript speed counts)) := by
  unfold Axis.turn Axis.turnScript
  by_cases h0 : counts = 0
  · rw [if_neg (not_not_intro h0), if_pos h0]
    funext h
    cases n <;> rfl
  · rw [if_pos h0, if_neg h0]
    change _ = (order _ >>= fun _ => order _ >>= fun _ => order _ >>= fun _ => pure ())
    rw [bind_pure]
    change _ = (onAxis n _ >>= fun _ => onAxis n _ >>= fun _ => onAxis n _)
    rw [onAxis_bind, onAxis_bind]

/-- Only what an action does from the axis itself matters. -/
theorem onAxis_congr {n : AxisName} {x y : Axis.Act Unit} {h : Head}
    (hxy : x (h.axis n) = y (h.axis n)) : onAxis n x h = onAxis n y h := by
  unfold onAxis within
  rw [hxy]

theorem onAxis_runAt (n : AxisName) (velocity : Binary64) (h : Head) :
    onAxis n (Axis.runAt velocity) h =
      give (orders (.axis n) (Axis.runScript ((h.axis n).toCounts velocity))) h := by
  generalize hspeed : (h.axis n).toCounts velocity = speed
  have hrun : Axis.runAt velocity (h.axis n) = (if speed = 0 then Axis.stop
      else Axis.command (.speed speed) >>= fun _ => Axis.command .run) (h.axis n) := by
    unfold Axis.runAt
    rw [get_bind_apply, hspeed]
  rw [onAxis_congr hrun]
  unfold Axis.runScript
  by_cases h0 : speed = 0
  · rw [if_pos h0, if_pos h0]
    change _ = (order _ >>= fun _ => pure ()) h
    rw [bind_pure]
    rfl
  · rw [if_neg h0, if_neg h0]
    change _ = (order _ >>= fun _ => order _ >>= fun _ => pure ()) h
    rw [bind_pure]
    change _ = (onAxis n _ >>= fun _ => onAxis n _) h
    rw [onAxis_bind]

/-- The commands by which the extruder is run, if there is one. -/
def feedScript (h : Head) (velocity : Binary64) : List MotorCommand :=
  h.e.elim [] fun e => Axis.runScript (e.toCounts velocity)

/-- What two actions of the extruder do, one after the other, is what their sequence does. -/
theorem onExtruder_bind (x : Extruder.Act Unit) (f : Unit → Extruder.Act Unit) :
    (onExtruder x >>= fun u => onExtruder (f u)) = onExtruder (x >>= f) := by
  funext h
  obtain ⟨hx, hy, hz, e, limits, velocity, mode, extruded⟩ := h
  cases e with
  | none => rfl
  | some e =>
    cases hend : (x e).ending with
    | done u =>
      have hfirst : (onExtruder x ⟨hx, hy, hz, some e, limits, velocity, mode, extruded⟩).ending =
          .done u := hend
      rw [bind_of_done hfirst]
      simp only [onExtruder, bind_of_done hend, List.map_append]
    | failed c =>
      have hfirst : (onExtruder x ⟨hx, hy, hz, some e, limits, velocity, mode, extruded⟩).ending =
          .failed c := hend
      rw [bind_of_failed hfirst]
      simp only [onExtruder, bind_of_failed hend]
    | crashed =>
      have hfirst : (onExtruder x ⟨hx, hy, hz, some e, limits, velocity, mode, extruded⟩).ending =
          .crashed := hend
      rw [bind_of_crashed hfirst]
      simp only [onExtruder, bind_of_crashed hend]

theorem onExtruder_runAt (velocity : Binary64) (h : Head) :
    onExtruder (Extruder.runAt velocity) h = give (orders .extruder (h.feedScript velocity)) h := by
  unfold feedScript
  cases he : h.e with
  | none =>
    unfold onExtruder
    rw [he]
    rfl
  | some e =>
    generalize hspeed : e.toCounts velocity = speed
    have hrun : Extruder.runAt velocity e = (if speed = 0 then Extruder.stop
        else Extruder.command (.speed speed) >>= fun _ => Extruder.command .run) e := by
      unfold Extruder.runAt
      rw [get_bind_apply, hspeed]
    have hcongr : onExtruder (Extruder.runAt velocity) h =
        onExtruder (if speed = 0 then Extruder.stop
          else Extruder.command (.speed speed) >>= fun _ => Extruder.command .run) h := by
      unfold onExtruder
      simp only [he, hrun]
    rw [hcongr]
    change _ = give (orders .extruder (Axis.runScript (e.toCounts velocity))) h
    rw [hspeed]
    unfold Axis.runScript
    by_cases h0 : speed = 0
    · rw [if_pos h0, if_pos h0]
      change _ = (order _ >>= fun _ => pure ()) h
      rw [bind_pure]
      rfl
    · rw [if_neg h0, if_neg h0]
      change _ = (order _ >>= fun _ => order _ >>= fun _ => pure ()) h
      rw [bind_pure]
      change _ = (onExtruder _ >>= fun _ => onExtruder _) h
      rw [onExtruder_bind]

/-- The orders that start a timed move: each motor gets its speed and is run, or is stopped
where the speed has no counts. -/
def startOrders (h : Head) (plan : Plan) : List Order :=
  orders (.axis .x) (Axis.runScript (h.x.toCounts plan.vx)) ++
    (orders (.axis .y) (Axis.runScript (h.y.toCounts plan.vy)) ++
      orders .extruder (h.feedScript plan.ve))

/-- **Starting a timed move is giving its orders.** -/
theorem start_eq (plan : Plan) (h : Head) : start plan h = give (h.startOrders plan) h := by
  unfold startOrders start
  rw [give_append, give_append]
  -- each joint finds its own gearing as it was, whatever the joints before it did
  refine bind_congr_at (onAxis_runAt .x plan.vx h) fun _ _ => bind_congr_at ?_ ?_
  · rw [onAxis_runAt]
    congr 3
  · intro _ _
    rw [onExtruder_runAt]
    rfl

end Head

end TachoPrint
