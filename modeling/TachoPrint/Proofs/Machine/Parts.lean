import TachoPrint.Proofs.Machine.Commands

/-!
# The parts of the head's actions

The actions of the head are sequences of actions of its devices, some of them left out
when they are not asked for.  Here they are written as such sequences, and what stopping
every motor does is written out in full.

## Main definitions

* `Head.settle`, `Head.follow` — the end of a timed move, and a move after its feed rate.
* `Axis.homing`, `Head.homeThrough` — homing one axis, and homing the chosen ones of some.
* `Head.motors` — the motors of a head, in the order in which they are stopped.
* `Head.stopEvents`, `Head.halted` — what stopping every motor leaves.
* `Head.standard` — the standard printer with motors that fail by a plan.

## Main results

* `Head.runTimed_eq`, `Head.carryOut_eq`, `Head.linearMove_eq`, `Head.home_eq`,
  `Head.home_eq_homeThrough`, `Head.release_eq` — the actions as sequences.
* `Head.stopAll_eq` — **every motor is told to stop, whichever of them fail.**
-/

namespace TachoPrint

open TachoPrint.Action

/-- True of the axes in the set. -/
def AxisSet.has (s : AxisSet) : AxisName → Bool
  | .x => s.x
  | .y => s.y
  | .z => s.z

/-- Homing as the head does it: the plane axes brake from then on. -/
def Axis.homing (polling : Polling) : AxisName → Axis.Act Unit
  | .z => Axis.home polling
  | _ => do
    Axis.setStopAction .brake
    Axis.home polling

namespace Head

@[simp] theorem axis_withAxis_self (h : Head) (n : AxisName) (a : Axis) :
    (h.withAxis n a).axis n = a := by cases n <;> rfl

@[simp] theorem axis_withAxis_of_ne (h : Head) {n m : AxisName} (a : Axis) (hnm : n ≠ m) :
    (h.withAxis n a).axis m = h.axis m := by
  cases n <;> cases m <;> first | rfl | exact absurd rfl hnm

@[simp] theorem e_withAxis (h : Head) (n : AxisName) (a : Axis) : (h.withAxis n a).e = h.e := by
  cases n <;> rfl

@[simp] theorem limits_withAxis (h : Head) (n : AxisName) (a : Axis) :
    (h.withAxis n a).limits = h.limits := by cases n <;> rfl

@[simp] theorem velocity_withAxis (h : Head) (n : AxisName) (a : Axis) :
    (h.withAxis n a).velocity = h.velocity := by cases n <;> rfl

/-! ### Actions as sequences of their parts -/

theorem setVelocity_eq (velocity : Binary64) (h : Head) :
    setVelocity velocity h =
      if velocity.isPositive then ⟨[], { h with velocity := velocity }, .done ()⟩
      else ⟨[], h, .failed (.motion (.badVelocity velocity))⟩ := by
  unfold setVelocity checkVelocity
  cases velocity.isPositive <;> rfl

@[simp] theorem setVelocity_of_isPositive {velocity : Binary64} (hv : velocity.isPositive = true)
    (h : Head) : setVelocity velocity h = ⟨[], { h with velocity := velocity }, .done ()⟩ := by
  rw [setVelocity_eq, hv]
  rfl

@[simp] theorem setVelocity_of_not_isPositive {velocity : Binary64}
    (hv : velocity.isPositive = false) (h : Head) :
    setVelocity velocity h = ⟨[], h, .failed (.motion (.badVelocity velocity))⟩ := by
  rw [setVelocity_eq, hv]
  rfl

/-- A change of speed changes no place. -/
theorem setVelocity_logical (velocity : Binary64) (h : Head) :
    (setVelocity velocity h).state.position = h.position ∧
      (setVelocity velocity h).state.mode = h.mode ∧
        (setVelocity velocity h).state.limits = h.limits := by
  rw [setVelocity_eq]
  split <;> exact ⟨rfl, rfl, rfl⟩

/-- The end of a timed move: stop whatever happened, and be at the target if
everything succeeded. -/
def settle (plan : Plan) (started : Except DeviceError Unit) : Act Unit := do
  let stopped ← attempt stopAll
  finish (.ofExcept (started >>= fun _ => stopped))
  modify fun h =>
    { h with
      x := { h.x with position := plan.target.x }
      y := { h.y with position := plan.target.y }
      extruded := plan.target.e }

theorem runTimed_eq (plan : Plan) : runTimed plan =
    (attempt (start plan) >>= fun started =>
      (if started.isOk then pause (planMicros plan) else pure ()) >>= fun _ =>
        settle plan started) := by
  unfold runTimed
  congr 1
  funext started
  split <;> rfl

theorem carryOut_eq (plan : Plan) : carryOut plan =
    (get >>= fun h =>
      (if !plan.target.z.equals h.position.z then
        onAxis .z (Axis.moveToHeight plan.target.z h.limits.height) else pure ()) >>= fun _ =>
          if !plan.isIdle then runTimed plan else pure ()) := by
  unfold carryOut
  congr 1
  funext h
  cases plan.target.z.equals h.position.z <;> rfl

/-- Plan a move from where the head is and carry it out. -/
def follow (goal : Coordinates) : Act Unit := do
  let h ← get
  let plan ← finish ((h.position.plan goal h.mode h.velocity h.limits.travel).mapError
    DeviceError.motion)
  carryOut plan

theorem linearMove_eq (m : Move) : linearMove m =
    ((match m.feed with
      | some feed => setVelocity feed
      | none => pure ()) >>= fun _ =>
        if !m.goal.isEmpty then follow m.goal else pure ()) := by
  unfold linearMove
  cases m.feed <;> rfl

theorem home_eq (axes : AxisSet) : home axes =
    ((if axes.x then homePlane .x else pure ()) >>= fun _ =>
      (if axes.y then homePlane .y else pure ()) >>= fun _ =>
        if axes.z then homeHeight else pure ()) := by
  unfold home
  cases axes.x <;> cases axes.y <;> rfl

theorem release_eq (axes : AxisSet) : release axes =
    ((if axes.x then onAxis .x Axis.release else pure ()) >>= fun _ =>
      (if axes.y then onAxis .y Axis.release else pure ()) >>= fun _ =>
        (if axes.z then onAxis .z Axis.release else pure ()) >>= fun _ =>
          if axes.isAll then onExtruder Extruder.release else pure ()) := by
  unfold release
  cases axes.x <;> cases axes.y <;> cases axes.z <;> rfl

/-! ### Homing axis by axis -/

/-- What two actions of an axis do, one after the other, is what their sequence does. -/
theorem onAxis_bind (n : AxisName) (x : Axis.Act Unit) (f : Unit → Axis.Act Unit) :
    (onAxis n x >>= fun u => onAxis n (f u)) = onAxis n (x >>= f) :=
  within_bind (fun h a => axis_withAxis_self h n a) (fun _ _ _ => by cases n <;> rfl) x f

/-- Home an axis if it is chosen. -/
def homeIf (axes : AxisSet) (n : AxisName) : Act Unit := do
  let h ← get
  if axes.has n then onAxis n (Axis.homing h.limits.polling n)

theorem homeIf_apply (axes : AxisSet) (n : AxisName) (h : Head) : homeIf axes n h =
    if axes.has n then onAxis n (Axis.homing h.limits.polling n) h else ⟨[], h, .done ()⟩ := by
  unfold homeIf
  rw [get_bind_apply]
  split <;> rfl

/-- Home the chosen ones among some axes, in order. -/
def homeThrough (axes : AxisSet) : List AxisName → Act Unit
  | [] => pure ()
  | n :: rest => do
      homeIf axes n
      homeThrough axes rest

theorem home_eq_homeThrough (axes : AxisSet) : home axes = homeThrough axes [.x, .y, .z] := by
  have hplane : ∀ n : AxisName, n ≠ .z →
      (if axes.has n then homePlane n else pure ()) = homeIf axes n := by
    intro n hn
    funext h
    rw [homeIf_apply]
    split
    · unfold homePlane
      rw [get_bind_apply, onAxis_bind]
      cases n with
      | z => exact absurd rfl hn
      | _ => rfl
    · rfl
  have hheight : (if axes.has .z then homeHeight else pure ()) = homeIf axes .z := by
    funext h
    rw [homeIf_apply]
    split <;> rfl
  unfold homeThrough homeThrough homeThrough homeThrough
  rw [bind_pure, ← hplane .x (by decide), ← hplane .y (by decide), ← hheight]
  exact home_eq axes

/-! ### Stopping every motor -/

/-- The motors of the head in the order in which they are stopped. -/
def motors (h : Head) : List (Joint × Motor) :=
  [(.axis .x, h.x.motor), (.axis .y, h.y.motor), (.axis .z, h.z.motor)] ++
    (h.e.map fun e => (Joint.extruder, e.motor)).toList

/-- The events of telling every motor to stop. -/
def stopEvents (h : Head) : List Event :=
  h.motors.map fun p => .device p.1 (p.2.answer .stop)

/-- The head after every motor was told to stop. -/
def halted (h : Head) : Head :=
  { h with
    x := { h.x with motor := h.x.motor.after .stop }
    y := { h.y with motor := h.y.motor.after .stop }
    z := { h.z with motor := h.z.motor.after .stop }
    e := h.e.map fun e => { e with motor := e.motor.after .stop } }

/-- The first fault among those that the drivers report when every motor is told to stop. -/
def stopFault? (h : Head) : Option MotorFault := h.motors.findSome? fun p => p.2.fault? .stop

/-- The drivers have nothing to report where every motor can be stopped. -/
theorem isSome_stopFault? (h : Head) :
    h.stopFault?.isSome = h.motors.any fun p => p.2.fails .stop := by
  rw [stopFault?, List.isSome_findSome?]
  rfl

/-- What is reported of a command, by what the driver reports to it. -/
def report : Option MotorFault → Except DeviceError Unit
  | some fault => .error (.motor fault)
  | none => .ok ()

/-- The first of several faults is the report of them all. -/
theorem ofExcept_report (a b c d : Option MotorFault) :
    Outcome.ofExcept (report a >>= fun _ => report b >>= fun _ => report c >>= fun _ => report d) =
      endingOf (a.or (b.or (c.or d))) := by
  cases a <;> cases b <;> cases c <;> cases d <;> rfl

theorem attempt_stop (n : AxisName) (h : Head) :
    attempt (onAxis n Axis.stop) h =
      ⟨[.device (.axis n) ((h.axis n).motor.answer .stop)],
        h.withAxis n { h.axis n with motor := (h.axis n).motor.after .stop },
        .done (report ((h.axis n).motor.fault? .stop))⟩ := by
  simp only [attempt, onAxis, within, Axis.stop, Axis.command_apply, Motor.issue_stop]
  cases (h.axis n).motor.fault? .stop <;> rfl

theorem attempt_stop_extruder (h : Head) :
    attempt (onExtruder Extruder.stop) h =
      ⟨(h.e.map fun e => Event.device .extruder (e.motor.answer .stop)).toList,
        { h with e := h.e.map fun e => { e with motor := e.motor.after .stop } },
        .done (report (h.e.bind (·.motor.fault? .stop)))⟩ := by
  obtain ⟨x, y, z, e, limits, velocity, mode, extruded⟩ := h
  cases e with
  | none => rfl
  | some e =>
    simp only [attempt, onExtruder, Extruder.stop, Extruder.command_apply, Motor.issue_stop,
      Option.bind_some]
    cases e.motor.fault? .stop <;> rfl

private theorem findSome?_cons_eq_or {α β : Type} (f : α → Option β) (a : α) (l : List α) :
    (a :: l).findSome? f = (f a).or (l.findSome? f) := by
  rw [List.findSome?_cons]
  cases f a <;> rfl

/-- **Every motor is told to stop, whichever of them fail**, and the first fault is reported. -/
@[simp] theorem stopAll_eq (h : Head) :
    stopAll h = ⟨h.stopEvents, h.halted, endingOf h.stopFault?⟩ := by
  have hfault : h.stopFault? = (h.x.motor.fault? .stop).or ((h.y.motor.fault? .stop).or
      ((h.z.motor.fault? .stop).or (h.e.bind (·.motor.fault? .stop)))) := by
    unfold stopFault? motors
    cases h.e with
    | none => simp [findSome?_cons_eq_or]
    | some e => simp [findSome?_cons_eq_or]
  have htrace : h.stopEvents = [.device (.axis .x) (h.x.motor.answer .stop)] ++
      ([.device (.axis .y) (h.y.motor.answer .stop)] ++
        ([.device (.axis .z) (h.z.motor.answer .stop)] ++
          ((h.e.map fun e => Event.device .extruder (e.motor.answer .stop)).toList ++ []))) := by
    unfold stopEvents motors
    cases h.e with
    | none => rfl
    | some e => rfl
  rw [hfault, htrace, ← ofExcept_report]
  -- an attempt always has a result, so all four are made
  unfold stopAll
  rw [bind_of_done (congrArg Run.ending (attempt_stop .x h)), attempt_stop,
    bind_of_done (congrArg Run.ending (attempt_stop .y _)), attempt_stop,
    bind_of_done (congrArg Run.ending (attempt_stop .z _)), attempt_stop,
    bind_of_done (congrArg Run.ending (attempt_stop_extruder _)), attempt_stop_extruder]
  rfl

/-- Whether the motors stop or not, the rest of a sequence is reached. -/
theorem attempt_stopAll (h : Head) :
    ∃ r, attempt stopAll h = ⟨h.stopEvents, h.halted, .done r⟩ := by
  simp only [attempt, stopAll_eq]
  cases h.stopFault? with
  | none => exact ⟨_, rfl⟩
  | some fault => exact ⟨_, rfl⟩

/-- The end of a timed move tells every motor to stop, and nothing else. -/
@[simp] theorem settle_trace (plan : Plan) (started : Except DeviceError Unit) (h : Head) :
    (settle plan started h).trace = h.stopEvents := by
  obtain ⟨r, hr⟩ := attempt_stopAll h
  unfold settle
  rw [bind_of_done (congrArg Run.ending hr), hr]
  cases started with
  | error e => exact List.append_nil _
  | ok _ => cases r <;> exact List.append_nil _

/-! ### The standard printer -/

/-- The standard printer with endstops that change at every look, and with motors that
fail by a plan. -/
def standard (faults : Joint → MotorCall → Nat → Option MotorFault) : Head :=
  let fitted (n : AxisName) (setup : AxisSetup) : Axis :=
    { setup := setup
      motor := { countsPerTurn := 360, faults := faults (.axis n) }
      endstop := if setup.touchSensor then some .toggling else none
      countsPerTurn := 360
      position := 0 }
  ofParts (fitted .x PrinterSetup.standard.x) (fitted .y PrinterSetup.standard.y)
    (fitted .z PrinterSetup.standard.z) none PrinterSetup.standard.limits

end Head

end TachoPrint
