import TachoPrint.Proofs.Gcode.Numbers
import TachoPrint.Proofs.Machine.Range

/-!
# Where programs leave the head

The place in the plane and the filament fed are changed in two ways only: a new place is
stated, or a timed move succeeds and the head is then where it was planned to be.  A timed
move that does not succeed leaves the place alone, however far it got.

## Main definitions

* `Head.AtPlace` — the place of a head in the plane, and its filament.
* `Head.timedPlan?`, `Head.approach` — the timed move that a move asks for, and all that comes
  before it.
* `Head.Undisturbed` — an axis that is as it was and of which nothing was asked.
* `Head.Lands` — where an action leaves the head if it succeeds.
* `Head.Printed` — the heads that programs can reach.

## Main results

* `Head.move_eq` — a move is its approach and its timed move.
* `Head.lands_move` — **a move leaves the head at the target of its timed move, or where it
  was.**
* `Head.placed_of_printed` — **every axis stands at a finite coordinate.**
-/

namespace TachoPrint

open TachoPrint.Action

namespace Head

/-! ### Actions that change no place -/

/-- The head is at that place in the plane, with that filament fed. -/
structure AtPlace (h : Head) (p : Position) : Prop where
  x : h.x.position = p.x
  y : h.y.position = p.y
  e : h.extruded = p.e

theorem atPlace_position (h : Head) : h.AtPlace h.position := ⟨rfl, rfl, rfl⟩

/-- The action changes no place. -/
def Stays {α : Type} (act : Act α) : Prop := Keeps (fun h _ h' => h'.AtPlace h.position) act

theorem chains_stays : Chains fun (h : Head) (_ : List Event) (h' : Head) =>
    h'.AtPlace h.position where
  nil h := h.atPlace_position
  append h h' := ⟨h'.x.trans h.x, h'.y.trans h.y, h'.e.trans h.e⟩

end Head

/-- Commands and looks at an endstop change no position. -/
theorem Axis.steady_position :
    Axis.Steady (fun _ => False) fun a _ a' => a'.position = a.position where
  chains :=
    { nil := fun _ => rfl
      append := fun h h' => h'.trans h }
  command c a := by rw [command_apply]
  poll inverted polling a := by
    unfold awaitEndstop
    split <;> rfl
  setPosition p hp := hp.elim

namespace Head

theorem stays_onAxis {α : Type} (n : AxisName) {act : Axis.Act α}
    (hact : Keeps (fun a _ a' => a'.position = a.position) act) : Stays (onAxis n act) := by
  intro h
  cases n with
  | x => exact ⟨hact h.x, rfl, rfl⟩
  | y => exact ⟨rfl, hact h.y, rfl⟩
  | z => exact ⟨rfl, rfl, rfl⟩

/-- The vertical axis may be given any height. -/
theorem stays_onAxis_z {α : Type} (act : Axis.Act α) : Stays (onAxis .z act) :=
  fun _ => ⟨rfl, rfl, rfl⟩

theorem stays_onExtruder (act : Extruder.Act Unit) : Stays (onExtruder act) := by
  intro h
  unfold onExtruder
  split <;> exact ⟨rfl, rfl, rfl⟩

theorem stays_start (plan : Plan) : Stays (start plan) :=
  (stays_onAxis .x (Axis.steady_position.runAt _)).bind chains_stays fun _ =>
    (stays_onAxis .y (Axis.steady_position.runAt _)).bind chains_stays fun _ =>
      stays_onExtruder _

theorem stays_setVelocity (velocity : Binary64) : Stays (setVelocity velocity) := by
  intro h
  rw [setVelocity_eq]
  split <;> exact ⟨rfl, rfl, rfl⟩

/-! ### Moves and their timed moves -/

/-- Change to the height of a plan, unless the head has it. -/
def raise (plan : Plan) : Act Unit := do
  let h ← get
  if !plan.target.z.equals h.position.z then
    onAxis .z (Axis.moveToHeight plan.target.z h.limits.height)

theorem carryOut_eq_raise (plan : Plan) :
    carryOut plan = (raise plan >>= fun _ => if plan.isIdle then pure () else runTimed plan) := by
  rw [carryOut_eq]
  funext h
  unfold raise
  rw [bind_assoc, get_bind_apply, get_bind_apply]
  cases plan.target.z.equals h.position.z <;> cases plan.isIdle <;> rfl

/-- Plan a move and change to its height. -/
def raiseTo (goal : Coordinates) : Act Unit := do
  let h ← get
  let plan ← finish ((h.position.plan goal h.mode h.velocity h.limits.travel).mapError
    DeviceError.motion)
  raise plan

/-- A move up to its timed move: the feed rate, the plan and the height. -/
def approach (m : Move) : Act Unit :=
  (match m.feed with
    | some feed => setVelocity feed
    | none => pure ()) >>= fun _ => if !m.goal.isEmpty then raiseTo m.goal else pure ()

/-- The timed move towards a goal at the current speed, unless it is refused or idle. -/
def goalPlan? (h : Head) (goal : Coordinates) : Option Plan :=
  if goal.isEmpty then none
  else match h.position.plan goal h.mode h.velocity h.limits.travel with
    | .done plan => if plan.isIdle then none else some plan
    | _ => none

/-- The timed move that a move asks for, at the speed that it states or the current one. -/
def timedPlan? (h : Head) (m : Move) : Option Plan :=
  { h with velocity := m.feed.getD h.velocity }.goalPlan? m.goal

variable {h h' : Head}

/-- A timed move comes from a plan at the speed of the move. -/
theorem plan_of_timedPlan? {m : Move} {plan : Plan} (ht : h.timedPlan? m = some plan) :
    h.position.plan m.goal h.mode (m.feed.getD h.velocity) h.limits.travel = .done plan ∧
      plan.isIdle = false := by
  unfold timedPlan? goalPlan? at ht
  split at ht
  · cases ht
  · split at ht
    · next hplan =>
      split at ht
      · cases ht
      · next hidle =>
        obtain rfl := Option.some.inj ht
        exact ⟨hplan, (Bool.not_eq_true _).mp hidle⟩
    · cases ht

/-- Carry out a timed move, if there is one. -/
def runTimed? (plan? : Option Plan) : Act Unit := plan?.elim (pure ()) runTimed

theorem follow_eq (goal : Coordinates) (h : Head) :
    (if !goal.isEmpty then follow goal else pure ()) h =
      ((if !goal.isEmpty then raiseTo goal else pure ()) >>= fun _ =>
        runTimed? (h.goalPlan? goal)) h := by
  unfold goalPlan?
  cases goal.isEmpty with
  | true => rfl
  | false =>
    simp only [Bool.not_false, Bool.false_eq_true, if_true, if_false]
    unfold follow raiseTo
    rw [bind_assoc, get_bind_apply, get_bind_apply]
    cases h.position.plan goal h.mode h.velocity h.limits.travel with
    | failed e => rfl
    | crashed => rfl
    | done plan =>
      change carryOut plan h = (raise plan >>= fun _ =>
        runTimed? (if plan.isIdle then none else some plan)) h
      rw [carryOut_eq_raise]
      cases plan.isIdle <;> rfl

/-- **A move approaches its timed move and then carries it out**, if it has one. -/
theorem move_eq (m : Move) (h : Head) :
    execute (.move m) h = (approach m >>= fun _ => runTimed? (h.timedPlan? m)) h := by
  change linearMove m h = _
  rw [linearMove_eq]
  unfold approach timedPlan?
  rw [bind_assoc]
  cases m.feed with
  | none => exact follow_eq m.goal h
  | some feed =>
    dsimp only [Option.getD_some]
    cases hf : feed.isPositive with
    | true =>
      have hset := setVelocity_of_isPositive hf h
      rw [bind_of_done (congrArg Run.ending hset), bind_of_done (congrArg Run.ending hset), hset,
        follow_eq]
    | false =>
      have hset := congrArg Run.ending (setVelocity_of_not_isPositive hf h)
      rw [bind_of_failed hset, bind_of_failed hset]

/-- What a change of speed and a change of height keep, the approach keeps. -/
theorem keeps_approach {R : Head → List Event → Head → Prop} (hR : Chains R)
    (hspeed : ∀ velocity, Keeps R (setVelocity velocity))
    (hheight : ∀ height highest, Keeps R (onAxis .z (Axis.moveToHeight height highest)))
    (m : Move) : Keeps R (approach m) := by
  have hraise : ∀ plan, Keeps R (raise plan) := fun plan =>
    Keeps.get_bind fun h => Keeps.optional hR (hheight _ _) _
  have hplan : Keeps R (raiseTo m.goal) :=
    Keeps.get_bind fun h => (Keeps.finish hR _).bind hR hraise
  refine Keeps.bind hR ?_ fun _ => Keeps.optional hR hplan _
  split
  · exact hspeed _
  · exact Keeps.pure hR ()

theorem stays_approach (m : Move) : Stays (approach m) :=
  keeps_approach chains_stays stays_setVelocity (fun _ _ => stays_onAxis_z _) m

/-- The axis is as it was, and nothing was asked of it. -/
def Undisturbed (n : AxisName) (h : Head) (t : List Event) (h' : Head) : Prop :=
  eventsAt (.axis n) t = [] ∧ h'.axis n = h.axis n

theorem chains_undisturbed (n : AxisName) : Chains (Undisturbed n) where
  nil _ := ⟨rfl, rfl⟩
  append h h' := by
    refine ⟨?_, h'.2.trans h.2⟩
    rw [eventsAt_append, h.1, h'.1]
    rfl

/-- Before its timed move a move does not disturb the axes of the plane. -/
theorem undisturbed_approach {n : AxisName} (hn : n ≠ .z) (m : Move) :
    Keeps (Undisturbed n) (approach m) := by
  refine keeps_approach (chains_undisturbed n) ?_ ?_ m
  · intro velocity h
    rw [setVelocity_eq]
    split <;> exact ⟨rfl, by cases n <;> rfl⟩
  · intro height highest h
    have hz : Joint.axis .z ≠ .axis n := fun heq => hn (Joint.axis.inj heq).symm
    refine ⟨?_, axis_withAxis_of_ne h _ hn.symm⟩
    change eventsAt _ (List.map _ _) = _
    simp [hz]

/-! ### Where moves lead -/

variable {α : Type} {x : Act α} {f : α → Act Unit} {p : Position}

/-- From the head the action leads to a place if it has a result, and leaves the head where
it was otherwise. -/
def Lands (p : Position) (act : Act Unit) (h : Head) : Prop :=
  (act h).state.AtPlace (if (act h).ending = .done () then p else h.position)

theorem Lands.bind (hx : (x h).state.AtPlace h.position)
    (hf : ∀ a, (x h).ending = .done a → Lands p (f a) (x h).state) : Lands p (x >>= f) h := by
  unfold Lands
  cases hend : (x h).ending with
  | done a =>
    have hplace := hf a hend
    rw [bind_of_done hend]
    unfold Lands at hplace
    split at hplace
    · next hdone => rwa [if_pos hdone]
    · next hdone =>
      rw [if_neg hdone]
      exact chains_stays.append (t := []) (u := []) hx hplace
  | failed e =>
    rw [bind_of_failed hend]
    exact hx
  | crashed =>
    rw [bind_of_crashed hend]
    exact hx

theorem lands_settle (plan : Plan) (started : Except DeviceError Unit) (h : Head) :
    Lands plan.target (settle plan started) h := by
  obtain ⟨r, hr⟩ := attempt_stopAll h
  unfold settle
  refine Lands.bind ?_ fun stopped _ => Lands.bind ?_ ?_
  · rw [hr]
    exact ⟨rfl, rfl, rfl⟩
  · exact ⟨rfl, rfl, rfl⟩
  · intro _ _
    exact ⟨rfl, rfl, rfl⟩

/-- A timed move that succeeds leads to its target. -/
theorem lands_runTimed (plan : Plan) (h : Head) : Lands plan.target (runTimed plan) h := by
  rw [runTimed_eq]
  apply Lands.bind (by rw [attempt_state]; exact stays_start plan h)
  intro started _
  refine Lands.bind ?_ fun _ _ => lands_settle plan started _
  split <;> exact ⟨rfl, rfl, rfl⟩

/-- **A move leaves the head at the target of its timed move**, if it has one and succeeds, and
where it was otherwise. -/
theorem lands_move (m : Move) (h : Head) :
    Lands ((h.timedPlan? m).elim h.position Plan.target) (execute (.move m)) h := by
  unfold Lands
  rw [move_eq]
  apply Lands.bind (stays_approach m h)
  intro _ _
  cases h.timedPlan? m with
  | none => exact stays_approach m h
  | some plan => exact lands_runTimed plan _

variable {m : Move} {plan : Plan}

/-- A timed move that succeeds leaves the head at its target. -/
theorem atPlace_of_timed (ht : h.timedPlan? m = some plan)
    (hdone : (execute (.move m) h).ending = .done ()) :
    (execute (.move m) h).state.AtPlace plan.target := by
  have hplace := lands_move m h
  unfold Lands at hplace
  rwa [if_pos hdone, ht] at hplace

/-- Without a timed move the head stays where it is. -/
theorem atPlace_of_untimed (ht : h.timedPlan? m = none) :
    (execute (.move m) h).state.AtPlace h.position := by
  have hplace := lands_move m h
  unfold Lands at hplace
  rw [ht] at hplace
  change AtPlace _ (if _ then h.position else h.position) at hplace
  rwa [ite_self] at hplace

/-! ### Finite coordinates -/

/-- The head has the limits of the setup, and its axes stand at finite coordinates. -/
structure Placed (setup : PrinterSetup) (h : Head) : Prop where
  limits_eq : h.limits = setup.limits
  position : ∀ n, (h.axis n).position.isFinite

variable {setup : PrinterSetup}

/-- A head within its limits stands at finite coordinates. -/
theorem Sound.placed (hl : setup.limits.Usable) (hs : h.Sound setup.limits) : h.Placed setup where
  limits_eq := hs.limits_eq
  position n := by
    have htravel := Binary64.isFinite_of_isPositive hl.travel
    have hallowed := hs.position n
    cases n with
    | x => exact Binary64.isFinite_of_between (Binary64.isFinite_neg htravel) htravel hallowed
    | y => exact Binary64.isFinite_of_between (Binary64.isFinite_neg htravel) htravel hallowed
    | z => exact hallowed.1

theorem Placed.of_jointwise {t : List Event} (hp : h.Placed setup)
    (hj : Jointwise (fun _ => Axis.StaysAllowed fun p => p.isFinite) (fun _ _ _ => True) h t h') :
    h'.Placed setup where
  limits_eq := hj.limits.trans hp.limits_eq
  position n := (hj.axis n).2 (hp.position n)

/-- From finite coordinates finite instructions lead to finite coordinates only: those of the
plane are held within the travel limit, and other heights are refused. -/
theorem Placed.admits (hl : setup.limits.Usable) (hp : h.Placed setup) {i : Instruction}
    (hi : i.Finite) : Admits (fun _ p => p.isFinite) i h := by
  cases i with
  | move m =>
    intro v plan hplan
    have htravel := Binary64.isFinite_of_isPositive hl.travel
    rw [hp.limits_eq] at hplan
    obtain ⟨hx, hy⟩ := Position.between_of_target?
      (Binary64.isNaN_of_isFinite (hp.position .x)) (Binary64.isNaN_of_isFinite (hp.position .y))
      (Instruction.finite_move_iff.mp hi).1 (Position.target?_of_plan hplan)
    have hhigh : setup.limits.travel.abs.isFinite := by
      rwa [Binary64.abs_of_isPositive hl.travel]
    have hlow := Binary64.isFinite_neg hhigh
    exact ⟨Binary64.isFinite_of_between hlow hhigh hx, Binary64.isFinite_of_between hlow hhigh hy,
      Axis.AllowedHeight.isFinite⟩
  | setPosition c =>
    obtain ⟨hx, hy, hz, -⟩ := Instruction.finite_setPosition_iff.mp hi
    exact ⟨hx, hy, hz⟩
  | home axes =>
    intro _
    exact Binary64.isFinite_zero
  | pause micros => trivial
  | setPositioning mode => trivial
  | release axes => trivial

theorem placed_execute (hl : setup.limits.Usable) {i : Instruction} (hi : i.Finite)
    (hp : h.Placed setup) : (execute i h).state.Placed setup :=
  hp.of_jointwise (jointwise_execute (steady_staysAllowed fun _ p => p.isFinite) (hp.admits hl hi))

theorem placed_runProgram (hl : setup.limits.Usable) {p : List Instruction}
    (hp : ∀ i ∈ p, i.Finite) (hplaced : h.Placed setup) :
    (runProgram p h).state.Placed setup := by
  refine keeps_runProgram (chains_preserved (Placed setup))
    (fun i hi h hs => placed_execute hl (hp i hi) hs) ?_ h hplaced
  intro h hs
  exact hs.of_jointwise ((steady_staysAllowed fun _ p => p.isFinite).stopAll h)

/-- The heads that programs can reach: a head is put together from the setup and any hardware,
and then executes programs, or the first instructions of them, as far as they get. -/
inductive Printed (setup : PrinterSetup) : Head → Prop where
  | assembled {hw : Hardware} {h : Head} (done : (assemble setup hw ()).ending = .done h) :
      Printed setup h
  | ran {h : Head} {text : List UInt8} {p : List Instruction}
      (hp : Instruction.ofBytes text = .ok p) (n : Nat) (before : Printed setup h) :
      Printed setup (runProgram (p.take n) h).state

/-- **The axes of every head that programs reach stand at finite coordinates.** -/
theorem placed_of_printed (hsetup : setup.fault? = none) (hr : Printed setup h) :
    h.Placed setup := by
  have hl := (PrinterSetup.eq_none_of_fault? hsetup).2
  induction hr with
  | assembled done => exact (sound_of_assemble hsetup done).placed hl
  | ran hp n _ ih =>
    exact placed_runProgram hl (fun i hi => Instruction.finite_of_ofBytes hp i
      (List.mem_of_mem_take hi)) ih

end Head

end TachoPrint
