import TachoPrint.Proofs.Machine.Parts

/-!
# Relative moves as absolute ones

A relative move is planned to the sum of where the head is and what the move adds, and nothing
that is done afterwards looks at how coordinates are read.  So a head that is given relative
moves does the same, move by move and failure by failure, as one that is given the sums as
places.

## Main definitions

* `Action.Commutes f` — an action for which it is the same to change the state by `f` before it
  or after it.
* `Move.asPlaces` — a move with all its coordinates stated as places.
* `Head.inMode` — the head with another way to read coordinates.
* `Head.runEach` — what a sequence of moves leaves, run by run.

## Main results

* `Action.Commutes.bind` — sequences commute with what their parts commute with.
* `Head.commutes_carryOut` — **carrying out a plan ignores how coordinates are read.**
* `Head.linearMove_asPlaces` — one relative move does what the absolute one does.
* `Head.runEach_asPlaces` — **so does every sequence of relative moves.**
-/

namespace TachoPrint

/-- The same run with its state seen through `f`. -/
def Run.mapState {ω σ ε α : Type} (f : σ → σ) (r : Run ω σ ε α) : Run ω σ ε α :=
  ⟨r.trace, f r.state, r.ending⟩

/-! ### Actions that commute with a change of state -/

namespace Action

variable {ω σ ε α β : Type} {f : σ → σ}

/-- It is the same to change the state before the action or after it. -/
def Commutes (f : σ → σ) (x : Action ω σ ε α) : Prop := ∀ s, x (f s) = (x s).mapState f

/-- Two sequences from states that differ by a change do the same if their first parts do, and
their second parts from where these lead. -/
theorem bind_mapState {x y : Action ω σ ε α} {g k : α → Action ω σ ε β} {s : σ}
    (hxy : y (f s) = (x s).mapState f)
    (hgk : ∀ a, (x s).ending = .done a → k a (f (x s).state) = (g a (x s).state).mapState f) :
    (y >>= k) (f s) = ((x >>= g) s).mapState f := by
  have hend : (y (f s)).ending = (x s).ending := by rw [hxy, Run.mapState]
  cases h : (x s).ending with
  | done a =>
    rw [bind_of_done h, bind_of_done (hend.trans h), hxy]
    simp only [Run.mapState, hgk a h]
  | failed e =>
    rw [bind_of_failed h, bind_of_failed (hend.trans h), hxy]
    rfl
  | crashed =>
    rw [bind_of_crashed h, bind_of_crashed (hend.trans h), hxy]
    rfl

namespace Commutes

variable {x : Action ω σ ε α} {g : α → Action ω σ ε β}

theorem finish (o : Outcome ε α) : Commutes f (Action.finish o : Action ω σ ε α) := fun _ => rfl

theorem pure (a : α) : Commutes f (Pure.pure a : Action ω σ ε α) := fun _ => rfl

theorem emit (events : List ω) : Commutes f (Action.emit events : Action ω σ ε Unit) := fun _ => rfl

theorem modify {g : σ → σ} (hg : ∀ s, g (f s) = f (g s)) :
    Commutes f (Action.modify g : Action ω σ ε Unit) := by
  intro s
  simp only [Action.modify, Run.mapState, hg]

theorem attempt (hx : Commutes f x) : Commutes f (Action.attempt x) := by
  intro s
  simp only [Action.attempt, hx s, Run.mapState]
  cases (x s).ending <;> rfl

/-- **Sequences commute with what their parts commute with.** -/
theorem bind (hx : Commutes f x) (hg : ∀ a, Commutes f (g a)) : Commutes f (x >>= g) :=
  fun s => bind_mapState (hx s) fun a _ => hg a _

/-- A sequence that starts by looking at what the change leaves alone. -/
theorem get_bind {g : σ → Action ω σ ε β} (hsame : ∀ s, g (f s) = g s)
    (hg : ∀ a, Commutes f (g a)) : Commutes f (get >>= g) := by
  intro s
  rw [get_bind_apply, get_bind_apply, hsame]
  exact hg s s

/-- An action that is done only if it is asked for. -/
theorem optional {x : Action ω σ ε Unit} (hx : Commutes f x) (c : Prop) [Decidable c] :
    Commutes f (if c then x else Pure.pure ()) := by
  split
  · exact hx
  · exact pure ()

end Commutes

end Action

/-! ### Moves with their coordinates as places -/

/-- The places that coordinates lead to as steps from a position; what is left out adds zero. -/
def Coordinates.asPlaces (p : Position) (c : Coordinates) : Coordinates where
  x := some (p.x + c.x.getD 0)
  y := some (p.y + c.y.getD 0)
  z := some (p.z + c.z.getD 0)
  e := some (p.e + c.e.getD 0)

/-- The same move with all its coordinates stated as places. -/
def Move.asPlaces (p : Position) (m : Move) : Move := { m with goal := m.goal.asPlaces p }

/-- Steps are planned as the places that they lead to. -/
theorem Position.plan_asPlaces (current : Position) (goal : Coordinates)
    (velocity limit : Binary64) :
    current.plan (goal.asPlaces current) .absolute velocity limit =
      current.plan goal .relative velocity limit := rfl

namespace Head

open TachoPrint.Action

variable {h : Head} {m : Move}

/-! ### What ignores how coordinates are read -/

/-- The head with another way to read coordinates. -/
def inMode (mode : Positioning) (h : Head) : Head := { h with mode := mode }

variable {mode : Positioning}

theorem commutes_onAxis (n : AxisName) (act : Axis.Act Unit) :
    Commutes (inMode mode) (onAxis n act) := by
  intro h
  cases n <;> rfl

theorem commutes_onExtruder (act : Extruder.Act Unit) :
    Commutes (inMode mode) (onExtruder act) := by
  intro h
  obtain ⟨x, y, z, e, limits, velocity, mode', extruded⟩ := h
  cases e <;> rfl

theorem commutes_setVelocity (velocity : Binary64) :
    Commutes (inMode mode) (setVelocity velocity) := by
  intro h
  rw [setVelocity_eq, setVelocity_eq]
  split <;> rfl

theorem commutes_start (plan : Plan) : Commutes (inMode mode) (start plan) :=
  (commutes_onAxis .x _).bind fun _ => (commutes_onAxis .y _).bind fun _ => commutes_onExtruder _

theorem commutes_stopAll : Commutes (inMode mode) stopAll := by
  apply (commutes_onAxis .x _).attempt.bind
  intro _
  apply (commutes_onAxis .y _).attempt.bind
  intro _
  apply (commutes_onAxis .z _).attempt.bind
  intro _
  exact (commutes_onExtruder _).attempt.bind fun _ => .finish _

theorem commutes_settle (plan : Plan) (started : Except DeviceError Unit) :
    Commutes (inMode mode) (settle plan started) := by
  apply commutes_stopAll.attempt.bind
  intro stopped
  exact (Commutes.finish _).bind fun _ => .modify fun _ => rfl

theorem commutes_runTimed (plan : Plan) : Commutes (inMode mode) (runTimed plan) := by
  rw [runTimed_eq]
  apply (commutes_start plan).attempt.bind
  intro started
  exact (Commutes.optional (.emit _) _).bind fun _ => commutes_settle plan started

/-- **Carrying out a plan ignores how coordinates are read.** -/
theorem commutes_carryOut (plan : Plan) : Commutes (inMode mode) (carryOut plan) := by
  rw [carryOut_eq]
  refine Commutes.get_bind (fun _ => rfl) ?_
  intro h
  exact (Commutes.optional (commutes_onAxis .z _) _).bind fun _ =>
    .optional (commutes_runTimed plan) _

/-- What ignores how coordinates are read does not change it. -/
theorem keeps_mode_of_commutes {α : Type} {act : Act α}
    (hact : ∀ mode, Commutes (inMode mode) act) :
    Keeps (fun h _ h' => h'.mode = h.mode) act := by
  intro h
  have hsame : act h = (act h).mapState (inMode h.mode) := hact h.mode h
  exact congrArg (fun run => run.state.mode) hsame

/-- A move does not change how coordinates are read. -/
theorem mode_linearMove (m : Move) (h : Head) : (linearMove m h).state.mode = h.mode := by
  have hchains : Chains fun (h : Head) (_ : List Event) (h' : Head) => h'.mode = h.mode :=
    { nil := fun _ => rfl, append := fun first second => second.trans first }
  have hfollow : Keeps (fun h _ h' => h'.mode = h.mode) (follow m.goal) :=
    Keeps.get_bind fun _ => (Keeps.finish hchains _).bind hchains fun plan =>
      keeps_mode_of_commutes fun _ => commutes_carryOut plan
  rw [linearMove_eq]
  refine Keeps.bind hchains ?_ (fun _ => Keeps.optional hchains hfollow _) h
  split
  · exact keeps_mode_of_commutes fun _ => commutes_setVelocity _
  · exact Keeps.pure hchains ()

/-! ### One move -/

/-- Make a move with its coordinates stated as places, at the moment it is made. -/
def moveAsPlaces (m : Move) : Act Unit := fun h => linearMove (m.asPlaces h.position) h

theorem follow_asPlaces (hmode : h.mode = .relative) (goal : Coordinates) :
    follow (goal.asPlaces h.position) (h.inMode .absolute) =
      (follow goal h).mapState (inMode .absolute) := by
  unfold follow
  rw [get_bind_apply, get_bind_apply, hmode]
  refine bind_mapState ?_ fun plan _ => commutes_carryOut plan _
  rw [← Position.plan_asPlaces]
  rfl

/-- A move with a goal follows it at the speed that it states or the current one. -/
theorem linearMove_of_goal (hgoal : m.goal.isEmpty = false) : linearMove m =
    ((match m.feed with
      | some feed => setVelocity feed
      | none => pure ()) >>= fun _ => follow m.goal) := by
  rw [linearMove_eq, hgoal]
  rfl

/-- **A relative move does what the absolute move to the sums does**, and leaves the same head
but for how it reads coordinates. -/
theorem linearMove_asPlaces (hmode : h.mode = .relative) (hgoal : m.goal.isEmpty = false) :
    moveAsPlaces m (h.inMode .absolute) = (linearMove m h).mapState (inMode .absolute) := by
  have hplaces : (m.asPlaces h.position).goal.isEmpty = false := rfl
  change linearMove (m.asPlaces h.position) (h.inMode .absolute) = _
  rw [linearMove_of_goal hgoal, linearMove_of_goal hplaces]
  unfold Move.asPlaces
  cases m.feed with
  | none => exact follow_asPlaces hmode m.goal
  | some feed =>
    apply bind_mapState (commutes_setVelocity feed h)
    intro _ _
    -- the feed rate changes neither the place nor how coordinates are read
    obtain ⟨hposition, hmode', -⟩ := setVelocity_logical feed h
    rw [← hposition]
    exact follow_asPlaces (hmode'.trans hmode) m.goal

/-! ### Sequences of moves -/

/-- The runs of a sequence of moves.  The head goes on from where a move left it, also one that
was refused; after a crash there is no head to go on from. -/
def runEach (step : Move → Act Unit) : List Move → Head → List (Run Event Head DeviceError Unit)
  | [], _ => []
  | m :: ms, h =>
      let run := step m h
      run :: match run.ending with
        | .crashed => []
        | _ => runEach step ms run.state

/-- **A sequence of relative moves does what the absolute moves do whose coordinates are, at the
moment each of them is made, the sums of where the head is and what the relative move adds.**
Each leaves the same trace, ends in the same way, and leaves the head at the same place and
speed; all that differs is how the head reads coordinates. -/
theorem runEach_asPlaces (hmode : h.mode = .relative) {ms : List Move}
    (hms : ∀ m ∈ ms, m.goal.isEmpty = false) :
    runEach moveAsPlaces ms (h.inMode .absolute) =
      (runEach linearMove ms h).map (Run.mapState (inMode .absolute)) := by
  -- on the moves, with the head that the earlier ones leave, which still reads relatively
  induction ms generalizing h with
  | nil => rfl
  | cons m ms ih =>
    obtain ⟨hm, hms⟩ := List.forall_mem_cons.mp hms
    have hrest := ih ((mode_linearMove m h).trans hmode) hms
    rw [runEach, runEach, linearMove_asPlaces hmode hm, List.map_cons]
    congr 1
    dsimp only [Run.mapState]
    cases (linearMove m h).ending with
    | done _ => exact hrest
    | failed e => exact hrest
    | crashed => rfl

/-- A step to a place, a step that the travel limit cuts off, and one below the bed. -/
theorem runEach_asPlaces_three :
    let ms : List Move := [⟨{ x := some 10 }, some 10⟩, ⟨{ x := some 400 }, none⟩,
      ⟨{ z := some (-1) }, none⟩]
    let h := (standard fun _ _ _ => none).inMode .relative
    runEach moveAsPlaces ms (h.inMode .absolute) =
        (runEach linearMove ms h).map (Run.mapState (inMode .absolute)) ∧
      (runEach linearMove ms h).map (fun run => (run.ending.isDone, run.state.position.x)) =
        [(true, 10), (true, 100), (false, 100)] := by
  intro ms h
  exact ⟨runEach_asPlaces rfl (by decide), by decide +kernel⟩

end Head

end TachoPrint
