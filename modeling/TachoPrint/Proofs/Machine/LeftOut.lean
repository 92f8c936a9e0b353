import TachoPrint.Proofs.Binary64.Zero
import TachoPrint.Proofs.Machine.Calibrate
import TachoPrint.Proofs.Machine.Place
import TachoPrint.Proofs.Machine.Rest
import TachoPrint.Proofs.Machine.Simulation

/-!
# Moves that leave the plane out

A move that states no coordinate in the plane is planned to the coordinates that the head
has there.  These are held within the travel limit like all others.  From within the limit
nothing happens in the plane, but a place beyond it, which can be stated, is not kept: the
head is driven back to the limit.

## Main definitions

* `Head.Unrun` — an action that does not set a motor running.
* `Head.InPlane` — the place in the plane is within the travel limit.
* `Head.KeepsPlane` — a move that does nothing in the plane.

## Main results

* `Head.run_mem_move_iff` — only its timed move sets motors of the plane running.
* `Head.inPlane_of_timed` — a timed move that succeeds ends within the travel limit.
* `Head.keepsPlane_of_left_out` — **a move that leaves the plane out does nothing there,
  unless it is a timed move from beyond the travel limit.**
-/

namespace TachoPrint

open TachoPrint.Action

/-- A coordinate that is left out resolves to the current one, up to the sign of a zero. -/
theorem Positioning.rank_resolve_none (mode : Positioning) {current : Binary64}
    (hc : current.isFinite) : (mode.resolve current none).rank = current.rank := by
  cases mode with
  | absolute => rfl
  | relative => exact Binary64.rank_add_zero hc

/-- A coordinate between the bounds that is left out is not moved. -/
theorem Positioning.rank_clamp?_none {mode : Positioning} {current target low high : Binary64}
    (hc : current.isFinite) (hb : current.Between low high)
    (ht : (mode.resolve current none).clamp? low high = some target) :
    target.rank = current.rank := by
  have hrank := mode.rank_resolve_none hc
  rw [Binary64.clamp?_of_between ((Binary64.between_congr hrank).mpr hb)] at ht
  obtain rfl := Option.some.inj ht
  exact hrank

namespace Axis

/-- An axis is not set running at a speed that vanishes. -/
theorem run_not_mem_runAt {velocity : Binary64} (hv : velocity.Vanishes) (a : Axis) :
    .run ∉ commandsOf (runAt velocity a).trace := by
  have hzero : a.toCounts velocity = 0 := a.gearing.toCounts_of_vanishes hv
  unfold runAt
  rw [get_bind_apply, if_pos hzero]
  intro hrun
  have hmem := (follows_command .stop a).mem hrun
  simp at hmem

end Axis

namespace Head

variable {h : Head} {m : Move} {n : AxisName} {j : Joint} {α : Type}

/-! ### Motors that are not set running -/

theorem silent_pause (j : Joint) (micros : UInt64) : Silent j (pause micros) := by
  intro h
  change commandsAt j ((chunks micros.toNat).map Event.slept) = []
  simp [commandsAt]

theorem silent_onExtruder (n : AxisName) (act : Extruder.Act Unit) :
    Silent (.axis n) (onExtruder act) := by
  intro h
  unfold onExtruder
  split
  · rfl
  · dsimp only
    simp

/-- Before its timed move a move tells the motors of the plane nothing. -/
theorem silent_approach (hn : n ≠ .z) (m : Move) : Silent (.axis n) (approach m) := by
  intro h
  rw [commandsAt, (undisturbed_approach hn m h).1, commandsOf_nil]

/-- The action does not set the motor of the joint running. -/
def Unrun (j : Joint) (act : Act α) : Prop := Keeps (fun _ t _ => .run ∉ commandsAt j t) act

theorem chains_unrun (j : Joint) :
    Chains fun (_ : Head) (t : List Event) (_ : Head) => .run ∉ commandsAt j t where
  nil _ := List.not_mem_nil
  append h h' := by
    rw [commandsAt_append, List.mem_append]
    intro hor
    exact hor.elim h h'

/-- A motor that is told nothing is not set running. -/
theorem Silent.unrun {act : Act α} (hact : Silent j act) : Unrun j act := by
  intro h
  rw [hact h]
  exact List.not_mem_nil

theorem unrun_onAxis {act : Axis.Act α} (hact : ∀ a, .run ∉ commandsOf (act a).trace) (j : Joint) :
    Unrun j (onAxis n act) := by
  by_cases hj : .axis n = j
  · subst hj
    intro h
    rw [commandsAt_onAxis]
    exact hact (h.axis n)
  · exact (silent_onAxis hj act).unrun

theorem unrun_settle (j : Joint) (plan : Plan) (started : Except DeviceError Unit) :
    Unrun j (settle plan started) := by
  intro h
  rw [settle_trace, commandsAt_stopEvents]
  split <;> simp

/-- A timed move at speeds that vanish in the plane sets no motor of an axis running. -/
theorem unrun_runTimed {plan : Plan} (hx : plan.vx.Vanishes) (hy : plan.vy.Vanishes)
    (n : AxisName) : Unrun (.axis n) (runTimed plan) := by
  have hchains := chains_unrun (.axis n)
  have hstart : Unrun (.axis n) (start plan) :=
    (unrun_onAxis (Axis.run_not_mem_runAt hx) _).bind hchains fun _ =>
      (unrun_onAxis (Axis.run_not_mem_runAt hy) _).bind hchains fun _ =>
        (silent_onExtruder n _).unrun
  rw [runTimed_eq]
  apply hstart.attempt.bind hchains
  intro started
  exact (Keeps.optional hchains (silent_pause _ _).unrun _).bind hchains fun _ =>
    unrun_settle _ plan started

/-- Only in its timed move a move sets a motor of the plane running. -/
theorem run_mem_move_iff (hn : n ≠ .z) :
    .run ∈ commandsAt (.axis n) (execute (.move m) h).trace ↔
      (approach m h).ending = .done () ∧
        .run ∈ commandsAt (.axis n) (runTimed? (h.timedPlan? m) (approach m h).state).trace := by
  rw [move_eq]
  exact mem_commandsAt_bind_iff (silent_approach hn m)

/-- Motors that obey carry out a timed move as soon as it is reached. -/
theorem done_of_approach (hh : h.Obeys) (hdone : (approach m h).ending = .done ()) :
    (execute (.move m) h).ending = .done () := by
  have hobeys : Keeps (fun (h : Head) _ h' => h.Obeys → h'.Obeys) (approach m) := by
    refine keeps_approach (chains_preserved Obeys) ?_ ?_ m
    · intro velocity g
      rw [setVelocity_eq]
      split
      · intro hg
        exact hg.withVelocity velocity
      · exact id
    · intro height highest g hg
      exact hg.withAxis .z (Axis.steady_obeys.moveToHeight (fun _ => trivial) g.z (hg.axis .z))
  rw [move_eq, bind_of_done hdone]
  cases h.timedPlan? m with
  | none => rfl
  | some plan => exact (runTimed_of_obeys (hobeys h hh) plan).1

/-! ### The place in the plane -/

/-- The place in the plane is within the travel limit. -/
def InPlane (limit : Binary64) (h : Head) : Prop :=
  h.position.x.Between (-limit) limit ∧ h.position.y.Between (-limit) limit

instance (limit : Binary64) (h : Head) : Decidable (h.InPlane limit) :=
  inferInstanceAs (Decidable (_ ∧ _))

/-- Up to the sign of a zero, the two places in the plane are one. -/
def SamePlane (p q : Position) : Prop := p.x.rank = q.x.rank ∧ p.y.rank = q.y.rank

/-- The move sets neither motor of the plane running and leaves the place in the plane as it
is, up to the sign of a zero. -/
structure KeepsPlane (h : Head) (m : Move) : Prop where
  run : ∀ n ≠ .z, .run ∉ commandsAt (.axis n) (execute (.move m) h).trace
  x : (execute (.move m) h).state.position.x.equals h.position.x
  y : (execute (.move m) h).state.position.y.equals h.position.y

variable {setup : PrinterSetup} {plan : Plan}

/-- From within the travel limit a timed move that leaves the plane out has no way there. -/
theorem samePlane_of_left_out (hp : h.Placed setup) (hlimit : setup.travelLimit.isPositive)
    (hx : m.goal.x = none) (hy : m.goal.y = none) (hin : h.InPlane setup.travelLimit)
    (ht : h.timedPlan? m = some plan) : SamePlane plan.target h.position := by
  obtain ⟨hplan, -⟩ := plan_of_timedPlan? ht
  obtain ⟨htx, hty, -, -⟩ := Position.exists_clamp?_of_target? (Position.target?_of_plan hplan)
  rw [hp.limits_eq] at htx hty
  rw [hx] at htx
  rw [hy] at hty
  rw [← Binary64.abs_of_isPositive hlimit] at hin
  exact ⟨Positioning.rank_clamp?_none (hp.position .x) hin.1 htx,
    Positioning.rank_clamp?_none (hp.position .y) hin.2 hty⟩

/-- Without a way in the plane the speeds there vanish. -/
theorem vanishes_of_samePlane (hp : h.Placed setup) (ht : h.timedPlan? m = some plan)
    (hsame : SamePlane plan.target h.position) : plan.vx.Vanishes ∧ plan.vy.Vanishes := by
  obtain ⟨hplan, hidle⟩ := plan_of_timedPlan? ht
  obtain ⟨-, -, hto⟩ := Position.exists_planTo_of_plan hplan
  obtain ⟨hvx, hvy⟩ := Position.speeds_of_planTo hto hidle
  have hx : h.position.x.isFinite := hp.position .x
  have hy : h.position.y.isFinite := hp.position .y
  rw [hvx, hvy]
  exact ⟨(Binary64.vanishes_sub (Binary64.isFinite_of_rank_eq hx hsame.1) hx hsame.1).div _,
    (Binary64.vanishes_sub (Binary64.isFinite_of_rank_eq hy hsame.2) hy hsame.2).div _⟩

/-- A timed move that succeeds ends within the travel limit. -/
theorem inPlane_of_timed (hp : h.Placed setup) (hlimit : setup.travelLimit.isPositive)
    (hx : ∀ p ∈ m.goal.x, p.isFinite) (hy : ∀ p ∈ m.goal.y, p.isFinite)
    (ht : h.timedPlan? m = some plan) (hdone : (execute (.move m) h).ending = .done ()) :
    (execute (.move m) h).state.InPlane setup.travelLimit := by
  obtain ⟨hplan, -⟩ := plan_of_timedPlan? ht
  obtain ⟨htx, hty, -, -⟩ := Position.exists_clamp?_of_target? (Position.target?_of_plan hplan)
  rw [hp.limits_eq] at htx hty
  have hnanx : h.position.x.isNaN = false := Binary64.isNaN_of_isFinite (hp.position .x)
  have hnany : h.position.y.isNaN = false := Binary64.isNaN_of_isFinite (hp.position .y)
  have hplace := atPlace_of_timed ht hdone
  unfold InPlane
  rw [← Binary64.abs_of_isPositive hlimit]
  constructor
  · change (execute (.move m) h).state.x.position.Between _ _
    rw [hplace.x]
    exact Binary64.between_clamp? (h.mode.isNaN_resolve hnanx hx) htx
  · change (execute (.move m) h).state.y.position.Between _ _
    rw [hplace.y]
    exact Binary64.between_clamp? (h.mode.isNaN_resolve hnany hy) hty

/-- The place is kept if the timed move ends where it starts, or does not succeed. -/
theorem samePlane_move
    (hkeep : ∀ plan ∈ h.timedPlan? m, (execute (.move m) h).ending = .done () →
      SamePlane plan.target h.position) :
    SamePlane (execute (.move m) h).state.position h.position := by
  have hplace := lands_move m h
  unfold Lands at hplace
  have hends : SamePlane (if (execute (.move m) h).ending = .done () then
      (h.timedPlan? m).elim h.position Plan.target else h.position) h.position := by
    split
    · next hdone =>
      cases ht : h.timedPlan? m with
      | none => exact ⟨rfl, rfl⟩
      | some plan => exact hkeep plan ht hdone
    · exact ⟨rfl, rfl⟩
  exact ⟨(congrArg Binary64.rank hplace.x).trans hends.1,
    (congrArg Binary64.rank hplace.y).trans hends.2⟩

/-- Where coordinates are finite, the place is kept when its coordinates are. -/
theorem keepsPlane_iff (hp : h.Placed setup) : h.KeepsPlane m ↔
    (∀ n ≠ .z, .run ∉ commandsAt (.axis n) (execute (.move m) h).trace) ∧
      SamePlane (execute (.move m) h).state.position h.position := by
  have hequals := fun n (a : Binary64) =>
    Binary64.equals_iff (a := a) (Binary64.isNaN_of_isFinite (hp.position n))
  constructor
  · rintro ⟨hrun, hx, hy⟩
    exact ⟨hrun, (hequals .x _).mp hx, (hequals .y _).mp hy⟩
  · rintro ⟨hrun, hx, hy⟩
    exact ⟨hrun, (hequals .x _).mpr hx, (hequals .y _).mpr hy⟩

/-- A move that leaves the plane out keeps it, from within the travel limit or without a timed
move. -/
theorem keepsPlane_of_inPlane (hp : h.Placed setup) (hlimit : setup.travelLimit.isPositive)
    (hx : m.goal.x = none) (hy : m.goal.y = none)
    (hin : h.InPlane setup.travelLimit ∨ h.timedPlan? m = none) : h.KeepsPlane m := by
  have hsame : ∀ plan ∈ h.timedPlan? m, SamePlane plan.target h.position := by
    intro plan ht
    obtain hin | hnone := hin
    · exact samePlane_of_left_out hp hlimit hx hy hin ht
    · rw [hnone] at ht
      cases ht
  refine (keepsPlane_iff hp).mpr ⟨?_, samePlane_move fun plan ht _ => hsame plan ht⟩
  intro n hn
  rw [run_mem_move_iff hn]
  rintro ⟨-, hrun⟩
  cases ht : h.timedPlan? m with
  | none =>
    rw [ht] at hrun
    cases hrun
  | some plan =>
    rw [ht] at hrun
    obtain ⟨hvx, hvy⟩ := vanishes_of_samePlane hp ht (hsame plan ht)
    exact unrun_runTimed hvx hvy n _ hrun

/-- With motors that obey, a move that does not succeed does nothing in the plane. -/
theorem keepsPlane_of_not_done (hp : h.Placed setup) (hh : h.Obeys)
    (hend : (execute (.move m) h).ending ≠ .done ()) : h.KeepsPlane m := by
  refine (keepsPlane_iff hp).mpr ⟨?_, samePlane_move fun _ _ hdone => absurd hdone hend⟩
  intro n hn
  rw [run_mem_move_iff hn]
  rintro ⟨hdone, _⟩
  exact hend (done_of_approach hh hdone)

/-- **A move that leaves the plane out does nothing there, unless it is a timed move from
beyond the travel limit.**  Neither motor of the plane is set running and the place there
stays, if it is within the limit or there is no timed move at all, however the move ends.
From beyond the limit a timed move does change the place: with motors that obey nothing
happens in the plane only if the move is not carried out. -/
theorem keepsPlane_of_left_out (hsetup : setup.fault? = none) (hr : Printed setup h)
    (hx : m.goal.x = none) (hy : m.goal.y = none) :
    (h.InPlane setup.travelLimit ∨ h.timedPlan? m = none → h.KeepsPlane m) ∧
      (h.Obeys → (h.KeepsPlane m ↔ h.InPlane setup.travelLimit ∨ h.timedPlan? m = none ∨
        (execute (.move m) h).ending ≠ .done ())) := by
  have hp := placed_of_printed hsetup hr
  have hlimit : setup.travelLimit.isPositive := (PrinterSetup.eq_none_of_fault? hsetup).2.travel
  refine ⟨keepsPlane_of_inPlane hp hlimit hx hy, fun hh => ⟨?_, ?_⟩⟩
  · intro hkeep
    by_contra hnone
    rw [not_or, not_or, not_not] at hnone
    obtain ⟨hout, htimed, hdone⟩ := hnone
    obtain ⟨plan, ht⟩ := Option.ne_none_iff_exists'.mp htimed
    -- the move ends within the limit, so it did not start there
    obtain ⟨hinx, hiny⟩ := inPlane_of_timed hp hlimit (by simp [hx]) (by simp [hy]) ht hdone
    obtain ⟨-, hsamex, hsamey⟩ := (keepsPlane_iff hp).mp hkeep
    exact hout ⟨(Binary64.between_congr hsamex).mp hinx, (Binary64.between_congr hsamey).mp hiny⟩
  · intro hcase
    obtain hin | hnone | hend := hcase
    · exact keepsPlane_of_inPlane hp hlimit hx hy (.inl hin)
    · exact keepsPlane_of_inPlane hp hlimit hx hy (.inr hnone)
    · exact keepsPlane_of_not_done hp hh hend

/-- Stating a place within the travel limit of the standard printer, and then one beyond. -/
def restated : List Instruction :=
  [.setPosition { x := some 50 }, .setPosition { x := some 150 }]

/-- The text of `restated`. -/
def restatedText : List UInt8 := "G92 X50\nG92 X150".toUTF8.toList

/-- A change of height. -/
def lift : Move := { goal := { z := some 5 } }

/-- The standard printer is lifted straight up from within the limit, but not from beyond. -/
theorem keepsPlane_of_left_out_restated :
    PrinterSetup.standard.fault? = none ∧ Instruction.ofBytes restatedText = .ok restated ∧
      (runProgram (restated.take 1) (dry .standard)).state.KeepsPlane lift ∧
        ¬(runProgram (restated.take 2) (dry .standard)).state.KeepsPlane lift := by
  have hsetup : PrinterSetup.standard.fault? = none := by decide +kernel
  have hparse : Instruction.ofBytes restatedText = .ok restated := by decide +kernel
  have hr := fun n => Printed.ran hparse n (.assembled (assemble_simulated .standard))
  have hin : (runProgram (restated.take 1) (dry .standard)).state.InPlane 100 := by decide +kernel
  have hout : ¬(runProgram (restated.take 2) (dry .standard)).state.InPlane 100 := by decide +kernel
  have htimed : ((runProgram (restated.take 2) (dry .standard)).state.timedPlan? lift).isSome := by
    decide +kernel
  have hdone : (execute (.move lift)
      (runProgram (restated.take 2) (dry .standard)).state).ending = .done () := by
    decide +kernel
  refine ⟨hsetup, hparse, (keepsPlane_of_left_out hsetup (hr 1) rfl rfl).1 (.inl hin), ?_⟩
  intro hkeep
  have hobeys := (dry_runProgram (dry_dry hsetup) (restated.take 2)).obeys
  obtain hbetween | hnone | hend :=
    ((keepsPlane_of_left_out hsetup (hr 2) rfl rfl).2 hobeys).mp hkeep
  · exact hout hbetween
  · rw [hnone] at htimed
    cases htimed
  · exact hend hdone

/-- A move that leaves the plane out may set its motors running. -/
theorem not_keepsPlane_of_left_out :
    ¬∀ (setup : PrinterSetup) (h : Head) (m : Move), setup.fault? = none → Printed setup h →
      m.goal.x = none → m.goal.y = none → h.KeepsPlane m := by
  intro hall
  have hparse : Instruction.ofBytes restatedText = .ok restated := by decide +kernel
  have hkeep := hall .standard _ lift (by decide +kernel)
    (.ran hparse 2 (.assembled (assemble_simulated .standard))) rfl rfl
  have hrun : .run ∈ commandsAt (.axis .x) (execute (.move lift)
      (runProgram (restated.take 2) (dry .standard)).state).trace := by
    decide +kernel
  exact hkeep.run .x (by decide) hrun

end Head

end TachoPrint
