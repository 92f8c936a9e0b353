import TachoPrint.Proofs.Machine.Place
import TachoPrint.Proofs.Machine.Simulation
import TachoPrint.Proofs.Binary64.Zero

/-!
# How far filament can be fed

The axes stand at finite coordinates: those of the plane are held within the travel limit,
and the vertical axis refuses heights that are not.  Filament has no limit of its own.  A
move without a way in the plane is timed by its filament and refused if that takes too long.
A move with a way in the plane is timed by that alone, and a relative one may add so much
filament to what was fed that the sum is infinite.

## Main definitions

* `Head.Overfeeds` — a move that succeeds and feeds an infinite amount.
* `Head.CrossesPlane` — a move with a way in the plane.

## Main results

* `Head.isFinite_extruded_execute` — an instruction leaves a finite amount, unless it
  overfeeds.
* `Head.finite_position_of_program` — **positions stay finite as long as no move overfeeds.**
-/

namespace TachoPrint

open TachoPrint.Action

/-- A sum is finite, or a relative step makes it infinite. -/
theorem Positioning.isFinite_resolve_iff (mode : Positioning) {current : Binary64}
    {given : Option Binary64} (hc : current.isFinite) (hg : ∀ p ∈ given, p.isFinite) :
    (mode.resolve current given).isFinite ↔
      ¬(mode = .relative ∧ ∃ d ∈ given, (current + d).isFinite = false) := by
  cases mode with
  | absolute =>
    cases given with
    | none => simp [resolve, hc]
    | some p => simp [resolve, hg p rfl]
  | relative =>
    cases given with
    | none => simp [resolve, Binary64.isFinite_add_zero hc]
    | some p => simp [resolve]

/-- What is neither finite nor NaN is infinite. -/
theorem Binary64.exists_eq_inf {a : Binary64} (hnan : a.isNaN = false) (h : a.isFinite = false) :
    ∃ s, a = .inf s := by
  cases a with
  | nan => cases hnan
  | inf s => exact ⟨s, rfl⟩
  | finite s n hn => cases h

/-- Without a way in the plane an infinite amount of filament takes too long. -/
theorem Position.planTo_ne_ok_of_endless {current target : Position} {velocity : Binary64}
    (hv : velocity.isPositive) (he : current.e.isFinite) (ht : ∃ s, target.e = .inf s)
    (hway : minTravel.less (Binary64.hypot (target.x - current.x) (target.y - current.y)) = false)
    (plan : Plan) : current.planTo target velocity ≠ .ok plan := by
  obtain ⟨s, hs⟩ := ht
  have hstep : target.e - current.e = .inf s := by
    rw [hs]
    cases hc : current.e with
    | nan => rw [hc] at he; cases he
    | inf t => rw [hc] at he; cases he
    | finite t n hn => rfl
  have hlong : Binary64.inf false / velocity = .inf false := by
    have habs := Binary64.abs_of_isPositive hv
    cases velocity with
    | nan => cases hv
    | inf t => cases Binary64.isFinite_of_isPositive hv
    | finite t n hn =>
      cases t with
      | false => rfl
      | true => cases habs
  have htime : travelTime (target.x - current.x) (target.y - current.y) (target.e - current.e)
      velocity = .inf false := by
    have hless : minTravel.less (Binary64.inf false) = true := by decide +kernel
    have habs : (Binary64.inf s).abs = .inf false := rfl
    simp only [travelTime, hway, hstep, habs, hless, hlong, Bool.false_eq_true, if_false, if_true]
  have hmax : maxSeconds.less (.inf false) = true := by decide +kernel
  unfold planTo
  simp only [htime, hmax, Bool.or_true, if_true]
  nofun

namespace Head

variable {h h' : Head}

/-! ### Instructions that feed no filament -/

/-- The action leaves the amount of filament as it is. -/
def Feedless {α : Type} (act : Act α) : Prop := Keeps (fun h _ h' => h'.extruded = h.extruded) act

theorem chains_feedless : Chains fun (h : Head) (_ : List Event) (h' : Head) =>
    h'.extruded = h.extruded where
  nil _ := rfl
  append h h' := h'.trans h

theorem feedless_onAxis {α : Type} (n : AxisName) (act : Axis.Act α) : Feedless (onAxis n act) := by
  intro h
  cases n <;> rfl

theorem feedless_onExtruder (act : Extruder.Act Unit) : Feedless (onExtruder act) := by
  intro h
  unfold onExtruder
  split <;> rfl

theorem Feedless.optional {act : Act Unit} (hact : Feedless act) (c : Prop) [Decidable c] :
    Feedless (if c then act else pure ()) := Keeps.optional chains_feedless hact c

theorem feedless_homePlane (n : AxisName) : Feedless (homePlane n) :=
  Keeps.get_bind fun _ => (feedless_onAxis n _).bind chains_feedless fun _ => feedless_onAxis n _

theorem feedless_home (axes : AxisSet) : Feedless (home axes) := by
  rw [home_eq]
  apply Keeps.bind chains_feedless ((feedless_homePlane .x).optional _)
  intro _
  apply Keeps.bind chains_feedless ((feedless_homePlane .y).optional _)
  intro _
  have hheight : Feedless homeHeight := Keeps.get_bind fun _ => feedless_onAxis .z _
  exact hheight.optional _

theorem feedless_release (axes : AxisSet) : Feedless (release axes) := by
  rw [release_eq]
  have haxis := fun n => feedless_onAxis n Axis.release
  apply Keeps.bind chains_feedless ((haxis .x).optional _)
  intro _
  apply Keeps.bind chains_feedless ((haxis .y).optional _)
  intro _
  apply Keeps.bind chains_feedless ((haxis .z).optional _)
  intro _
  exact (feedless_onExtruder Extruder.release).optional _

/-! ### Moves that feed too much -/

/-- The move is carried out as a timed one, and its step of filament makes a finite amount
infinite. -/
def Overfeeds (h : Head) (m : Move) : Prop :=
  h.mode = .relative ∧ h.extruded.isFinite ∧
    (∃ d ∈ m.goal.e, (h.extruded + d).isFinite = false) ∧
      (h.timedPlan? m).isSome ∧ (execute (.move m) h).ending = .done ()

/-- The move has a way in the plane. -/
def CrossesPlane (h : Head) (m : Move) : Prop :=
  ∃ target, h.position.target? m.goal h.mode h.limits.travel = some target ∧
    minTravel.less (Binary64.hypot (target.x - h.position.x) (target.y - h.position.y))

/-- A move leaves a finite amount of filament, unless it overfeeds. -/
theorem isFinite_extruded_move {m : Move} (hm : m.goal.Finite) (he : h.extruded.isFinite) :
    (execute (.move m) h).state.extruded.isFinite ↔ ¬h.Overfeeds m := by
  have hland := (lands_move m h).e
  cases ht : h.timedPlan? m with
  | none =>
    have hsame : (execute (.move m) h).state.extruded = h.extruded := by
      rw [hland, ht]
      split <;> rfl
    rw [hsame]
    exact ⟨fun _ ⟨_, _, _, hsome, _⟩ => by simp [ht] at hsome, fun _ => he⟩
  | some plan =>
    obtain ⟨hplan, -⟩ := plan_of_timedPlan? ht
    obtain ⟨-, -, -, hfed⟩ := Position.exists_clamp?_of_target? (Position.target?_of_plan hplan)
    have hresolve := h.mode.isFinite_resolve_iff he hm.2.2.2
    rw [ht] at hland
    by_cases hdone : (execute (.move m) h).ending = .done ()
    · have hplace : (execute (.move m) h).state.extruded =
          h.mode.resolve h.extruded m.goal.e := by
        rw [hland, if_pos hdone]
        exact hfed
      rw [hplace, hresolve]
      refine not_congr ⟨fun ⟨hmode, hstep⟩ => ⟨hmode, he, hstep, ?_, hdone⟩,
        fun ⟨hmode, _, hstep, _⟩ => ⟨hmode, hstep⟩⟩
      rw [ht]
      rfl
    · have hsame : (execute (.move m) h).state.extruded = h.extruded := by
        rw [hland, if_neg hdone]
        rfl
      rw [hsame]
      exact ⟨fun _ ⟨_, _, _, _, hend⟩ => hdone hend, fun _ => he⟩

/-- **An instruction leaves a finite amount of filament**, unless it is a move that
overfeeds. -/
theorem isFinite_extruded_execute {i : Instruction} (hi : i.Finite) (he : h.extruded.isFinite) :
    (execute i h).state.extruded.isFinite ↔ ∀ m, i = .move m → ¬h.Overfeeds m := by
  cases i with
  | move m =>
    rw [isFinite_extruded_move (Instruction.finite_move_iff.mp hi).1 he]
    simp
  | setPosition c =>
    have hstated : (execute (.setPosition c) h).state.extruded = c.e.getD h.extruded := rfl
    have hfinite : (c.e.getD h.extruded).isFinite := by
      cases hc : c.e with
      | none => exact he
      | some e => exact (Instruction.finite_setPosition_iff.mp hi).2.2.2 e hc
    simp [hstated, hfinite]
  | pause micros =>
    have hsame : (execute (.pause micros) h).state.extruded = h.extruded := rfl
    simp [hsame, he]
  | setPositioning mode =>
    have hsame : (execute (.setPositioning mode) h).state.extruded = h.extruded := rfl
    simp [hsame, he]
  | home axes =>
    have hsame : (execute (.home axes) h).state.extruded = h.extruded := feedless_home axes h
    simp [hsame, he]
  | release axes =>
    have hsame : (execute (.release axes) h).state.extruded = h.extruded := feedless_release axes h
    simp [hsame, he]

/-! ### Programs -/

/-- A program leaves a finite amount if none of the moves that it reaches overfeeds. -/
theorem isFinite_extruded_runProgram {p : List Instruction} (hp : ∀ i ∈ p, i.Finite)
    (he : h.extruded.isFinite)
    (hfeed : ∀ before m rest t h', p = before ++ .move m :: rest → Succeeds h before t h' →
      ¬h'.Overfeeds m) : (runProgram p h).state.extruded.isFinite := by
  induction p generalizing h with
  | nil => exact he
  | cons i rest ih =>
    obtain ⟨hi, hrest⟩ := List.forall_mem_cons.mp hp
    have hfirst : (execute i h).state.extruded.isFinite :=
      (isFinite_extruded_execute hi he).mpr fun m hm =>
        hfeed [] m rest [] h (by rw [hm, List.nil_append]) (.nil h)
    cases hend : (execute i h).ending with
    | done u =>
      rw [runProgram_cons_of_done hend]
      apply ih hrest hfirst
      intro before m rest' t h' hsplit hs
      exact hfeed (i :: before) m rest' _ h' (by rw [hsplit, List.cons_append]) (.cons hend hs)
    | failed e =>
      rw [runProgram_cons_of_failed hend]
      exact hfirst
    | crashed =>
      rw [runProgram_cons_of_crashed hend]
      exact hfirst

/-- A move that overfeeds leaves an infinite amount behind. -/
theorem Overfeeds.extruded_eq {m : Move} (hm : m.goal.Finite) (ho : h.Overfeeds m) :
    (execute (.move m) h).state.extruded.isFinite = false := by
  have hiff := isFinite_extruded_move hm ho.2.1
  rw [← Bool.not_eq_true, hiff]
  exact not_not_intro ho

/-- Without a way in the plane a move that would feed too much takes too long. -/
theorem Overfeeds.crossesPlane {m : Move} (hm : m.goal.Finite) (ho : h.Overfeeds m) :
    h.CrossesPlane m := by
  obtain ⟨hmode, he, ⟨d, hd, hover⟩, hsome, -⟩ := ho
  obtain ⟨plan, ht⟩ := Option.isSome_iff_exists.mp hsome
  obtain ⟨hplan, -⟩ := plan_of_timedPlan? ht
  obtain ⟨hv, htarget, hto⟩ := Position.exists_planTo_of_plan hplan
  refine ⟨plan.target, htarget, ?_⟩
  obtain ⟨-, -, -, hfed⟩ := Position.exists_clamp?_of_target? htarget
  have hendless : ∃ s, plan.target.e = .inf s := by
    have hnan := Binary64.isNaN_add (Binary64.isNaN_of_isFinite he) (hm.2.2.2 d hd)
    have hsum : plan.target.e = h.extruded + d := by
      have hgoal : m.goal.e = some d := hd
      rw [hfed, hmode, hgoal]
      rfl
    rw [hsum]
    exact Binary64.exists_eq_inf hnan hover
  rw [← Bool.not_eq_false]
  intro hway
  exact Position.planTo_ne_ok_of_endless hv he hendless hway plan hto

/-- A head that was just put together has fed nothing. -/
theorem extruded_of_assemble {setup : PrinterSetup} {hw : Hardware}
    (built : (assemble setup hw ()).ending = .done h) : h.extruded = 0 := by
  obtain ⟨x, -, h₁⟩ := exists_of_bind_done built
  obtain ⟨y, -, h₂⟩ := exists_of_bind_done h₁
  obtain ⟨z, -, h₃⟩ := exists_of_bind_done h₂
  obtain ⟨e, -, h₄⟩ := exists_of_bind_done h₃
  obtain rfl := Outcome.done.inj h₄
  rfl

/-- A move that overfeeds is seen in a part of the program. -/
theorem exists_take_of_overfeeds {h₀ : Head} {p before rest : List Instruction} {m : Move}
    {t : List Event} (hp : p = before ++ .move m :: rest) (hs : Succeeds h₀ before t h)
    (hm : m.goal.Finite) (ho : h.Overfeeds m) :
    ∃ n, (runProgram (p.take n) h₀).state.extruded.isFinite = false := by
  refine ⟨before.length + 1, ?_⟩
  have htake : p.take (before.length + 1) = before ++ [.move m] := by
    rw [hp, List.take_length_add_append]
    rfl
  have hdone : (execute (.move m) h).ending = .done () := ho.2.2.2.2
  rw [htake, hs.runProgram_append, runProgram_cons_of_done hdone]
  exact ho.extruded_eq hm

/-- **Positions stay finite as long as no move overfeeds.**  However far a program that was
read gets on a head that was just put together, the axes stand at finite coordinates.  The
amount of filament is finite as well, unless the program gets to a relative move that
overfeeds; and only a move with a way in the plane can do that. -/
theorem finite_position_of_program {setup : PrinterSetup} {hw : Hardware} {h₀ : Head}
    {text : List UInt8} {p : List Instruction} (hsetup : setup.fault? = none)
    (built : (assemble setup hw ()).ending = .done h₀) (hp : Instruction.ofBytes text = .ok p) :
    (∀ n, (runProgram (p.take n) h₀).state.position.x.isFinite ∧
      (runProgram (p.take n) h₀).state.position.y.isFinite ∧
      (runProgram (p.take n) h₀).state.position.z.isFinite) ∧
    ((∀ n, (runProgram (p.take n) h₀).state.position.e.isFinite) ↔
      ∀ before m rest t h, p = before ++ .move m :: rest → Succeeds h₀ before t h →
        ¬h.Overfeeds m) ∧
    ∀ before m rest t h, p = before ++ .move m :: rest → Succeeds h₀ before t h →
      h.Overfeeds m → h.CrossesPlane m := by
  have hfinite := Instruction.finite_of_ofBytes hp
  have hgoal : ∀ {before m rest}, p = before ++ .move m :: rest → m.goal.Finite := by
    intro before m rest hsplit
    have hmem : Instruction.move m ∈ p := hsplit ▸ List.mem_append_cons_self
    exact (Instruction.finite_move_iff.mp (hfinite _ hmem)).1
  refine ⟨?_, ⟨?_, ?_⟩, fun before m rest t h hsplit _ ho => ho.crossesPlane (hgoal hsplit)⟩
  · intro n
    have hplaced := placed_of_printed hsetup (.ran hp n (.assembled built))
    exact ⟨hplaced.position .x, hplaced.position .y, hplaced.position .z⟩
  · intro hall before m rest t h hsplit hs ho
    obtain ⟨n, hn⟩ := exists_take_of_overfeeds hsplit hs (hgoal hsplit) ho
    have hyes : (runProgram (p.take n) h₀).state.extruded.isFinite = true := hall n
    rw [hn] at hyes
    cases hyes
  · intro hnone n
    have hzero : h₀.extruded.isFinite := by
      rw [extruded_of_assemble built]
      exact Binary64.isFinite_zero
    apply isFinite_extruded_runProgram (fun i hi => hfinite i (List.mem_of_mem_take hi)) hzero
    intro before m rest t h hsplit hs
    -- what the part of the program reaches, the program reaches
    refine hnone before m (rest ++ p.drop n) t h ?_ hs
    rw [← List.cons_append, ← List.append_assoc, ← hsplit, List.take_append_drop]

/-- A step of filament to beyond the largest number, along a way in the plane. -/
def longFeed : List Instruction :=
  [.setPosition { e := some 1.7e308 }, .setPositioning .relative,
    .move { goal := { x := some 1, e := some 1.7e308 } }]

/-- The text of `longFeed`. -/
def longFeedText : List UInt8 := "G92 E1.7e308\nG91\nG1 X1 E1.7e308".toUTF8.toList

theorem finite_position_of_program_longFeed :
    PrinterSetup.standard.fault? = none ∧
      (assemble .standard simulated ()).ending = .done (dry .standard) ∧
      Instruction.ofBytes longFeedText = .ok longFeed ∧
      (∀ n, (runProgram (longFeed.take n) (dry .standard)).state.position.x.isFinite) ∧
      ∃ before m rest t h, longFeed = before ++ .move m :: rest ∧
        Succeeds (dry .standard) before t h ∧ h.Overfeeds m ∧ h.CrossesPlane m := by
  have hsetup : PrinterSetup.standard.fault? = none := by decide +kernel
  have hparse : Instruction.ofBytes longFeedText = .ok longFeed := by decide +kernel
  obtain ⟨hplace, hfed, hcross⟩ :=
    finite_position_of_program hsetup (assemble_simulated .standard) hparse
  have hinfinite :
      ¬∀ n, (runProgram (longFeed.take n) (dry .standard)).state.position.e.isFinite := by
    intro hall
    have hend :
        (runProgram (longFeed.take 3) (dry .standard)).state.position.e.isFinite = false := by
      decide +kernel
    rw [hall 3] at hend
    cases hend
  rw [hfed] at hinfinite
  simp only [not_forall, not_not] at hinfinite
  obtain ⟨before, m, rest, t, h, hsplit, hs, ho⟩ := hinfinite
  exact ⟨hsetup, assemble_simulated .standard, hparse, fun n => (hplace n).1, before, m, rest, t, h,
    hsplit, hs, ho, hcross before m rest t h hsplit hs ho⟩

/-- The amount of filament does not always stay finite, also when no motor fails. -/
theorem not_finite_position_of_program :
    ¬∀ (setup : PrinterSetup) (hw : Hardware) (h₀ : Head) (text : List UInt8)
      (p : List Instruction) (n : Nat), setup.fault? = none →
        (assemble setup hw ()).ending = .done h₀ → h₀.Obeys → Instruction.ofBytes text = .ok p →
          (runProgram (p.take n) h₀).state.position.e.isFinite := by
  intro hall
  have hsetup : PrinterSetup.standard.fault? = none := by decide +kernel
  have hend := hall .standard simulated (dry .standard) longFeedText longFeed 3 hsetup
    (assemble_simulated .standard) (dry_dry hsetup).obeys (by decide +kernel)
  have hinfinite :
      (runProgram (longFeed.take 3) (dry .standard)).state.position.e.isFinite = false := by
    decide +kernel
  rw [hinfinite] at hend
  cases hend

end Head

end TachoPrint
