import TachoPrint.Proofs.Machine.JointCommands

/-!
# Axis by axis

Homing and releasing take the chosen axes one after the other, and each step touches one axis
only.  So where a sequence breaks off, the axes before that place are done, those after it are
as they were, and the axes that were not chosen never notice.

## Main definitions

* `AxisSet.only`, `AxisSet.names` — the choice of one axis, and the axes of a choice in order.
* `Head.homeEach`, `Head.releaseEach` — homing and releasing single axes in turn.
* `Head.Touches`, `Head.Unfed`, `Head.Unmoved` — what steps leave alone.
* `Head.BreaksOffAt` — where steps in turn are refused, and what they have done till then.
* `Head.HomesInTurn`, `Head.ReleasesInTurn` — what homing and releasing do to a head.

## Main results

* `Action.exists_of_forM_failed` — a sequence is refused where the first of its steps is.
* `Head.home_eq_homeEach`, `Head.release_eq_releaseEach` — the chosen axes are taken in turn.
* `Head.exists_breaksOffAt` — local steps break off at one axis.
* `Head.home_release_in_turn` — **homing and releasing are sequential and local.**
-/

namespace TachoPrint

/-! ### Choices of axes -/

namespace AxisSet

/-- The choice of one axis. -/
def only (n : AxisName) : AxisSet := ⟨n = .x, n = .y, n = .z⟩

@[simp] theorem has_only (n m : AxisName) : (only n).has m = decide (n = m) := by cases m <;> rfl

/-- The axes of a choice, in the order in which the head takes them. -/
def names (s : AxisSet) : List AxisName := [.x, .y, .z].filter s.has

theorem nodup_names (s : AxisSet) : s.names.Nodup := List.Nodup.filter _ (by decide)

end AxisSet

/-! ### Steps in turn -/

namespace Action

variable {ω σ ε α : Type} {step : α → Action ω σ ε Unit} {as : List α} {s : σ}

/-- Steps for the chosen of some things are steps that are left out for the others. -/
theorem forM_filter (p : α → Bool) (step : α → Action ω σ ε Unit) (as : List α) :
    forM (as.filter p) step = forM as fun a => if p a then step a else pure () := by
  induction as with
  | nil => rfl
  | cons a as ih =>
    rw [List.forM_cons, ← ih]
    cases hp : p a with
    | true =>
      rw [List.filter_cons_of_pos hp, List.forM_cons, if_pos rfl]
    | false =>
      rw [List.filter_cons_of_neg (by simp [hp]), if_neg Bool.false_ne_true, pure_bind]

/-- Steps in turn keep what each of them keeps. -/
theorem Keeps.forM {R : σ → List ω → σ → Prop} (hR : Chains R)
    (hstep : ∀ a ∈ as, Keeps R (step a)) : Keeps R (forM as step) := by
  induction as with
  | nil => exact Keeps.pure hR ()
  | cons a as ih =>
    rw [List.forM_cons]
    exact (hstep a List.mem_cons_self).bind hR fun _ =>
      ih fun b hb => hstep b (List.mem_cons_of_mem a hb)

/-- **Steps in turn are refused where the first of them is**, and the steps behind that place
are not taken. -/
theorem exists_of_forM_failed {e : ε} (h : (forM as step s).ending = .failed e) :
    ∃ before a after, as = before ++ a :: after ∧ (forM before step s).ending = .done () ∧
      (step a (forM before step s).state).ending = .failed e ∧
      forM as step s = forM (before ++ [a]) step s := by
  induction as generalizing s with
  | nil => cases h
  | cons a as ih =>
    rw [List.forM_cons] at h
    rcases failed_of_bind_failed h with hfirst | ⟨u, hdone, hrest⟩
    · refine ⟨[], a, as, rfl, rfl, hfirst, ?_⟩
      rw [List.nil_append, List.forM_cons, List.forM_cons, bind_of_failed hfirst,
        bind_of_failed hfirst]
    · obtain ⟨before, b, after, rfl, hbefore, hb, heq⟩ := ih hrest
      -- the first step succeeded, so it goes in front of the others
      have hcons : ∀ bs : List α, (forM (a :: bs) step s) =
          ⟨(step a s).trace ++ (forM bs step (step a s).state).trace,
            (forM bs step (step a s).state).state, (forM bs step (step a s).state).ending⟩ := by
        intro bs
        rw [List.forM_cons, bind_of_done hdone]
      refine ⟨a :: before, b, after, rfl, ?_, ?_, ?_⟩
      · rw [hcons]
        exact hbefore
      · rw [hcons]
        exact hb
      · rw [List.cons_append, hcons, hcons, heq]

end Action

namespace Head

open TachoPrint.Action

variable {ns : List AxisName} {n : AxisName}

/-- Home single axes in turn. -/
def homeEach (ns : List AxisName) : Act Unit := forM ns fun n => home (.only n)

/-- Release single axes in turn. -/
def releaseEach (ns : List AxisName) : Act Unit := forM ns fun n => release (.only n)

theorem homeIf_of_not_has {axes : AxisSet} (hn : axes.has n = false) : homeIf axes n = pure () := by
  funext h
  rw [homeIf_apply, hn]
  rfl

/-- Homing one axis is that step of homing several. -/
theorem home_only (n : AxisName) : home (.only n) = homeIf (.only n) n := by
  have hother : ∀ m, n ≠ m → homeIf (.only n) m = pure () := fun m hm =>
    homeIf_of_not_has (by simp [hm])
  rw [home_eq_homeThrough]
  cases n <;> simp [homeThrough, hother]

theorem home_only_apply (n : AxisName) (h : Head) :
    home (.only n) h = onAxis n (Axis.homing h.limits.polling n) h := by
  simp [home_only, homeIf_apply]

/-- Homing goes through the axes in turn, and leaves out those that are not chosen. -/
theorem homeThrough_eq_forM (axes : AxisSet) (ns : List AxisName) :
    homeThrough axes ns = forM ns fun n => if axes.has n then home (.only n) else pure () := by
  induction ns with
  | nil => rfl
  | cons n ns ih =>
    rw [homeThrough, ih, List.forM_cons]
    cases hn : axes.has n with
    | true =>
      congr 1
      funext h
      rw [homeIf_apply, if_pos hn, if_pos rfl, home_only_apply]
    | false => rw [homeIf_of_not_has hn, if_neg Bool.false_ne_true]

/-- **Homing takes the chosen axes in turn.** -/
theorem home_eq_homeEach (axes : AxisSet) : home axes = homeEach axes.names := by
  rw [home_eq_homeThrough, homeThrough_eq_forM]
  exact (forM_filter axes.has _ _).symm

@[simp] theorem release_only (n : AxisName) : release (.only n) = onAxis n Axis.release := by
  rw [release_eq]
  cases n <;> simp [AxisSet.only, AxisSet.isAll]

/-- **Releasing takes the chosen axes in turn**, and then the extruder if all are chosen. -/
theorem release_eq_releaseEach (axes : AxisSet) : release axes =
    (releaseEach axes.names >>= fun _ =>
      if axes.isAll then onExtruder Extruder.release else pure ()) := by
  rw [release_eq]
  unfold releaseEach AxisSet.names
  simp only [forM_filter, release_only, List.forM_cons, List.forM_nil, bind_assoc, pure_bind]
  rfl

/-! ### What steps leave alone -/

/-- At most some axes and the extruder are touched.  Every other axis is as it was and nothing
was asked of it, and so are the filament fed, the speed, the limits and how coordinates are
read. -/
structure Touches (ns : List AxisName) (h : Head) (t : List Event) (h' : Head) : Prop where
  others : ∀ n ∉ ns, Undisturbed n h t h'
  extruded : h'.extruded = h.extruded
  velocity : h'.velocity = h.velocity
  mode : h'.mode = h.mode
  limits : h'.limits = h.limits

theorem chains_touches (ns : List AxisName) : Chains (Touches ns) where
  nil h := ⟨fun n _ => (chains_undisturbed n).nil h, rfl, rfl, rfl, rfl⟩
  append h h' := ⟨fun n hn => (chains_undisturbed n).append (h.others n hn) (h'.others n hn),
    h'.extruded.trans h.extruded, h'.velocity.trans h.velocity, h'.mode.trans h.mode,
    h'.limits.trans h.limits⟩

/-- An action of one axis does not disturb the others. -/
theorem undisturbed_onAxis {m n : AxisName} (hmn : m ≠ n) (act : Axis.Act Unit) :
    Keeps (Undisturbed n) (onAxis m act) := by
  intro h
  have hjoint : Joint.axis m ≠ .axis n := fun heq => hmn (Joint.axis.inj heq)
  refine ⟨?_, axis_withAxis_of_ne h _ hmn⟩
  change eventsAt _ (List.map _ _) = _
  simp [hjoint]

theorem touches_onAxis (hn : n ∈ ns) (act : Axis.Act Unit) : Keeps (Touches ns) (onAxis n act) := by
  intro h
  have hother : ∀ m ∉ ns, n ≠ m := fun m hm heq => hm (heq ▸ hn)
  refine ⟨fun m hm => undisturbed_onAxis (hother m hm) act h, ?_, ?_, ?_, ?_⟩ <;> cases n <;> rfl

theorem touches_onExtruder (ns : List AxisName) (act : Extruder.Act Unit) :
    Keeps (Touches ns) (onExtruder act) := by
  intro h
  unfold onExtruder
  split
  · exact (chains_touches ns).nil h
  · refine ⟨fun n _ => ⟨?_, by cases n <;> rfl⟩, rfl, rfl, rfl, rfl⟩
    simp

theorem touches_home_only (hn : n ∈ ns) : Keeps (Touches ns) (home (.only n)) := by
  intro h
  rw [home_only_apply]
  exact touches_onAxis hn _ h

theorem touches_release_only (hn : n ∈ ns) : Keeps (Touches ns) (release (.only n)) := by
  rw [release_only]
  exact touches_onAxis hn _

theorem touches_homeEach (ns : List AxisName) : Keeps (Touches ns) (homeEach ns) :=
  Keeps.forM (chains_touches ns) fun _ => touches_home_only

theorem touches_releaseEach (ns : List AxisName) : Keeps (Touches ns) (releaseEach ns) :=
  Keeps.forM (chains_touches ns) fun _ => touches_release_only

/-- The extruder is as it was, and nothing was asked of it. -/
def Unfed (h : Head) (t : List Event) (h' : Head) : Prop := eventsAt .extruder t = [] ∧ h'.e = h.e

theorem chains_unfed : Chains Unfed where
  nil _ := ⟨rfl, rfl⟩
  append h h' := by
    refine ⟨?_, h'.2.trans h.2⟩
    rw [eventsAt_append, h.1, h'.1]
    rfl

theorem unfed_onAxis (n : AxisName) (act : Axis.Act Unit) : Keeps Unfed (onAxis n act) := by
  intro h
  refine ⟨?_, e_withAxis h n _⟩
  change eventsAt _ (List.map _ _) = _
  simp

theorem unfed_homeEach (ns : List AxisName) : Keeps Unfed (homeEach ns) := by
  apply Keeps.forM chains_unfed
  intro n _ h
  rw [home_only_apply]
  exact unfed_onAxis n _ h

theorem unfed_releaseEach (ns : List AxisName) : Keeps Unfed (releaseEach ns) := by
  apply Keeps.forM chains_unfed
  intro n _
  rw [release_only]
  exact unfed_onAxis n _

end Head

/-! ### Where steps leave an axis -/

namespace Axis

open TachoPrint.Action

variable {α : Type} {x : Act α} {f : α → Act Unit} {p : Binary64} {a : Axis}

/-- From the axis the action leads to a coordinate if it has a result, and leaves the axis at its
own otherwise. -/
def Lands (p : Binary64) (act : Act Unit) (a : Axis) : Prop :=
  (act a).state.position = if (act a).ending = .done () then p else a.position

theorem Lands.bind (hx : (x a).state.position = a.position)
    (hf : ∀ b, (x a).ending = .done b → Lands p (f b) (x a).state) : Lands p (x >>= f) a := by
  unfold Lands
  cases hend : (x a).ending with
  | done b =>
    have hsecond := hf b hend
    unfold Lands at hsecond
    rw [hx] at hsecond
    rw [bind_of_done hend]
    exact hsecond
  | failed e =>
    rw [bind_of_failed hend]
    exact hx
  | crashed =>
    rw [bind_of_crashed hend]
    exact hx

/-- **Homing leads to zero**, and where it does not succeed the axis keeps its coordinate. -/
theorem lands_home (polling : Polling) (a : Axis) : Lands 0 (home polling) a := by
  have hset : ∀ b : Axis, Lands 0 (setPosition 0) b := fun b => rfl
  unfold home
  unfold Lands
  rw [get_bind_apply]
  split
  · refine Lands.bind ?_ ?_
    · rw [attempt_state]
      exact steady_position.seek polling a
    · intro found _
      cases found with
      | error e =>
        refine Lands.bind ?_ fun _ _ => rfl
        rw [attempt_state]
        exact steady_position.stop _
      | ok _ => exact Lands.bind (steady_position.applyOffset _) fun _ _ => hset _
  · exact hset a

theorem lands_homing (polling : Polling) (n : AxisName) (a : Axis) :
    Lands 0 (homing polling n) a := by
  have hplane : Lands 0 (setStopAction .brake >>= fun _ => home polling) a :=
    Lands.bind (steady_position.setStopAction _ a) fun _ _ => lands_home polling _
  cases n with
  | x => exact hplane
  | y => exact hplane
  | z => exact lands_home polling a

end Axis

namespace Head

open TachoPrint.Action

variable {h : Head} {ns : List AxisName} {e : DeviceError}

theorem position_home_only (n : AxisName) (h : Head) : ((home (.only n) h).state.axis n).position =
    if (home (.only n) h).ending = .done () then 0 else (h.axis n).position := by
  rw [home_only_apply]
  unfold onAxis within
  dsimp only
  rw [axis_withAxis_self]
  exact Axis.lands_homing h.limits.polling n (h.axis n)

/-- Axes that are homed in turn are all at zero at the end. -/
theorem position_homeEach (hns : ns.Nodup) (hdone : (homeEach ns h).ending = .done ()) :
    ∀ n ∈ ns, ((homeEach ns h).state.axis n).position = 0 := by
  unfold homeEach at hdone ⊢
  induction ns generalizing h with
  | nil => exact fun n hn => nomatch hn
  | cons m ns ih =>
    obtain ⟨hm, hns⟩ := List.nodup_cons.mp hns
    rw [List.forM_cons] at hdone ⊢
    obtain ⟨_, hfirst, hrest⟩ := exists_of_bind_done hdone
    rw [bind_of_done hfirst]
    refine List.forall_mem_cons.mpr ⟨?_, ih hns hrest⟩
    -- the first axis is at zero, and homing the others does not disturb it
    have hkept := ((touches_homeEach ns (home (.only m) h).state).others m hm).2
    change ((homeEach ns (home (.only m) h).state).state.axis m).position = 0
    rw [hkept, position_home_only, if_pos hfirst]

/-! ### Where steps break off -/

/-- Steps for some axes in turn are refused at one of them.  The axes before it were taken, its
own step was refused and left the axis where it was, and the axes behind it never notice. -/
structure BreaksOffAt (step : AxisName → Act Unit) (ns : List AxisName) (h : Head)
    (e : DeviceError) (before : List AxisName) (n : AxisName) (after : List AxisName) : Prop where
  names_eq : ns = before ++ n :: after
  done : (forM before step h).ending = .done ()
  refused : (step n (forM before step h).state).ending = .failed e
  state_eq : (forM ns step h).state = (step n (forM before step h).state).state
  kept : ((forM ns step h).state.axis n).position = (h.axis n).position
  untouched : ∀ m ∈ after, Undisturbed m h (forM ns step h).trace (forM ns step h).state

/-- **Steps in turn break off at one axis**, if each of them touches its own axis only and
changes no position when it is refused. -/
theorem exists_breaksOffAt {step : AxisName → Act Unit}
    (hlocal : ∀ {ns n}, n ∈ ns → Keeps (Touches ns) (step n))
    (hkept : ∀ n h e, (step n h).ending = .failed e →
      ((step n h).state.axis n).position = (h.axis n).position)
    (hns : ns.Nodup) (hfailed : (forM ns step h).ending = .failed e) :
    ∃ before n after, BreaksOffAt step ns h e before n after := by
  obtain ⟨before, n, after, rfl, hdone, hrefused, hrun⟩ := exists_of_forM_failed hfailed
  have hstate : (forM (before ++ n :: after) step h).state =
      (step n (forM before step h).state).state := by
    rw [hrun, List.forM_append, bind_of_done hdone, List.forM_cons, bind_of_failed hrefused]
  have htouched : ∀ ms : List AxisName,
      Touches ms h (forM ms step h).trace (forM ms step h).state := fun ms =>
    Keeps.forM (chains_touches ms) (fun _ => hlocal) h
  have hdisjoint := List.nodup_append.mp hns
  refine ⟨before, n, after, rfl, hdone, hrefused, hstate, ?_, ?_⟩
  · have hn : n ∉ before := fun hmem => hdisjoint.2.2 n hmem n List.mem_cons_self rfl
    rw [hstate, hkept n _ e hrefused, ((htouched before).others n hn).2]
  · intro m hm
    have hm' : m ∉ before ++ [n] := by
      rw [List.mem_append, List.mem_singleton]
      rintro (hmem | rfl)
      · exact hdisjoint.2.2 m hmem m (List.mem_cons_of_mem n hm) rfl
      · exact (List.nodup_cons.mp hdisjoint.2.1).1 hm
    rw [hrun]
    exact (htouched (before ++ [n])).others m hm'

/-- Homing in turn that is refused has homed the axes before the one where it breaks off. -/
theorem exists_breaksOffAt_home (hns : ns.Nodup) (hfailed : (homeEach ns h).ending = .failed e) :
    ∃ before n after, BreaksOffAt (fun n => home (.only n)) ns h e before n after ∧
      ∀ m ∈ before, ((homeEach ns h).state.axis m).position = 0 := by
  have hkept : ∀ n h e, (home (.only n) h).ending = .failed e →
      ((home (.only n) h).state.axis n).position = (h.axis n).position := by
    intro n h e hrefused
    rw [position_home_only, hrefused, if_neg nofun]
  obtain ⟨before, n, after, hat⟩ := exists_breaksOffAt touches_home_only hkept hns hfailed
  refine ⟨before, n, after, hat, ?_⟩
  intro m hm
  rw [hat.names_eq, List.nodup_append] at hns
  have hmn : m ∉ [n] := fun hmem =>
    hns.2.2 m hm n List.mem_cons_self (List.mem_singleton.mp hmem)
  -- the step that is refused does not disturb an axis that was homed before
  have hundisturbed :=
    (touches_home_only (List.mem_singleton_self n) (homeEach before h).state).others m hmn
  change ((forM ns (fun n => home (.only n)) h).state.axis m).position = 0
  rw [hat.state_eq]
  change ((home (.only n) (homeEach before h).state).state.axis m).position = 0
  rw [hundisturbed.2]
  exact position_homeEach hns.1 hat.done m hm

/-- No axis is at another position. -/
def Unmoved (h : Head) (_ : List Event) (h' : Head) : Prop :=
  ∀ n, (h'.axis n).position = (h.axis n).position

theorem chains_unmoved : Chains Unmoved where
  nil _ _ := rfl
  append h h' n := (h' n).trans (h n)

/-- Releasing an axis changes no position. -/
theorem unmoved_release_only (n : AxisName) : Keeps Unmoved (release (.only n)) := by
  intro h m
  rw [release_only]
  by_cases hnm : n = m
  · subst hnm
    unfold onAxis within
    dsimp only
    rw [axis_withAxis_self]
    exact Axis.steady_position.release (h.axis n)
  · exact congrArg Axis.position (undisturbed_onAxis hnm Axis.release h).2

theorem unmoved_onExtruder (act : Extruder.Act Unit) : Keeps Unmoved (onExtruder act) := fun h n =>
  congrArg Axis.position ((touches_onExtruder [] act h).others n List.not_mem_nil).2

theorem exists_breaksOffAt_release (hns : ns.Nodup)
    (hfailed : (releaseEach ns h).ending = .failed e) :
    ∃ before n after, BreaksOffAt (fun n => release (.only n)) ns h e before n after :=
  exists_breaksOffAt touches_release_only (fun n h _ _ => unmoved_release_only n h n) hns hfailed

/-! ### Homing and releasing -/

/-- Homing does one chosen axis after the other, and nothing else. -/
structure HomesInTurn (axes : AxisSet) (h : Head) : Prop where
  single : ∀ n, home (.only n) h = onAxis n (Axis.homing h.limits.polling n) h
  run : home axes h = homeEach axes.names h
  touches : Touches axes.names h (home axes h).trace (home axes h).state
  unfed : Unfed h (home axes h).trace (home axes h).state
  homed : (home axes h).ending = .done () →
    ∀ n ∈ axes.names, ((home axes h).state.axis n).position = 0
  refused : ∀ e, (home axes h).ending = .failed e → ∃ before n after,
    BreaksOffAt (fun n => home (.only n)) axes.names h e before n after ∧
      ∀ m ∈ before, ((home axes h).state.axis m).position = 0

/-- Releasing does one chosen axis after the other, and then the extruder if all are chosen and
all succeeded. -/
structure ReleasesInTurn (axes : AxisSet) (h : Head) : Prop where
  single : ∀ n, release (.only n) h = onAxis n Axis.release h
  run : release axes h = (releaseEach axes.names >>= fun _ =>
    if axes.isAll then onExtruder Extruder.release else pure ()) h
  touches : Touches axes.names h (release axes h).trace (release axes h).state
  unfed : ¬(axes.isAll = true ∧ (releaseEach axes.names h).ending = .done ()) →
    Unfed h (release axes h).trace (release axes h).state
  unmoved : Unmoved h (release axes h).trace (release axes h).state
  refused : ∀ e, (releaseEach axes.names h).ending = .failed e →
    release axes h = releaseEach axes.names h ∧ ∃ before n after,
      BreaksOffAt (fun n => release (.only n)) axes.names h e before n after

theorem homesInTurn (axes : AxisSet) (h : Head) : HomesInTurn axes h where
  single n := home_only_apply n h
  run := congrFun (home_eq_homeEach axes) h
  touches := by
    rw [home_eq_homeEach]
    exact touches_homeEach axes.names h
  unfed := by
    rw [home_eq_homeEach]
    exact unfed_homeEach axes.names h
  homed := by
    rw [home_eq_homeEach]
    exact position_homeEach axes.nodup_names
  refused e := by
    rw [home_eq_homeEach]
    exact exists_breaksOffAt_home axes.nodup_names

theorem releasesInTurn (axes : AxisSet) (h : Head) : ReleasesInTurn axes h where
  single n := congrFun (release_only n) h
  run := congrFun (release_eq_releaseEach axes) h
  touches := by
    rw [release_eq_releaseEach]
    exact (touches_releaseEach axes.names).bind (chains_touches _)
      (fun _ => Keeps.optional (chains_touches _) (touches_onExtruder _ _) _) h
  unfed hnot := by
    rw [release_eq_releaseEach]
    apply Keeps.bind_of_done chains_unfed (unfed_releaseEach axes.names h)
    intro _ hdone
    have hsome : ¬axes.isAll = true := fun hall => hnot ⟨hall, hdone⟩
    rw [if_neg hsome]
    exact chains_unfed.nil _
  unmoved := by
    rw [release_eq_releaseEach]
    exact (Keeps.forM chains_unmoved fun n _ => unmoved_release_only n).bind chains_unmoved
      (fun _ => Keeps.optional chains_unmoved (unmoved_onExtruder _) _) h
  refused e hfailed := by
    refine ⟨?_, exists_breaksOffAt_release axes.nodup_names hfailed⟩
    rw [release_eq_releaseEach, bind_of_failed hfailed, ← hfailed]

/-- **Homing and releasing are sequential and local.**  They do what homing and releasing the
chosen axes one after the other does, up to the first that is refused; the extruder is released
only after three axes were.  Nothing is asked of another axis, and an axis behind a refusal is
as it was.  Homed axes are at zero, the one that is refused stays where it was, and releasing
changes no position; the filament fed, the speed and how coordinates are read stay. -/
theorem home_release_in_turn (axes : AxisSet) (h : Head) :
    HomesInTurn axes h ∧ ReleasesInTurn axes h := ⟨homesInTurn axes h, releasesInTurn axes h⟩

end Head

end TachoPrint
