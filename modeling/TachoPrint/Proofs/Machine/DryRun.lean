import TachoPrint.Proofs.Machine.Toggling

/-!
# What a dry run is refused for

On simulated hardware no motor fails and every endstop is found, so the only refusals left
are those of moves, for reasons that stand in the program: a height, a length, or a feed
rate.  What is left besides is arithmetic on 32 bits, and where that has no answer can be
told from the head.

## Main definitions

* `Head.Overflows` — the arithmetic of an instruction has no answer.
* `MoveRefusal` — the causes for which a move is refused on simulated hardware.

## Main results

* `Head.home_of_dry` — homing any axes succeeds exactly when its arithmetic has answers.
* `Head.dryRun_refusals` — **a dry run is refused for reasons found in the program only.**
-/

namespace TachoPrint

open TachoPrint.Action

/-! ### Homing one axis of a head -/

namespace Axis

/-- The axis after homing, but for its motor. -/
def homed (a : Axis) : Axis := { a.looked a.homingLooks with position := 0 }

variable {a b : Axis} {polling : Polling}

@[simp] theorem reads_homed (a : Axis) : a.homed.reads = a.reads + a.homingLooks := by
  unfold homed reads looked homingLooks
  cases a.endstop <;> rfl

/-- With an endstop homing takes two looks or three. -/
theorem homingLooks_of_endstop (he : a.endstop.isSome) : a.homingLooks = 2 ∨ a.homingLooks = 3 := by
  obtain ⟨e, he⟩ := Option.isSome_iff_exists.mp he
  unfold homingLooks
  rw [he]
  dsimp only
  split
  · exact Or.inl rfl
  · exact Or.inr rfl

/-- What homing leaves does not depend on the motor. -/
theorem homed_bare (h : b.bare = a.bare) : b.homed.bare = a.homed.bare := by
  have hhomed : ∀ c : Axis, c.homed.bare = c.bare.homed := fun _ => rfl
  rw [hhomed, hhomed, h]

/-- The arithmetic of homing depends on how the axis is built and on its encoder. -/
theorem homingFits_congr (hbare : b.bare = a.bare) (hencoder : b.motor.encoder = a.motor.encoder) :
    b.HomingFits ↔ a.HomingFits := by
  have hsetup : b.bare.setup = a.bare.setup := congrArg setup hbare
  have hcounts : b.bare.countsPerTurn = a.bare.countsPerTurn := congrArg countsPerTurn hbare
  have hendstop : b.bare.endstop = a.bare.endstop := congrArg endstop hbare
  change b.setup = a.setup at hsetup
  change b.endstop = a.endstop at hendstop
  unfold HomingFits SeekFits OffsetFits HasRoom
  rw [toCounts_of_build hsetup hcounts, toCounts_of_build hsetup hcounts, hsetup, hendstop,
    hencoder]

/-- **Homing an axis of a head on simulated hardware.** -/
theorem homing_of_simulated (ha : a.Simulated) (htimeout : 0 < polling.timeout.toNat)
    (n : AxisName) :
    (a.HomingFits → Leads (homing polling n) a a.homed) ∧
      (¬a.HomingFits → (homing polling n a).ending = .crashed) := by
  -- after the brake the axis is the same but for its motor, and the encoder is where it was
  have hbrake : (a.HomingFits →
      Leads (setStopAction .brake >>= fun _ => home polling) a a.homed) ∧
        (¬a.HomingFits →
          ((setStopAction .brake >>= fun _ => home polling) a).ending = .crashed) := by
    let b := (setStopAction .brake a).state
    have hleads : Leads (setStopAction .brake) a a :=
      (drives_setStopAction .brake).leads ha.obeys rfl
    have hsimulated : b.Simulated := (steady_staysSimulated.setStopAction .brake a).simulated ha
    have hencoder : b.motor.encoder = a.motor.encoder := by
      apply Counted.encoder_eq (steady_counted.setStopAction .brake a)
      intro c hc
      rw [List.mem_singleton.mp ((follows_command (.stopAction .brake) a).mem hc)]
      simp [MotorCommand.call]
    obtain ⟨hdone, hcrash⟩ := home_of_simulated hsimulated htimeout
    rw [homingFits_congr hleads.bare hencoder] at hdone hcrash
    constructor
    · intro hfits
      obtain ⟨hending, hbare, hobeys⟩ := hdone hfits
      refine ⟨?_, ?_, ?_⟩
      · rw [bind_of_done hleads.ending]
        exact hending
      · rw [bind_of_done hleads.ending]
        exact hbare.trans (homed_bare hleads.bare)
      · rw [bind_of_done hleads.ending]
        exact hobeys
    · intro hfits
      rw [bind_of_done hleads.ending]
      exact hcrash hfits
  cases n with
  | x => exact hbrake
  | y => exact hbrake
  | z => exact home_of_simulated ha htimeout

end Axis

namespace Head

variable {limits : HeadLimits} {h h' : Head}

/-- The arithmetic of homing the axis has answers if it is chosen. -/
def FitsIf (axes : AxisSet) (h : Head) (n : AxisName) : Prop :=
  axes.has n → (h.axis n).HomingFits

/-- The axis after homing the chosen ones, but for its motor. -/
def homedIf (axes : AxisSet) (h : Head) (n : AxisName) : Axis :=
  if axes.has n then (h.axis n).homed else h.axis n

/-- Homing a chosen axis changes that axis only. -/
theorem homeIf_of_dry (hd : h.Dry limits) (htimeout : 0 < limits.polling.timeout.toNat)
    (axes : AxisSet) (n : AxisName) :
    (FitsIf axes h n → (homeIf axes n h).ending = .done () ∧
      (∀ m, n ≠ m → (homeIf axes n h).state.axis m = h.axis m) ∧
        ((homeIf axes n h).state.axis n).bare = (homedIf axes h n).bare) ∧
      (¬FitsIf axes h n → (homeIf axes n h).ending = .crashed) := by
  unfold FitsIf homedIf
  rw [homeIf_apply, hd.limits_eq]
  cases axes.has n with
  | false => simp
  | true =>
    obtain ⟨hdone, hcrash⟩ := Axis.homing_of_simulated (hd.axis n) htimeout n
    constructor
    · intro hfits
      obtain ⟨hending, hbare, -⟩ := hdone (hfits rfl)
      refine ⟨hending, ?_, ?_⟩
      · intro m hnm
        exact axis_withAxis_of_ne h _ hnm
      · change ((h.withAxis n _).axis n).bare = _
        rw [axis_withAxis_self]
        exact hbare
    · intro hfits
      exact hcrash fun h => hfits fun _ => h

theorem dry_homeIf (hd : h.Dry limits) (axes : AxisSet) (n : AxisName) :
    (homeIf axes n h).state.Dry limits := by
  have hsteady := Axis.steady_staysSimulated
  have hhoming : ∀ polling, Keeps Axis.StaysSimulated (Axis.homing polling n) := by
    intro polling
    have hhome := hsteady.home trivial polling
    cases n with
    | z => exact hhome
    | _ => exact (hsteady.setStopAction .brake).bind hsteady.chains fun _ => hhome
  apply hd.of_staysDry (t := (homeIf axes n h).trace)
  rw [homeIf_apply]
  split
  · exact steady_staysDry.onAxis (hhoming _) h
  · exact steady_staysDry.chains.nil h

/-- Homing some axes, each of them at most once. -/
theorem homeThrough_of_dry (htimeout : 0 < limits.polling.timeout.toNat) (axes : AxisSet)
    {ns : List AxisName} (hns : ns.Nodup) (hd : h.Dry limits) :
    ((∀ n ∈ ns, FitsIf axes h n) → (homeThrough axes ns h).ending = .done () ∧
      ∀ n, ((homeThrough axes ns h).state.axis n).bare =
        (if n ∈ ns then homedIf axes h n else h.axis n).bare) ∧
      ((¬∀ n ∈ ns, FitsIf axes h n) → (homeThrough axes ns h).ending = .crashed) := by
  induction ns generalizing h with
  | nil => simp [homeThrough, pure, finish]
  | cons n rest ih =>
    obtain ⟨hn, hrest⟩ := List.nodup_cons.mp hns
    obtain ⟨hdone, hcrash⟩ := homeIf_of_dry hd htimeout axes n
    unfold homeThrough
    by_cases hfits : FitsIf axes h n
    · obtain ⟨hending, hothers, hbare⟩ := hdone hfits
      let h₁ := (homeIf axes n h).state
      -- the axes that are still to come are as they were before this one
      have hsame : ∀ m ∈ rest, h₁.axis m = h.axis m := fun m hm =>
        hothers m fun heq => hn (heq ▸ hm)
      have hfit : (∀ m ∈ rest, FitsIf axes h₁ m) ↔ ∀ m ∈ n :: rest, FitsIf axes h m := by
        rw [List.forall_mem_cons]
        refine ⟨fun hm => ⟨hfits, ?_⟩, ?_⟩
        · intro m hmem
          have hat := hm m hmem
          unfold FitsIf at hat ⊢
          rwa [hsame m hmem] at hat
        · intro hm m hmem
          have hat := hm.2 m hmem
          unfold FitsIf at hat ⊢
          rwa [hsame m hmem]
      obtain ⟨hlater, hlatercrash⟩ := ih hrest (dry_homeIf hd axes n)
      rw [bind_of_done hending]
      constructor
      · intro hall
        obtain ⟨hend, haxes⟩ := hlater (hfit.mpr hall)
        refine ⟨hend, ?_⟩
        intro m
        rw [haxes m]
        by_cases hmn : m = n
        · subst hmn
          rw [if_neg hn, if_pos List.mem_cons_self]
          exact hbare
        · have hmem : m ∈ n :: rest ↔ m ∈ rest := by simp [hmn]
          have haxis : h₁.axis m = h.axis m := hothers m (Ne.symm hmn)
          simp only [hmem]
          unfold homedIf
          rw [haxis]
      · intro hall
        exact hlatercrash fun hm => hall (hfit.mp hm)
    · refine ⟨fun hall => absurd (hall n List.mem_cons_self) hfits, ?_⟩
      intro _
      rw [bind_of_crashed (hcrash hfits)]

/-- **Homing succeeds exactly when the arithmetic of each chosen axis has answers.** -/
theorem home_of_dry (hd : h.Dry limits) (htimeout : 0 < limits.polling.timeout.toNat)
    (axes : AxisSet) :
    ((∀ n, FitsIf axes h n) → (home axes h).ending = .done () ∧
      ∀ n, ((home axes h).state.axis n).bare = (homedIf axes h n).bare) ∧
      ((¬∀ n, FitsIf axes h n) → (home axes h).ending = .crashed) := by
  have hall : ∀ n, n ∈ [AxisName.x, .y, .z] := fun n => by cases n <;> simp
  have hnodup : [AxisName.x, .y, .z].Nodup := by decide
  have hthrough := homeThrough_of_dry htimeout axes hnodup hd
  rw [← home_eq_homeThrough] at hthrough
  simp only [hall, if_true, true_imp_iff] at hthrough
  exact hthrough

/-! ### What is refused -/

end Head

/-- The causes for which a move is refused on simulated hardware: a height or a length that
the move leads to, or a feed rate that the move itself gives. -/
inductive MoveRefusal (m : Move) : DeviceError → Prop where
  | outOfRange (target highest : Binary64) : MoveRefusal m (.outOfRange target highest)
  | tooLong (seconds : Binary64) : MoveRefusal m (.motion (.tooLong seconds))
  | badVelocity (feed : Binary64) (given : m.feed = some feed) :
      MoveRefusal m (.motion (.badVelocity feed))

namespace Head

variable {limits : HeadLimits} {h h' : Head} {e : DeviceError}

theorem refusal_of_planEnding {m : Move} {plan : Plan} (hp : h.planEnding plan = .failed e) :
    MoveRefusal m e := by
  unfold planEnding at hp
  split at hp
  · cases hp
  · split at hp
    · split at hp <;> cases hp
    · cases hp
      exact .outOfRange _ _

/-- At a usable speed a move is refused for where it leads. -/
theorem refusal_of_goalEnding (hv : h.velocity.isPositive) {m : Move} {goal : Coordinates}
    (hg : h.goalEnding goal = .failed e) : MoveRefusal m e := by
  unfold goalEnding at hg
  split at hg
  · cases hg
  · cases hp : h.position.plan goal h.mode h.velocity h.limits.travel with
    | done plan =>
      rw [hp] at hg
      exact refusal_of_planEnding hg
    | failed cause =>
      rw [hp] at hg
      cases hg
      cases cause with
      | badVelocity v => exact absurd hp (Position.plan_ne_badVelocity hv v)
      | tooLong seconds => exact .tooLong seconds
    | crashed =>
      rw [hp] at hg
      cases hg

theorem refusal_of_moveEnding (hv : h.velocity.isPositive) {m : Move}
    (hm : h.moveEnding m = .failed e) : MoveRefusal m e := by
  unfold moveEnding at hm
  cases hfeed : m.feed with
  | none =>
    rw [hfeed] at hm
    exact refusal_of_goalEnding hv hm
  | some feed =>
    rw [hfeed] at hm
    by_cases hpos : feed.isPositive
    · simp only [hpos, if_true] at hm
      exact refusal_of_goalEnding (h := { h with velocity := feed }) hpos hm
    · simp only [hpos] at hm
      cases hm
      exact .badVelocity feed hfeed

/-- Executing the instruction leads out of 32 bits: a change of height that is too much for
the encoder, or a chosen axis of which the homing speed has no opposite or the homing offset
is too much for the encoder. -/
def Overflows (h : Head) : Instruction → Prop
  | .move m => ∃ n, h.heightTurn m = some n ∧ ¬h.z.HasRoom n
  | .home axes => ∃ n, axes.has n ∧ ¬(h.axis n).HomingFits
  | _ => False

/-- **How an instruction ends on simulated hardware.**  It crashes exactly where its
arithmetic leads out of 32 bits, and if it is refused it is a move that is. -/
theorem execute_of_dry (hd : h.Dry limits) (hlimit : limits.travel.isPositive)
    (htimeout : 0 < limits.polling.timeout.toNat) (i : Instruction) :
    ((execute i h).ending = .crashed ↔ h.Overflows i) ∧
      ∀ e, (execute i h).ending = .failed e → ∃ m, i = .move m ∧ MoveRefusal m e := by
  cases i with
  | move m =>
    constructor
    · rw [execute_crashed_iff hd.obeys hd.speed (hd.limits_eq ▸ hlimit) rfl]
      unfold Overflows
      simp
    · intro e he
      have hending : h.moveEnding m = .failed e := by
        rw [← linearMove_ending hd.obeys hd.speed m]
        exact he
      exact ⟨m, rfl, refusal_of_moveEnding hd.velocity hending⟩
  | home axes =>
    obtain ⟨hdone, hcrash⟩ := home_of_dry hd htimeout axes
    have hover : h.Overflows (.home axes) ↔ ¬∀ n, FitsIf axes h n := by
      unfold Overflows FitsIf
      simp
    rw [hover]
    by_cases hfits : ∀ n, FitsIf axes h n
    · have hending : (execute (.home axes) h).ending = .done () := (hdone hfits).1
      simp [hending, hfits]
    · have hending : (execute (.home axes) h).ending = .crashed := hcrash hfits
      simp [hending, hfits]
  | release axes =>
    have hending : (execute (.release axes) h).ending = .done () :=
      (drives_release axes).ending_eq hd.obeys
    simp [hending, Overflows]
  | pause micros => simp [execute, pause, emit, Overflows]
  | setPositioning mode => simp [execute, setMode, Action.modify, Overflows]
  | setPosition c => simp [execute, setPosition, Action.modify, Overflows]

theorem steady_looked :
    Steady (fun _ _ => True) (fun _ => Axis.Looked) (fun _ _ _ => True) where
  axis _ := Axis.steady_looked
  extruder :=
    { chains := { nil := fun _ => trivial, append := fun _ _ => trivial }
      command := fun _ _ => trivial }

/-- The looks that homing takes on simulated hardware. -/
theorem looks_home (hd : h.Dry limits) (htimeout : 0 < limits.polling.timeout.toNat)
    {axes : AxisSet} (hfits : ∀ n, FitsIf axes h n) (n : AxisName) :
    looks n (home axes h).trace = if axes.has n then (h.axis n).homingLooks else 0 := by
  obtain ⟨hdone, -⟩ := home_of_dry hd htimeout axes
  have hbare := (hdone hfits).2 n
  have hlooked : ((home axes h).state.axis n).reads =
      (h.axis n).reads + looks n (home axes h).trace :=
    (steady_looked.home (fun _ => trivial) axes h).axis n
  have hreads := congrArg Axis.reads hbare
  change ((home axes h).state.axis n).reads = (homedIf axes h n).reads at hreads
  rw [hlooked] at hreads
  unfold homedIf at hreads
  cases haxes : axes.has n with
  | true =>
    rw [haxes, if_pos rfl, Axis.reads_homed] at hreads
    rw [if_pos rfl]
    omega
  | false =>
    rw [haxes, if_neg (by decide)] at hreads
    rw [if_neg (by decide)]
    omega

/-- **A dry run is refused for reasons found in the program only.**  Take a usable setup that
waits for endstops at all, and any head that its dry run reaches.  A program crashes exactly
where the arithmetic of one of its instructions, all before it having succeeded, leads out
of 32 bits.  If it is refused, it is refused for a move: for where that leads, or for the
feed rate that the move itself gives.  Homing any axes succeeds unless it overflows, and it
looks two or three times at each chosen endstop and never at another. -/
theorem dryRun_refusals (setup : PrinterSetup) (hsetup : setup.fault? = none)
    (htimeout : 1 ≤ setup.endstopTimeout) (h : Head) (hr : DryReached setup h) :
    (∀ p, (runProgram p h).ending = .crashed ↔ ∃ before i rest t h', p = before ++ i :: rest ∧
      Succeeds h before t h' ∧ h'.Overflows i) ∧
    (∀ p e, (runProgram p h).ending = .failed e → ∃ before m rest t h',
      p = before ++ .move m :: rest ∧ Succeeds h before t h' ∧
        (execute (.move m) h').ending = .failed e ∧ MoveRefusal m e) ∧
    ∀ axes, ¬h.Overflows (.home axes) → (execute (.home axes) h).ending = .done () ∧
      ∀ n, (axes.has n ∧ (h.axis n).endstop.isSome → looks n (execute (.home axes) h).trace = 2 ∨
          looks n (execute (.home axes) h).trace = 3) ∧
        (¬(axes.has n ∧ (h.axis n).endstop.isSome) →
          looks n (execute (.home axes) h).trace = 0) := by
  have hd := dry_of_reached hsetup hr
  have hlimit : setup.limits.travel.isPositive := (PrinterSetup.eq_none_of_fault? hsetup).2.travel
  have hwait : 0 < setup.limits.polling.timeout.toNat := by
    have hle := UInt64.le_iff_toNat_le.mp htimeout
    exact hle
  refine ⟨?_, ?_, ?_⟩
  · intro p
    rw [runProgram_crashed_iff]
    constructor
    · rintro ⟨before, i, rest, t, h', rfl, hb, hcrash⟩
      exact ⟨before, i, rest, t, h', rfl, hb,
        (execute_of_dry (hb.dry hd) hlimit hwait i).1.mp hcrash⟩
    · rintro ⟨before, i, rest, t, h', rfl, hb, hover⟩
      exact ⟨before, i, rest, t, h', rfl, hb,
        (execute_of_dry (hb.dry hd) hlimit hwait i).1.mpr hover⟩
  · intro p e he
    obtain ⟨before, i, rest, t, h', rfl, hb, hfail⟩ := exists_of_runProgram_failed he
    obtain ⟨m, rfl, hrefusal⟩ := (execute_of_dry (hb.dry hd) hlimit hwait i).2 e hfail
    exact ⟨before, m, rest, t, h', rfl, hb, hfail, hrefusal⟩
  · intro axes hfits
    have hall : ∀ n, FitsIf axes h n := by
      unfold Overflows at hfits
      unfold FitsIf
      simpa using hfits
    refine ⟨((home_of_dry hd hwait axes).1 hall).1, ?_⟩
    intro n
    have hlooks : looks n (execute (.home axes) h).trace = _ := looks_home hd hwait hall n
    rw [hlooks]
    constructor
    · rintro ⟨haxes, hend⟩
      rw [if_pos haxes]
      exact Axis.homingLooks_of_endstop hend
    · intro hnot
      cases haxes : axes.has n with
      | false => rfl
      | true =>
        rw [if_pos rfl]
        unfold Axis.homingLooks
        cases hend : (h.axis n).endstop with
        | none => rfl
        | some e => exact absurd ⟨haxes, by rw [hend]; rfl⟩ hnot

/-- A move in the plane and a feed rate below zero. -/
def backwards : List Instruction :=
  [.move { goal := { x := some 10 } }, .move { feed := some (-1) }]

/-- The standard printer, homed once: the feed rate is what the program is refused for, and
homing it again succeeds. -/
theorem dryRun_refusals_standard :
    let setup := PrinterSetup.standard
    let h := (execute (.home .all) (dry setup)).state
    let e := DeviceError.motion (.badVelocity (-1))
    setup.fault? = none ∧ 1 ≤ setup.endstopTimeout ∧ DryReached setup h ∧
      ¬h.Overflows (.home .all) ∧ (runProgram backwards h).ending = .failed e ∧
      (∃ before m rest t h', backwards = before ++ .move m :: rest ∧ Succeeds h before t h' ∧
        (execute (.move m) h').ending = .failed e ∧ MoveRefusal m e) ∧
      (execute (.home .all) h).ending = .done () ∧ (h.axis .y).endstop.isSome ∧
      (looks .y (execute (.home .all) h).trace = 2 ∨
        looks .y (execute (.home .all) h).trace = 3) := by
  intro setup h e
  have hsetup : setup.fault? = none := by decide +kernel
  have htimeout : 1 ≤ setup.endstopTimeout := by decide +kernel
  have hr : DryReached setup h := .executed _ (.assembled (assemble_simulated setup))
  have hfits : ¬h.Overflows (.home .all) := by
    rintro ⟨n, -, hn⟩
    apply hn
    cases n <;> decide +kernel
  have hfail : (runProgram backwards h).ending = .failed e := by decide +kernel
  have hendstop : (h.axis .y).endstop.isSome := by decide +kernel
  obtain ⟨-, hrefused, hhome⟩ := dryRun_refusals setup hsetup htimeout h hr
  obtain ⟨hdone, hlooks⟩ := hhome .all hfits
  exact ⟨hsetup, htimeout, hr, hfits, hfail, hrefused _ _ hfail, hdone, hendstop,
    (hlooks .y).1 ⟨rfl, hendstop⟩⟩

end Head

end TachoPrint
