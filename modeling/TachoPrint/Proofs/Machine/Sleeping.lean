import Mathlib.Algebra.Order.Floor.Div
import TachoPrint.Proofs.Gcode.Pauses
import TachoPrint.Proofs.Machine.MoveEffect

/-!
# How long the head sleeps

A delay has 64 bits and a single delay has 32, so the head takes the longest single delay again
and again until nothing is left.  A pause is such a delay and nothing else.  A move has one
between the start of its motors and their stop, if it gets as far as that, and all else that
happens in a move are commands.  A planned time is limited in seconds, before it is counted in
microseconds and rounded, and neither rounding leads past the limit.

## Main definitions

* `Event.micros`, `Head.sleep` — the time that the delays in a trace take.
* `Head.MakesUp` — single delays that make up a delay.
* `Head.OnlyCommands` — nothing happened but commands.
* `Head.ReachesDelay` — a move that gets as far as its delay.

## Main results

* `Head.chunks_of_pos` — one turn of the loop of single delays.
* `Head.makesUp_chunks` — **the single delays lose nothing, and there are no more than needed.**
* `Head.planMicros_of_planTo` — the microseconds of a planned time.
* `Head.undriven_move_of_reaches` — without its commands a move is its delay.
* `Head.sleeps_exactly` — **how long pauses and moves sleep.**
-/

namespace TachoPrint

open TachoPrint.Action

/-- The microseconds that the head sleeps at an event: a delay of its own is given in them, and
one between two looks at an endstop in milliseconds. -/
def Event.micros : Event → Nat
  | .slept micros => micros.toNat
  | .device _ (.waited millis) => millis.toNat * 1000
  | .device _ _ => 0

theorem Event.micros_of_isCommand {e : Event} (h : e.isCommand = true) : e.micros = 0 := by
  cases e with
  | slept d => cases h
  | device j e =>
    cases e with
    | waited millis => cases h
    | _ => rfl

namespace Head

/-! ### Single delays -/

/-- Single delays that make up a delay: each takes some time, together they take all of it, and
there are no more of them than needed. -/
structure MakesUp (delays : List UInt32) (micros : Nat) : Prop where
  mem : ∀ d ∈ delays, 1 ≤ d.toNat ∧ d.toNat ≤ 4294967295
  sum : (delays.map UInt32.toNat).sum = micros
  length : delays.length = micros ⌈/⌉ 4294967295

/-- **One turn of the loop**: the longest single delay that is not too long, and then the rest. -/
theorem chunks_of_pos {n : Nat} (hn : 0 < n) :
    chunks n = UInt32.ofNat (min n maxChunk) :: chunks (n - min n maxChunk) := by
  rcases Nat.lt_or_ge n maxChunk with hshort | hlong
  · have hrest : chunks 0 = [] := rfl
    rw [Nat.min_eq_left hshort.le, Nat.sub_self, hrest]
    unfold chunks
    rw [Nat.div_eq_of_lt hshort, Nat.mod_eq_of_lt hshort, if_neg hn.ne']
    rfl
  · obtain ⟨rest, rfl⟩ := Nat.exists_eq_add_of_le hlong
    have hdiv : (maxChunk + rest) / maxChunk = rest / maxChunk + 1 :=
      Nat.add_div_left rest (by decide)
    rw [Nat.min_eq_right hlong, Nat.add_sub_cancel_left]
    unfold chunks
    rw [hdiv, Nat.add_mod_left, List.replicate_succ, List.cons_append]

/-- No single delay is empty. -/
theorem one_le_of_mem_chunks {n : Nat} {d : UInt32} (hd : d ∈ chunks n) : 1 ≤ d.toNat := by
  -- on what is left, one delay at a time
  induction n using Nat.strong_induction_on with
  | _ n ih =>
    rcases Nat.eq_zero_or_pos n with rfl | hn
    · cases hd
    · have hpos : 0 < maxChunk := by decide
      rw [chunks_of_pos hn, List.mem_cons] at hd
      rcases hd with rfl | hd
      · have hfits : min n maxChunk < UInt32.size := by
          apply Nat.lt_of_le_of_lt (Nat.min_le_right n maxChunk)
          decide
        have htoNat : (UInt32.ofNat (min n maxChunk)).toNat = min n maxChunk :=
          UInt32.toNat_ofNat_of_lt hfits
        rw [htoNat]
        omega
      · apply ih (n - min n maxChunk) _ hd
        omega

/-- There are no more single delays than needed. -/
@[simp] theorem length_chunks (n : Nat) : (chunks n).length = n ⌈/⌉ 4294967295 := by
  induction n using Nat.strong_induction_on with
  | _ n ih =>
    rcases Nat.eq_zero_or_pos n with rfl | hn
    · exact (zero_ceilDiv 4294967295).symm
    · have hlast : n - min n maxChunk < n := by
        have hpos : 0 < maxChunk := by decide
        omega
      rw [chunks_of_pos hn, List.length_cons, ih _ hlast, Nat.ceilDiv_eq_add_pred_div,
        Nat.ceilDiv_eq_add_pred_div]
      unfold maxChunk
      omega

/-- **The single delays lose nothing, and there are no more than needed.** -/
theorem makesUp_chunks (micros : Nat) : MakesUp (chunks micros) micros where
  mem d hd := by
    have hd' := d.toNat_lt
    refine ⟨one_le_of_mem_chunks hd, ?_⟩
    omega
  sum := sum_chunks micros
  length := length_chunks micros

/-! ### The time of a plan -/

variable {current target : Position} {velocity : Binary64} {plan : Plan}

theorem maxSeconds_value_mul_le : maxSeconds.value * 1000000 ≤ 4294967295000 := by
  have hunits : maxSeconds.units * 1000000 ≤ 4294967295000 * (Binary64.one : Int) := by
    decide +kernel
  have hone := Binary64.one_cast_pos
  unfold Binary64.value
  rw [div_mul_eq_mul_div, div_le_iff₀ hone]
  exact_mod_cast hunits

/-- A planned time is not too long. -/
theorem duration_le_of_planTo (h : current.planTo target velocity = .ok plan)
    (hidle : plan.isIdle = false) : plan.duration.value ≤ maxSeconds.value := by
  have hfinite := Binary64.isFinite_of_isPositive
    (Position.isPositive_duration_of_planTo h hidle)
  obtain ⟨-, hshort⟩ := Position.duration_of_planTo h hidle
  rw [← not_lt, ← Binary64.less_iff_value_lt isFinite_maxSeconds hfinite, hshort]
  exact Bool.false_ne_true

/-- A million times a planned time is a number that is not past the limit. -/
theorem mul_million_of_planTo (h : current.planTo target velocity = .ok plan)
    (hidle : plan.isIdle = false) :
    (plan.duration * 1000000).isFinite ∧ 0 ≤ (plan.duration * 1000000).value ∧
      (plan.duration * 1000000).value ≤ (4294967295000 : Nat) := by
  have hpositive := Position.isPositive_duration_of_planTo h hidle
  have hexact : plan.duration.value * (1000000 : Nat) ≤ (4294967295000 : Nat) := by
    have hle := duration_le_of_planTo h hidle
    have hmax := maxSeconds_value_mul_le
    push_cast
    linarith
  have hliteral : (1000000 : Binary64) = .ofRatio false 1000000 1 := rfl
  rw [hliteral]
  exact Binary64.mul_ofRatio_le (Binary64.isFinite_of_isPositive hpositive)
    (Binary64.value_pos_of_isPositive hpositive).le hexact (by decide) (by decide)

/-- **The microseconds of a planned time.**  Neither the product nor the whole number that is
nearest to it leads past the limit. -/
theorem planMicros_of_planTo (h : current.planTo target velocity = .ok plan)
    (hidle : plan.isIdle = false) :
    ((planMicros plan).toNat : ℤ) = round (plan.duration * 1000000).value ∧
      |((planMicros plan).toNat : ℚ) - plan.duration.value * 1000000| ≤ 501 / 1000 ∧
      (planMicros plan).toNat ≤ 4294967295000 := by
  obtain ⟨hfinite, h0, hle⟩ := mul_million_of_planTo h hidle
  obtain ⟨hround, hbound⟩ := Binary64.toNat_toUInt64 hfinite h0 hle (by decide)
  refine ⟨hround, ?_, hbound⟩
  -- the product is rounded by far less than the whole number is
  have hmillion : (1000000 : Binary64).value = 1000000 :=
    (Binary64.value_ofRatio (n := 1000000) (by decide)).2
  have hpositive : 0 < plan.duration.value :=
    Binary64.value_pos_of_isPositive (Position.isPositive_duration_of_planTo h hidle)
  have hproduct := Binary64.abs_mul_error_le hfinite
  rw [hmillion, abs_of_nonneg (mul_nonneg hpositive.le (by norm_num))] at hproduct
  have hwhole := abs_sub_round (plan.duration * 1000000).value
  rw [← hround] at hwhole
  unfold planMicros
  push_cast at hle hwhole
  rw [abs_le] at hproduct hwhole ⊢
  constructor
  · linarith
  · linarith

/-! ### What is left without the commands -/

/-- Between the two heads there were only commands, obeyed or not. -/
def OnlyCommands (_ : Head) (t : List Event) (_ : Head) : Prop := undriven t = []

theorem chains_onlyCommands : Chains OnlyCommands where
  nil _ := rfl
  append h h' := by
    unfold OnlyCommands at h h' ⊢
    rw [undriven_append, h, h']
    rfl

/-- An order leaves a command, or nothing. -/
theorem onlyCommands_order (o : Order) : Keeps OnlyCommands (order o) := by
  intro h
  rw [order_eq]
  cases h.motor? o.joint with
  | none => rfl
  | some m =>
    have hissue : Axis.undriven (Motor.issue o.command m).trace = [] := by
      simp only [Motor.issue]
      split
      · rfl
      · split <;> rfl
    show undriven ((Motor.issue o.command m).trace.map (Event.device o.joint)) = []
    rw [undriven_map_device, hissue]
    rfl

theorem onlyCommands_give (os : List Order) : Keeps OnlyCommands (give os) := by
  induction os with
  | nil => exact Keeps.pure chains_onlyCommands ()
  | cons o os ih => exact (onlyCommands_order o).bind chains_onlyCommands fun _ => ih

theorem undriven_answers (os : List Order) (h : Head) : undriven (h.answers os) = [] := by
  induction os generalizing h with
  | nil => rfl
  | cons o os ih =>
    have hanswer : undriven (h.answer o) = [] := by
      unfold answer
      cases h.motor? o.joint with
      | none => rfl
      | some m => simp [undriven, Event.isCommand, DeviceEvent.isCommand]
    unfold answers
    rw [undriven_append, hanswer]
    split
    · rfl
    · exact ih (h.after o)

/-- A change of height is a turn, or it is refused. -/
theorem onlyCommands_moveToHeight (height highest : Binary64) :
    Keeps OnlyCommands (onAxis .z (Axis.moveToHeight height highest)) := by
  intro h
  by_cases hallowed : Axis.AllowedHeight height highest
  · cases hspeed : h.z.setup.speed.isPositive with
    | true =>
      rw [onAxis_congr (Axis.moveToHeight_eq (a := h.z) hspeed hallowed), ← onAxis_bind,
        onAxis_turn]
      refine (onlyCommands_give _).bind chains_onlyCommands ?_ h
      intro _ h'
      rfl
    | false =>
      show undriven ((Axis.moveToHeight height highest h.z).trace.map _) = []
      rw [Axis.moveToHeight_of_not_isPositive hspeed hallowed]
      rfl
  · show undriven ((Axis.moveToHeight height highest h.z).trace.map _) = []
    rw [Axis.moveToHeight_of_refused hallowed]
    rfl

/-- Before its timed move a move only gives commands. -/
theorem onlyCommands_approach (m : Move) : Keeps OnlyCommands (approach m) := by
  apply keeps_approach chains_onlyCommands
  · intro velocity h
    rw [setVelocity_eq]
    split <;> rfl
  · exact onlyCommands_moveToHeight

/-- Without its commands a timed move is its delay, if every motor of it starts. -/
theorem undriven_runTimed (plan : Plan) (h : Head) : undriven (runTimed plan h).trace =
    if h.obeysAll (h.startOrders plan) then (chunks (planMicros plan).toNat).map Event.slept
    else [] := by
  rw [runTimed_run]
  unfold timedEvents
  rw [undriven_append, undriven_append, undriven_answers, undriven_stopEvents]
  split
  · simp
  · rfl

/-! ### Moves that reach their delay -/

variable {m : Move} {h : Head}

/-- The move gets as far as its delay: it has a timed move, what comes before that succeeds, and
every motor of it starts. -/
structure ReachesDelay (h : Head) (m : Move) (plan : Plan) : Prop where
  timed : h.timedPlan? m = some plan
  approached : (approach m h).ending = .done ()
  started : (approach m h).state.obeysAll ((approach m h).state.startOrders plan) = true

/-- **Without its commands a move is its delay**, if it gets as far as that. -/
theorem undriven_move_of_reaches (hr : h.ReachesDelay m plan) :
    undriven (linearMove m h).trace = (chunks (planMicros plan).toNat).map Event.slept := by
  have hmove : linearMove m h = (approach m >>= fun _ => runTimed? (h.timedPlan? m)) h :=
    move_eq m h
  have hquiet : undriven (approach m h).trace = [] := onlyCommands_approach m h
  have hdelay := undriven_runTimed plan (approach m h).state
  rw [if_pos hr.started] at hdelay
  rw [hmove, hr.timed, bind_of_done hr.approached, undriven_append, hquiet]
  exact hdelay

/-- A move that does not get as far as its delay only gives commands. -/
theorem undriven_move_of_not_reaches (hno : ∀ plan, ¬h.ReachesDelay m plan) :
    undriven (linearMove m h).trace = [] := by
  have hmove : linearMove m h = (approach m >>= fun _ => runTimed? (h.timedPlan? m)) h :=
    move_eq m h
  have hquiet : undriven (approach m h).trace = [] := onlyCommands_approach m h
  rw [hmove]
  cases hend : (approach m h).ending with
  | failed e =>
    rw [bind_of_failed hend]
    exact hquiet
  | crashed =>
    rw [bind_of_crashed hend]
    exact hquiet
  | done _ =>
    rw [bind_of_done hend, undriven_append, hquiet]
    cases ht : h.timedPlan? m with
    | none => rfl
    | some plan =>
      show undriven (runTimed plan (approach m h).state).trace = []
      rw [undriven_runTimed, if_neg]
      intro hstarted
      exact hno plan ⟨ht, hend, hstarted⟩

/-- The microseconds of a move that reaches its delay. -/
theorem ReachesDelay.micros (hr : h.ReachesDelay m plan) :
    ((planMicros plan).toNat : ℤ) = round (plan.duration * 1000000).value ∧
      |((planMicros plan).toNat : ℚ) - plan.duration.value * 1000000| ≤ 501 / 1000 ∧
      (planMicros plan).toNat ≤ 4294967295000 := by
  obtain ⟨hplan, hidle⟩ := plan_of_timedPlan? hr.timed
  obtain ⟨-, -, hto⟩ := Position.exists_planTo_of_plan hplan
  exact planMicros_of_planTo hto hidle

/-! ### The time that is slept -/

/-- How long the head sleeps while a trace is left, in microseconds. -/
def sleep (t : List Event) : Nat := (t.map Event.micros).sum

/-- Commands take no time. -/
@[simp] theorem sleep_undriven (t : List Event) : sleep (undriven t) = sleep t := by
  unfold sleep undriven
  induction t with
  | nil => rfl
  | cons e t ih =>
    cases he : e.isCommand with
    | true =>
      have hnone : e.micros = 0 := Event.micros_of_isCommand he
      rw [List.filter_cons_of_neg (by rw [he]; decide), ih, List.map_cons, List.sum_cons, hnone,
        Nat.zero_add]
    | false =>
      rw [List.filter_cons_of_pos (by rw [he]; rfl), List.map_cons, List.map_cons, List.sum_cons,
        List.sum_cons, ih]

/-- The single delays of a delay take all of it. -/
@[simp] theorem sleep_chunks (n : Nat) : sleep ((chunks n).map Event.slept) = n := by
  unfold sleep
  rw [List.map_map]
  exact sum_chunks n

/-- **A move sleeps no longer than a timed move may take**, from any head. -/
theorem sleep_move_le (m : Move) (h : Head) : sleep (linearMove m h).trace ≤ 4294967295000 := by
  rw [← sleep_undriven]
  by_cases hr : ∃ plan, h.ReachesDelay m plan
  · obtain ⟨plan, hplan⟩ := hr
    rw [undriven_move_of_reaches hplan, sleep_chunks]
    exact hplan.micros.2.2
  · rw [undriven_move_of_not_reaches (not_exists.mp hr)]
    exact Nat.zero_le _

end Head

/-! ### Pauses of a program -/

/-- An instruction that is read from lines comes from one of them. -/
theorem Gcode.exists_line_of_mem {read p : List Instruction} {n : Nat} {lines : List (List UInt8)}
    {i : Instruction} (h : instructionsFrom read n lines = .ok p) (hi : i ∈ p) :
    i ∈ read ∨ ∃ text, Instruction.ofLine? text = .ok (some i) := by
  induction lines generalizing read n with
  | nil =>
    obtain rfl := Except.ok.inj h
    exact Or.inl (List.mem_reverse.mp hi)
  | cons line lines ih =>
    unfold instructionsFrom at h
    split at h
    · cases h
    · exact ih h
    · next j hj =>
      rcases ih h with hmem | hline
      · rcases List.mem_cons.mp hmem with rfl | hread
        · right
          unfold instructionOfBytes? at hj
          split at hj
          · cases hj
          · next text _ =>
            refine ⟨text, ?_⟩
            cases hfound : Instruction.ofLine? text with
            | error e =>
              rw [hfound] at hj
              cases hj
            | ok found =>
              rw [hfound] at hj
              obtain rfl := Except.ok.inj hj
              rfl
        · exact Or.inl hread
      · exact Or.inr hline

/-- **The pauses of a program are bounded.** -/
theorem Instruction.toNat_pause_le {bytes : List UInt8} {p : List Instruction} {micros : UInt64}
    (h : ofBytes bytes = .ok p) (hi : .pause micros ∈ p) : micros.toNat ≤ 4294967295000 := by
  rcases Gcode.exists_line_of_mem h hi with hnone | ⟨text, htext⟩
  · cases hnone
  · obtain ⟨w, params, c, -, -, hread⟩ := Gcode.exists_of_ofLine?_eq_some htext
    obtain ⟨x, hfold, rfl⟩ := Gcode.Command.exists_of_instruction_eq_pause hread
    exact (Gcode.inRange_of_foldlM hfold).toNat_toUInt64.2

namespace Head

/-- **How long pauses and moves sleep.**  A pause is single delays that make up all of its
microseconds, and nothing else.  A move that gets as far as its delay is, but for commands, single
delays that make up its planned time: the nearest whole number to the microseconds, which misses
the exact time by little more than the half that every rounding may miss, and is no more than
`2 ^ 32 - 1` milliseconds.  Any other move does not sleep.  So neither a move nor a pause of a
program that was read sleeps for longer than that. -/
theorem sleeps_exactly :
    (∀ (micros : UInt64) (h : Head), ∃ delays : List UInt32,
      pause micros h = ⟨delays.map Event.slept, h, .done ()⟩ ∧ MakesUp delays micros.toNat) ∧
    (∀ (m : Move) (h : Head) (plan : Plan), h.ReachesDelay m plan →
      ∃ (delays : List UInt32) (micros : Nat),
        undriven (linearMove m h).trace = delays.map Event.slept ∧ MakesUp delays micros ∧
        (micros : ℤ) = round (plan.duration * 1000000).value ∧
        |(micros : ℚ) - plan.duration.value * 1000000| ≤ 501 / 1000 ∧
        micros ≤ 4294967295000) ∧
    (∀ (m : Move) (h : Head), (∀ plan, ¬h.ReachesDelay m plan) →
      undriven (linearMove m h).trace = []) ∧
    ∀ (bytes : List UInt8) (program : List Instruction), Instruction.ofBytes bytes = .ok program →
      ∀ i ∈ program, ((∃ m, i = .move m) ∨ ∃ micros, i = .pause micros) →
        ∀ h : Head, sleep (execute i h).trace ≤ 4294967295000 := by
  refine ⟨?_, ?_, ?_, ?_⟩
  · intro micros h
    exact ⟨chunks micros.toNat, rfl, makesUp_chunks _⟩
  · intro m h plan hr
    exact ⟨_, _, undriven_move_of_reaches hr, makesUp_chunks _, hr.micros⟩
  · intro m h hno
    exact undriven_move_of_not_reaches hno
  · intro bytes program hread i hi hkind h
    rcases hkind with ⟨m, rfl⟩ | ⟨micros, rfl⟩
    · exact sleep_move_le m h
    · have hbound := Instruction.toNat_pause_le hread hi
      show sleep ((chunks micros.toNat).map Event.slept) ≤ 4294967295000
      rw [sleep_chunks]
      exact hbound

/-- A pause that takes two single delays, a move of a second to (30, 40), the same move with a
motor that does not start, and a program with the longest pause. -/
theorem sleeps_exactly_two_delays_and_a_second :
    let aSecond : Move := ⟨{ x := some 30, y := some 40 }, some 50⟩
    let h := standard fun _ _ _ => none
    let stuck := standard fun j c _ =>
      if j = .axis .y ∧ c = .run then some ⟨"Stalled"⟩ else none
    (∃ delays : List UInt32, pause 4294967296 h = ⟨delays.map Event.slept, h, .done ()⟩ ∧
      delays.length = 2 ∧ (delays.map UInt32.toNat).sum = 4294967296) ∧
    (h.ReachesDelay aSecond ⟨⟨30, 40, 0, 0⟩, 1, 30, 40, 0⟩ ∧
      ∃ delays : List UInt32, undriven (linearMove aSecond h).trace = delays.map Event.slept ∧
        (delays.map UInt32.toNat).sum = 1000000) ∧
    ((∀ plan, ¬stuck.ReachesDelay aSecond plan) ∧
      undriven (linearMove aSecond stuck).trace = []) ∧
    ∃ program, Instruction.ofBytes "G4 S4294967.295".toUTF8.toList = .ok program ∧
      .pause 4294967295000 ∈ program ∧
      sleep (execute (.pause 4294967295000) h).trace ≤ 4294967295000 := by
  intro aSecond h stuck
  obtain ⟨hpauses, hmoves, hothers, hprogram⟩ := sleeps_exactly
  refine ⟨?_, ?_, ?_, ?_⟩
  · obtain ⟨delays, hpause, hdelays⟩ := hpauses 4294967296 h
    exact ⟨delays, hpause, hdelays.length, hdelays.sum⟩
  · have hreaches : h.ReachesDelay aSecond ⟨⟨30, 40, 0, 0⟩, 1, 30, 40, 0⟩ :=
      ⟨by decide +kernel, by decide +kernel, by decide +kernel⟩
    obtain ⟨delays, micros, htrace, hdelays, hmicros, -, -⟩ := hmoves aSecond h _ hreaches
    refine ⟨hreaches, delays, htrace, ?_⟩
    have hproduct : (1 : Binary64) * 1000000 = 1000000 := by decide +kernel
    have hvalue : (1000000 : Binary64).value = 1000000 :=
      (Binary64.value_ofRatio (n := 1000000) (by decide)).2
    rw [hproduct, hvalue, round_ofNat] at hmicros
    rw [hdelays.sum]
    exact_mod_cast hmicros
  · have hno : ∀ plan, ¬stuck.ReachesDelay aSecond plan := by
      intro plan hr
      have htimed : stuck.timedPlan? aSecond = some ⟨⟨30, 40, 0, 0⟩, 1, 30, 40, 0⟩ := by
        decide +kernel
      obtain rfl := Option.some.inj (hr.timed.symm.trans htimed)
      have hfails : (approach aSecond stuck).state.obeysAll
          ((approach aSecond stuck).state.startOrders ⟨⟨30, 40, 0, 0⟩, 1, 30, 40, 0⟩) = false := by
        decide +kernel
      rw [hr.started] at hfails
      cases hfails
    exact ⟨hno, hothers aSecond stuck hno⟩
  · have hread : Instruction.ofBytes "G4 S4294967.295".toUTF8.toList =
        .ok [.pause 4294967295000] := by
      decide +kernel
    exact ⟨_, hread, List.mem_singleton_self _,
      hprogram _ _ hread _ (List.mem_singleton_self _) (Or.inr ⟨_, rfl⟩) h⟩

end Head

end TachoPrint
