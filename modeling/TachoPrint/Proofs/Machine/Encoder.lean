import TachoPrint.Gcode.Program
import TachoPrint.Proofs.Machine.Endings
import TachoPrint.Proofs.Machine.Simulation

/-!
# Encoders

An encoder counts what the motor turned by, so it can be told from the events alone.  It is
32 bits wide, and a turn that leads out of that range has no answer.  On simulated hardware
nothing else goes wrong at a motor, and apart from homing only a change of height turns one.
So whether a dry run crashes is decided by the turns of the vertical motor.

## Main definitions

* `encoderAfter` — an encoder after some events, told from the events alone.
* `FitsEncoder` — the integers that an encoder can show.

## Main results

* `Head.steady_counted` — the events tell where the encoders are.
* `Head.dryRun_crashed_iff` — **a dry run crashes exactly where a change of height leads out
  of the range of the vertical encoder.**
-/

namespace TachoPrint

open TachoPrint.Action

/-! ### Encoders, told from the events -/

/-- An encoder after an event. -/
def DeviceEvent.leavesEncoder (encoder : Int) : DeviceEvent → Int
  | .obeyed (.turn counts) => encoder + counts.toInt
  | .obeyed .reset => 0
  | _ => encoder

/-- An encoder after some events. -/
def encoderAfter (encoder : Int) (t : List DeviceEvent) : Int :=
  t.foldl DeviceEvent.leavesEncoder encoder

@[simp] theorem encoderAfter_cons (n : Int) (e : DeviceEvent) (t : List DeviceEvent) :
    encoderAfter n (e :: t) = encoderAfter (e.leavesEncoder n) t := rfl

@[simp] theorem encoderAfter_append (n : Int) (t u : List DeviceEvent) :
    encoderAfter n (t ++ u) = encoderAfter (encoderAfter n t) u := List.foldl_append

/-- Events without a turn and without a reset leave an encoder where it is. -/
theorem encoderAfter_eq_self {t : List DeviceEvent}
    (h : ∀ c ∈ commandsOf t, c.call ≠ .turn ∧ c.call ≠ .reset) (n : Int) :
    encoderAfter n t = n := by
  induction t with
  | nil => rfl
  | cons e t ih =>
    rw [encoderAfter_cons]
    cases e with
    | obeyed c =>
      have hcons : commandsOf (.obeyed c :: t) = c :: commandsOf t := rfl
      rw [hcons] at h
      obtain ⟨hturn, hreset⟩ := h c List.mem_cons_self
      have hstay : (DeviceEvent.obeyed c).leavesEncoder n = n := by
        cases c with
        | turn counts => exact absurd rfl hturn
        | reset => exact absurd rfl hreset
        | _ => rfl
      rw [hstay]
      exact ih fun d hd => h d (List.mem_cons_of_mem c hd)
    | refused c fault =>
      have hcons : commandsOf (.refused c fault :: t) = c :: commandsOf t := rfl
      rw [hcons] at h
      exact ih fun d hd => h d (List.mem_cons_of_mem c hd)
    | read reading => exact ih h
    | waited millis => exact ih h

/-- What a command that is obeyed does to the encoder is what the event says. -/
theorem Motor.encoder_of_obey? {c : MotorCommand} {m m' : Motor} (h : m.obey? c = some m') :
    m'.encoder.toInt = (DeviceEvent.obeyed c).leavesEncoder m.encoder.toInt := by
  cases c with
  | turn n =>
    rw [obey?_turn, Option.map_eq_some_iff] at h
    obtain ⟨e, he, rfl⟩ := h
    exact addCounts?_eq_some_iff.mp he
  | _ =>
    obtain rfl := Option.some.inj h
    rfl

theorem Motor.encoder_issue (c : MotorCommand) (m : Motor) :
    (issue c m).state.encoder.toInt = encoderAfter m.encoder.toInt (issue c m).trace := by
  unfold issue
  dsimp only
  split
  · rfl
  · split
    · next m' h =>
      have hencoder := encoder_of_obey? h
      exact hencoder
    · rfl

/-- A command that the motor obeys does to the encoder what it says. -/
theorem Motor.encoder_of_issue_done {c : MotorCommand} {m : Motor}
    (h : (issue c m).ending = .done ()) :
    (issue c m).state.encoder.toInt = (DeviceEvent.obeyed c).leavesEncoder m.encoder.toInt := by
  rw [encoder_issue, trace_issue_of_done h]
  rfl

/-- The events at an axis tell where its encoder is. -/
def Axis.Counted (a : Axis) (t : List DeviceEvent) (a' : Axis) : Prop :=
  a'.motor.encoder.toInt = encoderAfter a.motor.encoder.toInt t

theorem Axis.steady_counted : Axis.Steady (fun _ => True) Axis.Counted where
  chains :=
    { nil := fun _ => rfl
      append := fun h h' => by
        unfold Counted at h h' ⊢
        rw [h', h, encoderAfter_append] }
  command c a := by
    rw [command_apply]
    exact Motor.encoder_issue c a.motor
  poll inverted polling a := by
    have hsilent := List.prefix_nil.mp (follows_awaitEndstop inverted polling a).1
    unfold Counted
    rw [encoderAfter_eq_self (by simp [hsilent])]
    unfold awaitEndstop
    split <;> rfl
  setPosition p _ a := rfl

/-- Without a turn and without a reset the encoder stays. -/
theorem Axis.Counted.encoder_eq {a a' : Axis} {t : List DeviceEvent} (h : Counted a t a')
    (ht : ∀ c ∈ commandsOf t, c.call ≠ .turn ∧ c.call ≠ .reset) :
    a'.motor.encoder = a.motor.encoder := by
  unfold Counted at h
  rwa [encoderAfter_eq_self ht, Int32.toInt_inj] at h

/-! ### The range of an encoder -/

/-- The integers that an encoder can show. -/
def FitsEncoder (n : Int) : Prop := -2147483648 ≤ n ∧ n ≤ 2147483647

instance (n : Int) : Decidable (FitsEncoder n) := inferInstanceAs (Decidable (_ ∧ _))

@[grind =] theorem addCounts?_isSome_iff {a b : Int32} :
    (addCounts? a b).isSome ↔ FitsEncoder (a.toInt + b.toInt) := by
  unfold addCounts? FitsEncoder
  dsimp only
  split
  · next h => simp [h]
  · next h => simp [h]

/-- There is room for a turn if the encoder can show the place where it leads. -/
@[grind =] theorem Axis.hasRoom_iff {a : Axis} {n : Int32} :
    a.HasRoom n ↔ FitsEncoder (a.motor.encoder.toInt + n.toInt) := by
  unfold HasRoom
  rw [addCounts?_isSome_iff]
  apply or_iff_right_of_imp
  intro h
  -- no turn leads nowhere, and where the encoder is it can show
  subst h
  have hlow := Int32.le_toInt a.motor.encoder
  have hhigh := Int32.toInt_lt a.motor.encoder
  have hzero : (0 : Int32).toInt = 0 := rfl
  unfold FitsEncoder
  omega

/-! ### Dry runs -/

namespace Head

variable {limits : HeadLimits} {h h' : Head} {t : List Event}

/-- The events at each axis tell where its encoder is. -/
theorem steady_counted :
    Steady (fun _ _ => True) (fun _ => Axis.Counted) (fun _ _ _ => True) where
  axis _ := Axis.steady_counted
  extruder :=
    { chains := { nil := fun _ => trivial, append := fun _ _ => trivial }
      command := fun _ _ => trivial }

theorem counted_runProgram (p : List Instruction) :
    Keeps (Jointwise (fun _ => Axis.Counted) fun _ _ _ => True) (runProgram p) :=
  keeps_runProgram steady_counted.chains (fun i _ => keeps_execute steady_counted i)
    steady_counted.stopAll

/-- The encoders after instructions that succeed one after the other. -/
theorem Succeeds.encoder {p : List Instruction} (hp : Succeeds h p t h') (n : AxisName) :
    (h'.axis n).motor.encoder.toInt =
      encoderAfter (h.axis n).motor.encoder.toInt (eventsAt (.axis n) t) := by
  have hcounted := (counted_runProgram p h).axis n
  rw [hp.runProgram_eq] at hcounted
  exact hcounted

/-- A program that homes nothing. -/
def NeverHomes (p : List Instruction) : Prop := ∀ i ∈ p, i.homes = false

instance (p : List Instruction) : Decidable (NeverHomes p) :=
  inferInstanceAs (Decidable (∀ i ∈ p, _))

/-- On simulated hardware a program that homes nothing crashes exactly where a change of
height is too much for the encoder. -/
theorem Dry.runProgram_crashed_iff (hd : h.Dry limits) (hlimit : limits.travel.isPositive)
    {p : List Instruction} (hp : NeverHomes p) :
    (runProgram p h).ending = .crashed ↔
      ∃ before m rest t h' n, p = before ++ .move m :: rest ∧ Succeeds h before t h' ∧
        h'.heightTurn m = some n ∧ ¬h'.z.HasRoom n := by
  rw [Head.runProgram_crashed_iff]
  constructor
  · rintro ⟨before, i, rest, t, h', rfl, hb, hcrash⟩
    have hd' := hb.dry hd
    rw [execute_crashed_iff hd'.obeys hd'.speed (hd'.limits_eq ▸ hlimit) (hp i (by simp))] at hcrash
    obtain ⟨m, n, rfl, hturn, hroom⟩ := hcrash
    exact ⟨before, m, rest, t, h', n, rfl, hb, hturn, hroom⟩
  · rintro ⟨before, m, rest, t, h', n, rfl, hb, hturn, hroom⟩
    have hd' := hb.dry hd
    refine ⟨before, .move m, rest, t, h', rfl, hb, ?_⟩
    rw [execute_crashed_iff hd'.obeys hd'.speed (hd'.limits_eq ▸ hlimit) rfl]
    exact ⟨m, n, rfl, hturn, hroom⟩

/-- **When a dry run crashes.**  The head of a usable setup can be put together on simulated
hardware, and a program that homes nothing crashes there exactly if one of its moves, all
before it having succeeded, changes the height by counts that lead out of the range of the
vertical encoder: the sum of all counts that the vertical motor turned by so far, and of
these, does not fit in 32 bits. -/
theorem dryRun_crashed_iff (setup : PrinterSetup) (hsetup : setup.fault? = none) :
    ∃ h, (assemble setup simulated ()).ending = .done h ∧
      ∀ p, NeverHomes p → ((runProgram p h).ending = .crashed ↔
        ∃ before m rest t h' n, p = before ++ .move m :: rest ∧ Succeeds h before t h' ∧
          h'.heightTurn m = some n ∧
            ¬FitsEncoder (encoderAfter 0 (eventsAt (.axis .z) t) + n.toInt)) := by
  have hd := dry_dry hsetup
  have hlimit : setup.limits.travel.isPositive := (PrinterSetup.eq_none_of_fault? hsetup).2.travel
  refine ⟨dry setup, assemble_simulated setup, ?_⟩
  intro p hp
  -- the encoder starts at zero, and from there on the events tell where it is
  have hroom : ∀ {before : List Instruction} {t : List Event} {h' : Head} {n : Int32},
      Succeeds (dry setup) before t h' →
        (h'.z.HasRoom n ↔ FitsEncoder (encoderAfter 0 (eventsAt (.axis .z) t) + n.toInt)) := by
    intro before t h' n hb
    have hencoder : h'.z.motor.encoder.toInt = encoderAfter 0 (eventsAt (.axis .z) t) :=
      hb.encoder .z
    rw [Axis.hasRoom_iff, hencoder]
  rw [hd.runProgram_crashed_iff hlimit hp]
  constructor
  · rintro ⟨before, m, rest, t, h', n, hsplit, hb, hturn, hfull⟩
    exact ⟨before, m, rest, t, h', n, hsplit, hb, hturn, fun hfits => hfull ((hroom hb).mpr hfits)⟩
  · rintro ⟨before, m, rest, t, h', n, hsplit, hb, hturn, hfull⟩
    exact ⟨before, m, rest, t, h', n, hsplit, hb, hturn, fun hfits => hfull ((hroom hb).mp hfits)⟩

/-- The standard printer with a vertical axis of which a millimetre takes a thousand million
degrees. -/
def steep : PrinterSetup :=
  { PrinterSetup.standard with z := { PrinterSetup.standard.z with degreesPerMm := 1000000000 } }

/-- Lifting the head twice by ten millimetres. -/
def liftTwice : List Instruction :=
  [.move { goal := { z := some 10 } }, .move { goal := { z := some 20 } }]

/-- The second lift leads the encoder out of its range. -/
theorem dryRun_crashed_iff_steep :
    steep.fault? = none ∧ NeverHomes liftTwice ∧ ∃ h,
      (assemble steep simulated ()).ending = .done h ∧ (runProgram liftTwice h).ending = .crashed ∧
        ∃ before m rest t h' n, liftTwice = before ++ .move m :: rest ∧ Succeeds h before t h' ∧
          h'.heightTurn m = some n ∧
            ¬FitsEncoder (encoderAfter 0 (eventsAt (.axis .z) t) + n.toInt) := by
  have hsetup : steep.fault? = none := by decide +kernel
  have hnever : NeverHomes liftTwice := by decide +kernel
  obtain ⟨h, hassemble, hiff⟩ := dryRun_crashed_iff steep hsetup
  have hcrash : (runProgram liftTwice h).ending = .crashed := by
    rw [assemble_simulated] at hassemble
    obtain rfl := Outcome.done.inj hassemble
    decide +kernel
  exact ⟨hsetup, hnever, h, hassemble, hcrash, (hiff liftTwice hnever).mp hcrash⟩

/-- A dry run of a program without homing may crash: the text `G1 Z10`, `G1 Z20` parses and
crashes. -/
theorem not_dryRun_never_crashed :
    ¬∀ (setup : PrinterSetup) (text : List UInt8) (p : List Instruction) (h : Head),
      setup.fault? = none → Instruction.ofBytes text = .ok p → NeverHomes p →
        (assemble setup simulated ()).ending = .done h → (runProgram p h).ending ≠ .crashed := by
  intro hnever
  let text := "G1 Z10\nG1 Z20".toUTF8.toList
  have hparse : Instruction.ofBytes text = .ok liftTwice := by
    have hread : (Instruction.ofBytes text).toOption = some liftTwice := by decide +kernel
    cases hr : Instruction.ofBytes text with
    | error e =>
      rw [hr] at hread
      cases hread
    | ok p =>
      rw [hr] at hread
      obtain rfl := Option.some.inj hread
      rfl
  exact hnever steep text liftTwice (dry steep) (by decide +kernel) hparse (by decide +kernel)
    (assemble_simulated steep) (by decide +kernel)

end Head

end TachoPrint
