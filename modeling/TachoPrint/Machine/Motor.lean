import TachoPrint.Machine.Action
import TachoPrint.Machine.Device

/-!
# Motors

A motor obeys commands until its fault plan says that one fails, and with which fault.  A
failing command is counted like any other but changes nothing.

## Main definitions

* `Tally` — how often each kind of command was given.
* `Motor` — encoder, speed and fault plan.
* `Motor.issue` — give one command.
* `Motor.resolution` — ask for the encoder counts of a full turn.
* `negCounts?`, `addCounts?` — arithmetic on encoder counts, which are 32 bits wide.

## Main results

* `negCounts?_eq_some_iff`, `addCounts?_eq_some_iff` — the arithmetic is that of the
  integers wherever it has an answer.
-/

namespace TachoPrint

/-- The opposite count; the lowest one has none. -/
def negCounts? (a : Int32) : Option Int32 :=
  if a = Int32.minValue then none else some (-a)

/-- The sum of two counts, if it fits. -/
def addCounts? (a b : Int32) : Option Int32 :=
  let sum := a.toInt + b.toInt
  if -2147483648 ≤ sum ∧ sum ≤ 2147483647 then some (Int32.ofInt sum) else none

/-- There is an opposite count exactly where the opposite integer fits. -/
@[grind =] theorem negCounts?_eq_some_iff {a b : Int32} :
    negCounts? a = some b ↔ b.toInt = -a.toInt := by
  simp only [negCounts?]
  have hlo := Int32.le_toInt a
  have hhi := Int32.toInt_lt a
  have hb := Int32.toInt_lt b
  have hmin : Int32.minValue.toInt = -2147483648 := by decide
  split
  · next h =>
    subst h
    simp only [reduceCtorEq, false_iff]
    omega
  · next h =>
    have hne : a.toInt ≠ -2147483648 := fun h' => h (Int32.toInt_inj.mp (h'.trans hmin.symm))
    have hneg : (-a).toInt = -a.toInt := by
      rw [Int32.toInt_neg, Int.bmod_eq_of_le (by omega) (by omega)]
    rw [← hneg, Int32.toInt_inj, Option.some.injEq, eq_comm]

/-- There is a sum of counts exactly where the sum of the integers fits. -/
@[grind =] theorem addCounts?_eq_some_iff {a b c : Int32} :
    addCounts? a b = some c ↔ c.toInt = a.toInt + b.toInt := by
  simp only [addCounts?]
  have hlo := Int32.le_toInt c
  have hhi := Int32.toInt_lt c
  constructor
  · intro h
    split at h
    · next hr =>
      obtain rfl := Option.some.inj h
      exact Int32.toInt_ofInt_of_le hr.1 (by omega)
    · cases h
  · intro h
    rw [if_pos (by omega), ← h, Int32.ofInt_toInt]

/-- How often each kind of command was given to a motor. -/
structure Tally where
  resolution : Nat := 0
  speed : Nat := 0
  run : Nat := 0
  turn : Nat := 0
  stop : Nat := 0
  stopAction : Nat := 0
  polarity : Nat := 0
  reset : Nat := 0
  await : Nat := 0
  deriving DecidableEq, Repr, Inhabited

namespace Tally

/-- How often a kind of command was given. -/
def count (t : Tally) : MotorCall → Nat
  | .resolution => t.resolution
  | .speed => t.speed
  | .run => t.run
  | .turn => t.turn
  | .stop => t.stop
  | .stopAction => t.stopAction
  | .polarity => t.polarity
  | .reset => t.reset
  | .await => t.await

/-- One more command of a kind. -/
def bump (t : Tally) : MotorCall → Tally
  | .resolution => { t with resolution := t.resolution + 1 }
  | .speed => { t with speed := t.speed + 1 }
  | .run => { t with run := t.run + 1 }
  | .turn => { t with turn := t.turn + 1 }
  | .stop => { t with stop := t.stop + 1 }
  | .stopAction => { t with stopAction := t.stopAction + 1 }
  | .polarity => { t with polarity := t.polarity + 1 }
  | .reset => { t with reset := t.reset + 1 }
  | .await => { t with await := t.await + 1 }

end Tally

/-- A motor. -/
structure Motor where
  /-- Encoder counts of a full turn. -/
  countsPerTurn : Int32
  /-- What the driver reports, if a command fails: by the kind of the command, and the
  how-manieth of that kind it is. -/
  faults : MotorCall → Nat → Option MotorFault := fun _ _ => none
  /-- The commands given so far. -/
  tally : Tally := {}
  /-- The speed of the next run in counts per second. -/
  speed : Int32 := 0
  /-- The encoder. -/
  encoder : Int32 := 0
  /-- Running until stopped. -/
  running : Bool := false

namespace Motor

/-- What the driver reports to the next command of a kind, if that fails. -/
def fault? (m : Motor) (call : MotorCall) : Option MotorFault :=
  m.faults call (m.tally.count call + 1)

/-- The next command of a kind fails. -/
def fails (m : Motor) (call : MotorCall) : Bool := (m.fault? call).isSome

/-- The next command of a kind is obeyed where the driver has nothing to report. -/
@[simp] theorem fails_eq_false_iff {m : Motor} {call : MotorCall} :
    m.fails call = false ↔ m.fault? call = none := by
  rw [fails, Option.isSome_eq_false_iff, Option.isNone_iff_eq_none]

/-- What a command that does not fail changes.  There is no answer where the encoder
would leave its range. -/
def obey? (m : Motor) : MotorCommand → Option Motor
  | .speed counts => some { m with speed := counts }
  | .run => some { m with running := true }
  | .turn counts => (addCounts? m.encoder counts).map fun e => { m with encoder := e }
  | .stop => some { m with running := false }
  | .reset => some { m with speed := 0, encoder := 0, running := false }
  | _ => some m

/-- Give one command. -/
def issue (c : MotorCommand) : Action DeviceEvent Motor DeviceError Unit := fun m =>
  let counted := { m with tally := m.tally.bump c.call }
  match m.fault? c.call with
  | some fault => ⟨[.refused c fault], counted, .failed (.motor fault)⟩
  | none =>
      match counted.obey? c with
      | some m' => ⟨[.obeyed c], m', .done ()⟩
      | none => ⟨[], counted, .crashed⟩

/-- Ask for the encoder counts of a full turn. -/
def resolution : Action DeviceEvent Motor DeviceError Int32 := do
  issue .resolution
  return (← Action.get).countsPerTurn

end Motor

end TachoPrint
