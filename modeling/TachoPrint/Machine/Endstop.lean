import TachoPrint.Machine.Device

/-!
# Endstops

An endstop is a stream of readings, of which some have been taken.

## Main definitions

* `Endstop` — the stream and the number of readings taken.
* `Endstop.scripted`, `Endstop.toggling` — two streams.
* `Endstop.pollFrom` — look again and again until the level is met or time is up.
-/

namespace TachoPrint

/-- An endstop. -/
structure Endstop where
  /-- What each reading shows. -/
  readings : Nat → Reading
  /-- How many readings were taken. -/
  reads : Nat := 0

/-- The polling of endstops while homing. -/
structure Polling where
  /-- The time between two looks, in milliseconds. -/
  interval : UInt32
  /-- How long to look, in milliseconds. -/
  timeout : UInt64
  deriving DecidableEq, Repr

namespace Polling

/-- The polling of the standard printer. -/
def standard : Polling := ⟨1, 30000⟩

/-- The delay between two looks: at least a millisecond. -/
def step (p : Polling) : UInt32 := if p.interval = 0 then 1 else p.interval

/-- Polling always waits. -/
theorem step_pos (p : Polling) : 0 < p.step.toNat := by
  unfold step
  split
  · decide
  · rename_i h
    refine Nat.pos_of_ne_zero fun h0 => h ?_
    exact UInt32.toNat_inj.mp h0

end Polling

namespace Endstop

/-- An endstop that shows the readings of a script and then stays at the last one.
Without a script it is low. -/
def scripted (script : Array Reading) : Endstop where
  readings k := script[min k (script.size - 1)]?.getD .low

/-- An endstop that changes at every look, high at the first. -/
def toggling : Endstop where
  readings k := if k % 2 = 0 then .high else .low

/-- One look. -/
def look (e : Endstop) : Reading × Endstop :=
  (e.readings e.reads, { e with reads := e.reads + 1 })

/-- How polling ends. -/
inductive PollEnd where
  /-- The level is met. -/
  | met
  /-- The endstop cannot be read. -/
  | broken
  /-- Time is up. -/
  | timedOut
  /-- The waited time leaves its 64 bits. -/
  | overflowed
  deriving DecidableEq, Repr, Inhabited

/-- Look from reading `k` on until a reading, seen inverted or not, is high.  The time
waited so far advances by one step after every look in vain.  The answer says how
polling ends and which reading was the last. -/
def pollFrom (readings : Nat → Reading) (inverted : Bool) (step timeout : Nat) (pos : 0 < step)
    (k waited : Nat) : PollEnd × Nat :=
  if readings k = .broken then (.broken, k)
  else if (readings k == .high) != inverted then (.met, k)
  else if timeout ≤ waited then (.timedOut, k)
  else if 18446744073709551616 ≤ waited + step then (.overflowed, k)
  else pollFrom readings inverted step timeout pos (k + 1) (waited + step)
termination_by timeout - waited

/-- The events of looking at the readings from `first` to `last`, with a delay
between two looks. -/
def pollEvents (readings : Nat → Reading) (step : UInt32) (first last : Nat) :
    List DeviceEvent :=
  (List.range' first (last - first)).flatMap (fun k => [.read (readings k), .waited step]) ++
    [.read (readings last)]

end Endstop

end TachoPrint
