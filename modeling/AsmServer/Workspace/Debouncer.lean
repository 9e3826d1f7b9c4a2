/-!
# Debouncing

A debouncer holds back one item until its delay is over. A newer item under the
same key replaces it; an item under another key lets it go first, so that nothing
waits behind a key that is no longer used. With no delay nothing is held back.

Each push starts a new generation. The owner sets a timer for the generation of the
held item, and a timer whose generation has passed takes nothing.
-/

namespace AsmServer

/-- Milliseconds to hold an item back when nothing else is asked for. -/
def defaultDelay : Nat := 250

/-- At most one held item with its key. -/
structure Debouncer (κ α : Type) where
  /-- Milliseconds to hold an item back. -/
  delay : Nat := defaultDelay
  held? : Option (κ × α) := none
  generation : Nat := 0

namespace Debouncer

variable {κ α : Type}

/-- The generation of the held item. -/
def pending? (d : Debouncer κ α) : Option Nat := d.held?.map fun _ => d.generation

/-- The held item, let go because an item under `key` follows it. -/
def displaced [DecidableEq κ] (d : Debouncer κ α) (key : κ) : List α :=
  match d.held? with
  | some (heldKey, item) => if heldKey = key then [] else [item]
  | none => []

/-- Push an item: the debouncer after it and the items to handle at once, the
oldest first. -/
def push [DecidableEq κ] (d : Debouncer κ α) (key : κ) (item : α) : Debouncer κ α × List α :=
  let next := { d with generation := d.generation + 1 }
  if d.delay = 0 then ({ next with held? := none }, d.displaced key ++ [item])
  else ({ next with held? := some (key, item) }, d.displaced key)

/-- Take the held item, whatever its generation. -/
def takePending (d : Debouncer κ α) : Debouncer κ α × Option α :=
  ({ d with held? := none }, d.held?.map (·.2))

/-- Take the held item if `generation` is current. -/
def takeDue (d : Debouncer κ α) (generation : Nat) : Debouncer κ α × Option α :=
  if generation = d.generation then d.takePending else (d, none)

/-- Drop the held item. -/
def clear (d : Debouncer κ α) : Debouncer κ α :=
  { d with held? := none, generation := d.generation + 1 }

end Debouncer

end AsmServer
