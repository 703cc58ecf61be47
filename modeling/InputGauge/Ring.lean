/-!
# Rings

The last values of a stream in a fixed number of slots. Values are written at a cursor that goes
round; the ring counts as filled from the first time round until it is cleared. Clearing forgets
what the slots hold but does not erase it, and the order of the slots is the order of storage,
not of arrival.
-/

namespace InputGauge

/-- `capacity` slots, a cursor, and whether the cursor has gone round since the last clear. -/
structure Ring (α : Type) (capacity : Nat) where
  slots : Vector α capacity
  cursor : Fin capacity
  filled : Bool
  deriving DecidableEq, Repr

namespace Ring

variable {α : Type} {n : Nat}

/-- The slot after a slot; after the last comes the first. -/
def after (slot : Fin n) : Fin n := ⟨(slot.val + 1) % n, Nat.mod_lt _ slot.pos⟩

/-- A ring without values; `fill` stands in the slots not yet written. -/
def empty (pos : 0 < n) (fill : α) : Ring α n :=
  { slots := Vector.replicate n fill, cursor := ⟨0, pos⟩, filled := false }

/-- Writes a value at the cursor and moves the cursor on. -/
def push (r : Ring α n) (a : α) : Ring α n :=
  { slots := r.slots.set r.cursor a
    cursor := after r.cursor
    filled := r.filled || r.cursor.val + 1 == n }

/-- Forgets all values and starts again at the first slot. -/
def clear (r : Ring α n) : Ring α n := { r with cursor := ⟨0, r.cursor.pos⟩, filled := false }

/-- How many of the slots were written since the last clear. -/
def size (r : Ring α n) : Nat := if r.filled then n else r.cursor

/-- Whether no slot was written since the last clear. -/
def isEmpty (r : Ring α n) : Bool := r.size == 0

/-- The values in neighbouring slots, in the order of storage; the last slot's neighbour is the
first. -/
def cyclicPairs (r : Ring α n) : List (α × α) :=
  (List.finRange n).map fun slot => (r.slots[slot], r.slots[after slot])

end Ring

end InputGauge
