import InputGauge.Source

/-!
# Scripts

A source whose answers are written down beforehand and handed out as they stand. After the last of
them it would block for ever.

A sync that reports lost events is an event like any other here. Only a source that reads a device
hands out word of the loss instead (`Reading.of`).
-/

namespace InputGauge

/-- An answer of a script. -/
inductive Item where
  | event (e : Event)
  /-- Nothing to read for now. -/
  | block
  /-- The kernel dropped events. -/
  | dropped
  /-- Reading fails. -/
  | failure (cause : Cause)
  deriving DecidableEq, Repr

/-- What the reader of an item gets. -/
def Item.reading : Item → Except Fault Reading
  | event e => .ok (.event e)
  | block => .ok .wouldBlock
  | dropped => .ok .dropped
  | failure cause => .error (.cannotRead cause)

/-- The answers that a source has yet to give. -/
structure Script where
  items : List Item
  deriving DecidableEq, Repr

namespace Script

/-- Takes the next answer. -/
def next (s : Script) : Except Fault Reading × Script :=
  match s.items with
  | [] => (.ok .wouldBlock, s)
  | item :: rest => (item.reading, ⟨rest⟩)

theorem length_next {s s' : Script} {e : Event} (h : s.next = (.ok (.event e), s')) :
    s'.items.length < s.items.length := by
  unfold next at h
  split at h
  · cases h
  · next item rest hitems =>
    obtain ⟨_, rfl⟩ := Prod.mk.inj h
    simp [hitems]

instance : EventSource Script where
  next := next
  backlog s := s.items.length
  backlog_next := length_next

end Script

end InputGauge
