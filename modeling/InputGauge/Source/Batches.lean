import InputGauge.Source.Script

/-!
# Batches

A source whose answers come in batches and that is always ready. A reader who has taken all of a
batch is told that it would have to wait, and the next batch begins; after the last batch the user
asks to stop. The user may also ask earlier, before the first item or while some item is taken.
-/

namespace InputGauge

/-- Batches of answers, and when the user asks to stop. -/
structure Batches where
  /-- What is left of the batch being read. -/
  current : List Item
  later : List (List Item)
  /-- How many items were taken, over all batches. -/
  taken : Nat
  /-- The item, counted from one, while which is taken the user asks to stop. -/
  stopAt : Option Nat
  /-- Whether the user has asked to stop. -/
  stopped : Bool
  deriving DecidableEq, Repr

namespace Batches

/-- Batches of which nothing was taken yet. -/
def start (batches : List (List Item)) (stopAt : Option Nat) : Batches :=
  { current := batches.headD [], later := batches.tail, taken := 0, stopAt,
    stopped := stopAt == some 0 }

/-- Takes the next answer. -/
def next (b : Batches) : Except Fault Reading × Batches :=
  match b.current with
  | item :: rest =>
    (item.reading,
      { b with current := rest, taken := b.taken + 1,
               stopped := b.stopped || b.stopAt == some (b.taken + 1) })
  | [] =>
    match b.later with
    | batch :: rest => (.ok .wouldBlock, { b with current := batch, later := rest })
    | [] => (.ok .wouldBlock, { b with stopped := true })

/-- Waits: a request to stop is seen before anything that could be read. -/
def wait (b : Batches) : Wake × Batches := (if b.stopped then .interrupt else .ready, b)

/-- The items, the batches and the request to stop that are still to come. -/
def ahead (b : Batches) : Nat :=
  b.current.length + b.later.flatten.length + b.later.length + if b.stopped then 0 else 1

theorem current_next {b b' : Batches} {e : Event} (h : b.next = (.ok (.event e), b')) :
    b'.current.length < b.current.length := by
  unfold next at h
  split at h
  · next item rest hcurrent =>
    obtain ⟨_, rfl⟩ := Prod.mk.inj h
    simp [hcurrent]
  · split at h <;> cases h

theorem ahead_next (b : Batches) :
    b.next.2.ahead ≤ b.ahead ∧ (b.stopped = false → b.next.2.ahead < b.ahead) := by
  unfold next
  split
  · next item rest hcurrent =>
    cases hstop : b.stopped <;> cases hnow : (b.stopAt == some (b.taken + 1)) <;>
      simp [ahead, hcurrent, hstop]
    omega
  · next hcurrent =>
    split
    · next batch rest hlater =>
      cases hstop : b.stopped <;> simp [ahead, hcurrent, hlater, hstop]
    · next hlater =>
      cases hstop : b.stopped <;> simp [ahead, hcurrent, hlater, hstop]

instance : EventSource Batches where
  next := next
  backlog b := b.current.length
  backlog_next := current_next

theorem ahead_drained {b b' : Batches} (h : Drained b b') :
    b'.ahead ≤ b.ahead ∧ (b.stopped = false → b'.ahead < b.ahead) := by
  induction h with
  | @block s s' h =>
    have step := ahead_next s
    rwa [show s.next = _ from h] at step
  | @event s s' s'' e h _ ih =>
    have step := ahead_next s
    rw [show s.next = _ from h] at step
    exact ⟨Nat.le_trans ih.1 step.1, fun running => Nat.lt_of_le_of_lt ih.1 (step.2 running)⟩

instance : Waitable Batches where
  wait := wait
  patience := ahead
  patience_retry h := by
    simp only [wait, Prod.mk.injEq] at h
    split at h <;> simp at h
  patience_round h drained := by
    simp only [wait, Prod.mk.injEq] at h
    obtain ⟨hready, rfl⟩ := h
    refine (ahead_drained drained).2 ?_
    split at hready
    · cases hready
    · simp_all

end Batches

end InputGauge
