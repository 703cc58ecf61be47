import InputGauge.Motion.Basic
import Mathlib.Algebra.Ring.Int.Defs
import Mathlib.Data.List.Induction

/-!
# Histories of events

What a list of events, oldest first, says about a measurement of motion, without a gauge: when its
syncs were, which of them end a pause, and how far the device travelled.

A sync ends a pause when more than three seconds lie between the sync before it and itself, counted
in whole numbers that do not overflow. `sincePause` is what came after the last such sync, and all
of the history if there is none; `sincePause_split` says that it is just that. The lemmas on a
history with one more event at its end are what an induction over a run needs.
-/

namespace InputGauge.History

/-- The times of the syncs among some events. -/
def syncTimes (events : List Event) : List UInt64 :=
  (events.filter fun e => e.kind == .sync).map Event.time

/-- The time of the last sync. -/
def lastSync (events : List Event) : Option UInt64 := (syncTimes events).getLast?

/-- Whether an event is a sync that ends a pause, when other events came before it. -/
def EndsPause (before : List Event) (e : Event) : Prop :=
  e.kind = .sync ∧ ∃ last ∈ lastSync before, last.toNat + longestPause < e.time.toNat

instance (before : List Event) (e : Event) : Decidable (EndsPause before e) :=
  @instDecidableAnd _ _ _ (Option.decidableExistsMem _)

/-- The events, newest first, back to a sync that ends a pause. -/
def backToPause : List Event → List Event
  | [] => []
  | e :: earlier => if EndsPause earlier.reverse e then [] else e :: backToPause earlier

/-- The events after the last sync that ends a pause. -/
def sincePause (events : List Event) : List Event := (backToPause events.reverse).reverse

/-- Whether an event is horizontal motion. -/
def IsMotion (e : Event) : Prop := e.kind = .relative ∧ e.code = Event.motionX

instance (e : Event) : Decidable (IsMotion e) := inferInstanceAs (Decidable (_ ∧ _))

/-- The sum of the horizontal motion, with its sign. -/
def travel (events : List Event) : Int :=
  ((events.filter fun e => IsMotion e).map fun e => e.value.toInt).sum

/-- `since` is what followed the last sync that ends a pause. -/
structure CutAtPause (before since : List Event) : Prop where
  /-- The cut is at the start, or right after a sync that ends a pause. -/
  cut : before = [] ∨ ∃ earlier e, before = earlier ++ [e] ∧ EndsPause earlier e
  /-- No pause ends after the cut. -/
  no_later : ∀ earlier e later, since = earlier ++ e :: later → ¬ EndsPause (before ++ earlier) e

/-! ## One more event -/

theorem syncTimes_concat (events : List Event) (e : Event) :
    syncTimes (events ++ [e]) =
      if e.kind = .sync then syncTimes events ++ [e.time] else syncTimes events := by
  unfold syncTimes
  by_cases sync : e.kind = .sync <;> simp [sync]

theorem lastSync_concat (events : List Event) (e : Event) :
    lastSync (events ++ [e]) = if e.kind = .sync then some e.time else lastSync events := by
  unfold lastSync
  rw [syncTimes_concat]
  split
  · exact List.getLast?_concat
  · rfl

theorem travel_concat (events : List Event) (e : Event) :
    travel (events ++ [e]) = travel events + if IsMotion e then e.value.toInt else 0 := by
  unfold travel
  by_cases motion : IsMotion e <;> simp [motion]

theorem sincePause_concat (events : List Event) (e : Event) :
    sincePause (events ++ [e]) = if EndsPause events e then [] else sincePause events ++ [e] := by
  unfold sincePause
  rw [List.reverse_concat, backToPause, List.reverse_reverse]
  split
  · rfl
  · exact List.reverse_cons

theorem sincePause_concat_of_kind (events : List Event) {e : Event} (h : e.kind ≠ .sync) :
    sincePause (events ++ [e]) = sincePause events ++ [e] := by
  rw [sincePause_concat, if_neg fun ends : EndsPause events e => h ends.1]

/-! ## The cut -/

/-- `sincePause` cuts a history after the last sync that ends a pause. -/
theorem sincePause_split (events : List Event) :
    ∃ before, before ++ sincePause events = events ∧ CutAtPause before (sincePause events) := by
  induction events using List.reverseRecOn with
  | nil => exact ⟨[], rfl, .inl rfl, by simp [sincePause, backToPause]⟩
  | append_singleton events e ih =>
    rw [sincePause_concat]
    split
    · next ends => exact ⟨events ++ [e], by simp, .inr ⟨events, e, rfl, ends⟩, by simp⟩
    · next goesOn =>
      obtain ⟨before, split, cut, no_later⟩ := ih
      refine ⟨before, by rw [← List.append_assoc, split], cut, fun earlier e' later h => ?_⟩
      -- The new event is the last one, so `e'` is it or was there before.
      rcases List.eq_nil_or_concat later with rfl | ⟨later, last, rfl⟩
      · obtain ⟨rfl, same⟩ := List.append_inj' h rfl
        rw [split, ← List.singleton_inj.mp same]
        exact goesOn
      · rw [List.concat_eq_append, ← List.cons_append, ← List.append_assoc] at h
        exact no_later earlier e' later (List.append_inj' h rfl).1

end InputGauge.History
