import InputGauge.Proofs.Watch.Answer

/-!
# Sources that answer alike

Two sources that answer alike drain alike. A `Mirror` is a view of the states of one source as
states of another, such that the next answer is the same on both sides and the view still fits
afterwards. It has to fit only the states of interest, which an answer must not leave.

One answer being the same, any number of answers are (`Mirror.answers_eq`), and so are a drain
(`Mirror.drain_eq`) and any number of drains one after the other, whether they succeed or not
(`Mirror.drains_eq`): a drain that fails midway leaves both sources at the same place.
-/

namespace InputGauge

variable {σ τ γ : Type}

namespace EventSource

variable [EventSource σ]

/-- The next so many answers of a source. -/
def answers : Nat → σ → List (Except Fault Reading)
  | 0, _ => []
  | n + 1, s => (next s).1 :: answers n (next s).2

/-- A source after so many answers. -/
def after : Nat → σ → σ
  | 0, s => s
  | n + 1, s => after n (next s).2

end EventSource

namespace Watch

variable [Gauge γ] [EventSource σ]

/-- So many drains one after the other, the failed ones included: their results, and the watch
after them. -/
def drains : Nat → Watch σ γ → List (Except Fault Unit) × Watch σ γ
  | 0, w => ([], w)
  | n + 1, w => (w.drain.1 :: (drains n w.drain.2).1, (drains n w.drain.2).2)

end Watch

/-- A view of a source as another one that answers alike, as long as a state is `Fit` for it. -/
structure Mirror [EventSource σ] [EventSource τ] (Fit : σ → Prop) (view : σ → τ) : Prop where
  next_eq {s : σ} : Fit s →
    EventSource.next (view s) = ((EventSource.next s).1, view (EventSource.next s).2)
  fit_next {s : σ} : Fit s → Fit (EventSource.next s).2

namespace Mirror

open EventSource Watch

variable [EventSource σ] [EventSource τ] {Fit : σ → Prop} {view : σ → τ}

theorem answers_eq (mirror : Mirror Fit view) {s : σ} (fit : Fit s) (n : Nat) :
    answers n (view s) = answers n s := by
  induction n generalizing s with
  | zero => rfl
  | succ n ih => rw [answers, mirror.next_eq fit, ih (mirror.fit_next fit), answers]

variable [Gauge γ]

/-- A drain on the one source is a drain on the other. -/
theorem drain_eq (mirror : Mirror Fit view) {w : Watch σ γ} (fit : Fit w.source) :
    (w.withSource (view w.source)).drain =
        (w.drain.1, w.drain.2.withSource (view w.drain.2.source)) ∧
      Fit w.drain.2.source := by
  induction backlog : EventSource.backlog w.source using Nat.strongRecOn generalizing w with
  | ind size ih =>
    have mirrored := mirror.next_eq fit
    have fit' := mirror.fit_next fit
    rcases taken : next w.source with ⟨reading, s⟩
    rw [taken] at mirrored fit'
    rw [drain_of_next taken, drain_of_next (w := w.withSource (view w.source)) mirrored,
      withSource_withSource, answer_withSource, answer_withSource]
    rcases answered : w.answer reading with ⟨_ | result, w'⟩
    · obtain ⟨e, rfl⟩ : ∃ e, reading = .ok (.event e) := by
        rcases reading with fault | e | _ | _
        · cases answered
        · exact ⟨e, rfl⟩
        · cases answered
        · cases answered
      exact ih _ (backlog ▸ backlog_next taken) (w := w'.withSource s) fit' rfl
    · exact ⟨rfl, fit'⟩

theorem drains_eq (mirror : Mirror Fit view) {w : Watch σ γ} (fit : Fit w.source) (n : Nat) :
    (w.withSource (view w.source)).drains n =
        ((w.drains n).1, (w.drains n).2.withSource (view (w.drains n).2.source)) ∧
      Fit (w.drains n).2.source := by
  induction n generalizing w with
  | zero => exact ⟨rfl, fit⟩
  | succ n ih =>
    obtain ⟨drained, fit'⟩ := mirror.drain_eq fit
    obtain ⟨later, fit''⟩ := ih fit'
    rw [drains, drained, later, drains]
    exact ⟨rfl, fit''⟩

end Mirror

end InputGauge
