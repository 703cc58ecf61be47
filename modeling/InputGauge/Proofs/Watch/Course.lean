import InputGauge.Proofs.Watch.Drain
import InputGauge.Proofs.Watch.Mirror

/-!
# The course of a run

What a source gives a run is a matter of the source alone, as long as no line is refused: which
events, how the run ends, and what the source is then. `DrainYields` says so of one drain and
`RunYields` of a run, one rule for each way to go on or to end. Every source yields something
(`exists_drainYields`, `exists_runYields`). What a watch comes to is then its gauge and its terminal
after these events, and the end (`drain_of_yields`, `run_of_yields`).
-/

namespace InputGauge

variable {σ τ γ : Type}

/-- The events that a drain takes from a source, how it ends, and the source after it. -/
inductive DrainYields [EventSource σ] : σ → List Event → Except Fault Unit → σ → Prop where
  | failed {s s' : σ} {fault} :
      EventSource.next s = (.error fault, s') → DrainYields s [] (.error fault) s'
  | blocked {s s' : σ} :
      EventSource.next s = (.ok .wouldBlock, s') → DrainYields s [] (.ok ()) s'
  | dropped {s s' : σ} :
      EventSource.next s = (.ok .dropped, s') → DrainYields s [] (.error .cannotKeepUp) s'
  | event {s s' s'' : σ} {e es ended} :
      EventSource.next s = (.ok (.event e), s') → DrainYields s' es ended s'' →
      DrainYields s (e :: es) ended s''

/-- The events that a run takes from a source, how it ends, and the source after it. -/
inductive RunYields [Waitable σ] : σ → List Event → Except Fault Unit → σ → Prop where
  | stopped {s s' : σ} : Waitable.wait s = (.interrupt, s') → RunYields s [] (.ok ()) s'
  | failed {s s' : σ} {errno : Errno} :
      Waitable.wait s = (.failed errno, s') → errno ≠ .interrupted →
      RunYields s [] (.error (.cannotWait (.system errno))) s'
  | again {s s' s'' : σ} {es ended} :
      Waitable.wait s = (.failed .interrupted, s') → RunYields s' es ended s'' →
      RunYields s es ended s''
  | cut {s s' s'' : σ} {es fault} :
      Waitable.wait s = (.ready, s') → DrainYields s' es (.error fault) s'' →
      RunYields s es (.error fault) s''
  | drained {s s₁ s₂ s₃ : σ} {es es' ended} :
      Waitable.wait s = (.ready, s₁) → DrainYields s₁ es (.ok ()) s₂ → RunYields s₂ es' ended s₃ →
      RunYields s (es ++ es') ended s₃

/-! ## Something is yielded -/

theorem exists_drainYields [EventSource σ] (s : σ) : ∃ es ended s', DrainYields s es ended s' := by
  induction backlog : EventSource.backlog s using Nat.strongRecOn generalizing s with
  | ind size ih =>
    rcases taken : EventSource.next s with ⟨fault | e | _ | _, s'⟩
    · exact ⟨_, _, _, .failed taken⟩
    · obtain ⟨es, ended, s'', rest⟩ := ih _ (backlog ▸ EventSource.backlog_next taken) s' rfl
      exact ⟨_, _, _, .event taken rest⟩
    · exact ⟨_, _, _, .blocked taken⟩
    · exact ⟨_, _, _, .dropped taken⟩

theorem drained_of_yields [EventSource σ] {s s' : σ} {es : List Event}
    (yields : DrainYields s es (.ok ()) s') : Drained s s' := by
  generalize h : (Except.ok () : Except Fault Unit) = ended at yields
  induction yields with
  | failed => cases h
  | blocked taken => exact .block taken
  | dropped => cases h
  | event taken _ ih => exact .event taken (ih h)

theorem exists_runYields [Waitable σ] (s : σ) : ∃ es ended s', RunYields s es ended s' := by
  induction patience : Waitable.patience s using Nat.strongRecOn generalizing s with
  | ind size ih =>
    rcases waited : Waitable.wait s with ⟨_ | _ | errno, s₁⟩
    · obtain ⟨es, ended, s₂, yields⟩ := exists_drainYields s₁
      rcases ended with fault | _
      · exact ⟨_, _, _, .cut waited yields⟩
      · have less := Waitable.patience_round waited (drained_of_yields yields)
        obtain ⟨es', ended, s₃, later⟩ := ih _ (patience ▸ less) s₂ rfl
        exact ⟨_, _, _, .drained waited yields later⟩
    · exact ⟨_, _, _, .stopped waited⟩
    · by_cases interrupted : errno = .interrupted
      · obtain rfl := interrupted
        obtain ⟨es, ended, s₂, later⟩ := ih _ (patience ▸ Waitable.patience_retry waited) s₁ rfl
        exact ⟨_, _, _, .again waited later⟩
      · exact ⟨_, _, _, .failed waited interrupted⟩

/-! ## What a watch comes to -/

namespace Watch

variable [Gauge γ]

theorem drain_of_yields [EventSource σ] {s s' : σ} {es : List Event} {ended : Except Fault Unit}
    (yields : DrainYields s es ended s') {w : Watch τ γ} (shows : w.Shows es) :
    (w.withSource s).drain = (ended, (w.folded es).withSource s') := by
  induction yields generalizing w with
  | failed taken => rw [drain_of_next (w := w.withSource _) taken, folded_nil]; rfl
  | blocked taken => rw [drain_of_next (w := w.withSource _) taken, folded_nil]; rfl
  | dropped taken => rw [drain_of_next (w := w.withSource _) taken, folded_nil]; rfl
  | @event s s₁ s₂ e es ended taken _ ih =>
    have first : w.Shows [e] := shows_of_append es shows
    have others : (w.folded [e]).Shows es := (shows_folded_iff first es).mpr shows
    rw [drain_of_next (w := w.withSource s) taken, withSource_withSource, answer_event,
      observe_withSource, observe_of_shows first]
    simp only
    rw [ih others, folded_folded first]
    rfl

theorem run_of_yields [Waitable σ] {s s' : σ} {es : List Event} {ended : Except Fault Unit}
    (yields : RunYields s es ended s') {w : Watch τ γ} (shows : w.Shows es) :
    (w.withSource s).run = (ended, (w.folded es).withSource s') := by
  induction yields generalizing w with
  | stopped waited => rw [run_of_wait (w := w.withSource _) waited, folded_nil]; rfl
  | failed waited other =>
    rw [run_of_wait (w := w.withSource _) waited, withSource_withSource, folded_nil, woken,
      if_neg other]
  | again waited _ ih =>
    rw [run_of_wait (w := w.withSource _) waited, withSource_withSource, woken, if_pos rfl]
    exact ih shows
  | cut waited yields =>
    rw [run_of_wait (w := w.withSource _) waited, withSource_withSource, woken,
      drain_of_yields yields shows]
  | @drained s s₁ s₂ s₃ es es' ended waited yields _ ih =>
    have early : w.Shows es := shows_of_append es' shows
    have late : (w.folded es).Shows es' := (shows_folded_iff early es').mpr shows
    rw [run_of_wait (w := w.withSource _) waited, withSource_withSource, woken,
      drain_of_yields yields early]
    simp only
    rw [ih late, folded_folded early]

end Watch

/-! ## Sources that answer alike -/

/-- A drain on the one source yields what a drain on the other does. -/
theorem Mirror.yields [EventSource σ] [EventSource τ] {Fit : σ → Prop} {view : σ → τ}
    (mirror : Mirror Fit view) {s s' : σ} {es : List Event} {ended : Except Fault Unit}
    (yields : DrainYields s es ended s') (fit : Fit s) :
    DrainYields (view s) es ended (view s') ∧ Fit s' := by
  have step {s s' : σ} {answer : Except Fault Reading} (fit : Fit s)
      (taken : EventSource.next s = (answer, s')) :
      EventSource.next (view s) = (answer, view s') ∧ Fit s' := by
    have mirrored := mirror.next_eq fit
    have fit' := mirror.fit_next fit
    rw [taken] at mirrored fit'
    exact ⟨mirrored, fit'⟩
  induction yields with
  | failed taken => exact ⟨.failed (step fit taken).1, (step fit taken).2⟩
  | blocked taken => exact ⟨.blocked (step fit taken).1, (step fit taken).2⟩
  | dropped taken => exact ⟨.dropped (step fit taken).1, (step fit taken).2⟩
  | event taken _ ih =>
    obtain ⟨mirrored, fit'⟩ := step fit taken
    obtain ⟨rest, last⟩ := ih fit'
    exact ⟨.event mirrored rest, last⟩

end InputGauge
