import InputGauge.Gauge
import InputGauge.Source
import InputGauge.Terminal

/-!
# Watching a device

A source, a gauge and a terminal together: events are taken from the source, folded into the
gauge, and shown on the terminal. `drain` reads until the source would block; `run` waits and
drains in turn until the user asks to stop.

A request to stop is noticed between drains and never cuts one short. Nothing is undone on a
failure: what was folded and shown up to then stays.
-/

namespace InputGauge

/-- A source being watched with a gauge, and the terminal that shows it. -/
structure Watch (σ γ : Type) where
  source : σ
  gauge : γ
  terminal : Terminal

namespace Watch

variable {σ γ : Type} [Gauge γ]

/-- Folds an event into the gauge, and shows the status line if the event calls for one. -/
def observe (w : Watch σ γ) (e : Event) : Except Fault Unit × Watch σ γ :=
  match Gauge.observe w.gauge e with
  | (gauge, none) => (.ok (), { w with gauge })
  | (gauge, some line) =>
    match w.terminal.redraw line with
    | (.ok (), terminal) => (.ok (), { w with gauge, terminal })
    | (.error errno, terminal) =>
      (.error (.cannotWrite (.system errno)), { w with gauge, terminal })

theorem source_observe (w : Watch σ γ) (e : Event) : (w.observe e).2.source = w.source := by
  unfold observe
  split
  · rfl
  · split <;> rfl

/-- Takes events until the source would block. Lost events are fatal: what they would have said
cannot be made up for. -/
def drain [EventSource σ] (w : Watch σ γ) : Except Fault Unit × Watch σ γ :=
  match _taken : EventSource.next w.source with
  | (.error fault, source) => (.error fault, { w with source })
  | (.ok .wouldBlock, source) => (.ok (), { w with source })
  | (.ok .dropped, source) => (.error .cannotKeepUp, { w with source })
  | (.ok (.event e), source) =>
    match _folded : { w with source }.observe e with
    | (.error fault, w') => (.error fault, w')
    | (.ok (), w') => w'.drain
termination_by EventSource.backlog w.source
decreasing_by
  have same : w'.source = source := by
    have := source_observe { w with source } e
    rwa [_folded] at this
  rw [same]
  exact EventSource.backlog_next _taken

/-- A drain that succeeds has read its source until it would block. -/
theorem drained_of_drain [EventSource σ] {w w' : Watch σ γ} (h : w.drain = (.ok (), w')) :
    Drained w.source w'.source := by
  fun_induction drain w with
  | case1 w fault source hnext => cases h
  | case2 w source hnext => cases h; exact .block hnext
  | case3 w source hnext => cases h
  | case4 w e source hnext fault w₁ hobserve => cases h
  | case5 w e source hnext w₁ hobserve ih =>
    have same : w₁.source = source := by
      have := source_observe { w with source } e
      rwa [hobserve] at this
    exact .event hnext (same ▸ ih h)

/-- Waits and drains in turn until the user asks to stop. An interrupted wait is waited again. -/
def run [Waitable σ] (w : Watch σ γ) : Except Fault Unit × Watch σ γ :=
  match _waited : Waitable.wait w.source with
  | (.interrupt, source) => (.ok (), { w with source })
  | (.failed errno, source) =>
    if errno = .interrupted then { w with source }.run
    else (.error (.cannotWait (.system errno)), { w with source })
  | (.ready, source) =>
    match _drained : { w with source }.drain with
    | (.error fault, w') => (.error fault, w')
    | (.ok (), w') => w'.run
termination_by Waitable.patience w.source
decreasing_by
  · exact Waitable.patience_retry (by simp_all)
  · exact Waitable.patience_round _waited (drained_of_drain _drained)

end Watch

end InputGauge
