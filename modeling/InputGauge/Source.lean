import InputGauge.Event
import InputGauge.Fault

/-!
# Sources of events

A source answers each request with an event, or says that there is nothing to read for now, or
that events were lost. A source has a backlog, a bound on the events that it can hand out before
it says anything else; it makes reading until the source would block a process that ends.

A source that can be waited on says why the wait ended. Waiting is patient but not endless: each
interrupted wait, and each wait after which everything was read, uses some patience up.
-/

namespace InputGauge

/-- The answer to a request for an event. -/
inductive Reading where
  | event (e : Event)
  /-- Nothing to read until the source is ready again. -/
  | wouldBlock
  /-- The kernel dropped events. -/
  | dropped
  deriving DecidableEq, Repr

/-- An event off a device as a reading: the one that reports lost events is never handed out as an
event. -/
def Reading.of (e : Event) : Reading := if e.isDropped then .dropped else .event e

/-- A source of events. -/
class EventSource (σ : Type) where
  /-- Takes the next answer from the source. -/
  next : σ → Except Fault Reading × σ
  /-- A bound on the events before the next answer that is not an event. -/
  backlog : σ → Nat
  backlog_next {s s' : σ} {e : Event} :
    next s = (.ok (.event e), s') → backlog s' < backlog s

/-- Reading the first source until it would block leaves the second. -/
inductive Drained {σ : Type} [EventSource σ] : σ → σ → Prop
  | block {s s' : σ} : EventSource.next s = (.ok .wouldBlock, s') → Drained s s'
  | event {s s' s'' : σ} {e : Event} :
      EventSource.next s = (.ok (.event e), s') → Drained s' s'' → Drained s s''

/-- Why a wait ended. -/
inductive Wake where
  /-- There may be something to read. -/
  | ready
  /-- The user asked to stop. -/
  | interrupt
  /-- The wait itself failed. -/
  | failed (errno : Errno)
  deriving DecidableEq, Repr

/-- A source that can be waited on. -/
class Waitable (σ : Type) extends EventSource σ where
  /-- Waits until there is something to do. -/
  wait : σ → Wake × σ
  /-- A bound on the waits to come. -/
  patience : σ → Nat
  patience_retry {s s' : σ} : wait s = (.failed .interrupted, s') → patience s' < patience s
  patience_round {s s' s'' : σ} :
    wait s = (.ready, s') → Drained s' s'' → patience s'' < patience s

end InputGauge
