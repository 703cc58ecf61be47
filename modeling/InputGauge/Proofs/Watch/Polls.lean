import InputGauge.Extent.Basic
import InputGauge.Proofs.Watch.Course
import InputGauge.Session.Attended
import Mathlib.Data.List.TakeDrop

/-!
# A run, poll by poll

A wait polls two things at once, the device and the request of the user to stop. A `Poll` is what
such a call leaves: its error, if it failed, and what was found out about the two. `Polled` is any
source of events together with the polls of all waits on it, so that every way in which the waits
of a run can go is a list of polls.

A poll that is interrupted does not count, wherever it comes (`run_of_polls`). A poll that fails
for another reason ends the run with everything as the drains before it left it, whatever it found
out about the device and the user.
-/

namespace InputGauge

/-- What a poll leaves. If it failed, nothing is known but its error: what is noted about the user
and the device is then left over from before, or not looked at. -/
structure Poll where
  /-- The error with which the poll failed, if it did. -/
  error : Option Errno
  /-- Whether the user has asked to stop. -/
  stop : Bool
  /-- Whether the device has something to read. -/
  ready : Bool
  deriving DecidableEq, Repr

namespace Poll

/-- Why a wait ends that comes to such a poll: the error comes first, then the user, then the
device. -/
def wake (p : Poll) : Wake :=
  match p.error with
  | some errno => .failed errno
  | none => if p.stop then .interrupt else .ready

/-- Whether a poll is to be made again. -/
def isInterrupted (p : Poll) : Bool := p.error == some .interrupted

end Poll

/-- A source of events, and the polls of the waits on it. After the last of them the user asks to
stop. -/
structure Polled (σ : Type) where
  source : σ
  polls : List Poll

namespace Polled

variable {σ : Type} [EventSource σ]

/-- Takes the next answer of the source. -/
def next (u : Polled σ) : Except Fault Reading × Polled σ :=
  ((EventSource.next u.source).1, { u with source := (EventSource.next u.source).2 })

/-- Waits: the next poll says why the wait ends. -/
def wait (u : Polled σ) : Wake × Polled σ :=
  match u.polls with
  | [] => (.interrupt, u)
  | p :: rest => (p.wake, { u with polls := rest })

instance : EventSource (Polled σ) where
  next := next
  backlog u := EventSource.backlog u.source
  backlog_next {u u' e} h := by
    obtain ⟨answer, rfl⟩ := Prod.mk.inj h
    exact EventSource.backlog_next (Prod.ext answer rfl)

theorem polls_drained {u u' : Polled σ} (drained : Drained u u') : u'.polls = u.polls := by
  induction drained with
  | block taken =>
    obtain ⟨-, rfl⟩ := Prod.mk.inj taken
    rfl
  | event taken _ ih =>
    obtain ⟨-, rfl⟩ := Prod.mk.inj taken
    exact ih

omit [EventSource σ] in
theorem length_wait {u u' : Polled σ} {wake : Wake} (waited : u.wait = (wake, u'))
    (other : wake ≠ .interrupt) : u'.polls.length < u.polls.length := by
  unfold wait at waited
  split at waited
  · obtain ⟨rfl, -⟩ := Prod.mk.inj waited
    exact absurd rfl other
  · next p rest polls =>
    obtain ⟨-, rfl⟩ := Prod.mk.inj waited
    rw [polls]
    exact Nat.lt_succ_self _

instance : Waitable (Polled σ) where
  wait := wait
  patience u := u.polls.length
  patience_retry waited := length_wait waited nofun
  patience_round waited drained := polls_drained drained ▸ length_wait waited nofun

end Polled

namespace Watch

open EventSource

variable {σ γ : Type} [EventSource σ] [Gauge γ]

/-- A watch whose waits come to some polls. -/
def polled (w : Watch σ γ) (polls : List Poll) : Watch (Polled σ) γ :=
  w.withSource { source := w.source, polls }

/-- What a run comes to whose waits come to some polls, but for the polls that are left. -/
def outcome (w : Watch σ γ) (polls : List Poll) : Except Fault Unit × Watch σ γ :=
  let ran := (w.polled polls).run
  (ran.1, ran.2.withSource ran.2.source.source)

/-! ## One poll -/

theorem drain_polled (w : Watch σ γ) (polls : List Poll) :
    (w.polled polls).drain = (w.drain.1, w.drain.2.polled polls) := by
  have mirror : Mirror (fun _ : σ => True) fun source => ({ source, polls } : Polled σ) :=
    ⟨fun _ => rfl, fun _ => trivial⟩
  exact (mirror.drain_eq trivial).1

variable {p : Poll} {polls : List Poll}

theorem run_polled_cons (w : Watch σ γ) (p : Poll) (polls : List Poll) :
    (w.polled (p :: polls)).run = (w.polled polls).woken p.wake := by
  have waited : Waitable.wait (w.polled (p :: polls)).source =
      (p.wake, (w.polled polls).source) := rfl
  rw [run_of_wait waited]
  rfl

/-- An interrupted poll is made again. -/
theorem run_of_interrupted (w : Watch σ γ) (interrupted : p.error = some .interrupted) :
    (w.polled (p :: polls)).run = (w.polled polls).run := by
  rw [run_polled_cons, Poll.wake, interrupted]
  rfl

/-- A poll that fails for another reason ends the run where it is. -/
theorem run_of_failed (w : Watch σ γ) {errno : Errno} (failed : p.error = some errno)
    (other : errno ≠ .interrupted) :
    (w.polled (p :: polls)).run = (.error (.cannotWait (.system errno)), w.polled polls) := by
  rw [run_polled_cons, Poll.wake, failed]
  exact if_neg other

theorem run_of_stop (w : Watch σ γ) (works : p.error = none) (stop : p.stop = true) :
    (w.polled (p :: polls)).run = (.ok (), w.polled polls) := by
  rw [run_polled_cons, Poll.wake, works, stop]
  rfl

/-- A poll after which there may be something to read leads to a drain. -/
theorem run_of_ready (w : Watch σ γ) (works : p.error = none) (goesOn : p.stop = false) :
    (w.polled (p :: polls)).run =
      match w.drain with
      | (.error fault, w') => (.error fault, w'.polled polls)
      | (.ok (), w') => (w'.polled polls).run := by
  rw [run_polled_cons, Poll.wake, works, goesOn]
  simp only [Bool.false_eq_true, if_false, woken, drain_polled]
  rcases w.drain with ⟨_ | _, w'⟩ <;> rfl

/-! ## All polls -/

/-- What a run comes to does not depend on the interrupted polls. -/
theorem outcome_filter (w : Watch σ γ) (polls : List Poll) :
    w.outcome (polls.filter fun p => !p.isInterrupted) = w.outcome polls := by
  induction polls generalizing w with
  | nil => rfl
  | cons p polls ih =>
    rw [List.filter_cons]
    cases error : p.error with
    | none =>
      have kept : (!p.isInterrupted) = true := by rw [Poll.isInterrupted, error]; rfl
      rw [if_pos kept, outcome, outcome]
      cases stop : p.stop with
      | true => rw [run_of_stop w error stop, run_of_stop w error stop]; rfl
      | false =>
        rw [run_of_ready w error stop, run_of_ready w error stop]
        rcases w.drain with ⟨fault | _, w'⟩
        · rfl
        · exact ih w'
    | some errno =>
      by_cases interrupted : errno = .interrupted
      · have dropped : ¬ (!p.isInterrupted) = true := by
          rw [Poll.isInterrupted, error, interrupted]
          decide
        rw [if_neg dropped, ih, outcome, outcome,
          run_of_interrupted w (error.trans (congrArg some interrupted))]
      · have kept : (!p.isInterrupted) = true := by
          rw [Poll.isInterrupted, error, Bool.not_eq_true', beq_eq_false_iff_ne]
          exact fun same => interrupted (Option.some.inj same)
        rw [if_pos kept, outcome, outcome, run_of_failed w error interrupted,
          run_of_failed w error interrupted]
        rfl

/-- As long as polls are interrupted or find something to read, and drains go well, a run goes on.
The next poll that fails ends it. -/
theorem run_of_drains {w : Watch σ γ} {before after : List Poll} {errno : Errno}
    (early : ∀ q ∈ before, q.error = some .interrupted ∨ q.error = none ∧ q.stop = false)
    (failed : p.error = some errno) (other : errno ≠ .interrupted) :
    let rounds := before.countP fun q => q.error.isNone
    (w.drains rounds).1 = List.replicate rounds (.ok ()) →
      (w.polled (before ++ p :: after)).run =
        (.error (.cannotWait (.system errno)), (w.drains rounds).2.polled after) := by
  induction before generalizing w with
  | nil =>
    intro rounds _
    exact run_of_failed w failed other
  | cons q before ih =>
    intro rounds well
    obtain ⟨first, early⟩ := List.forall_mem_cons.mp early
    rcases first with interrupted | ⟨works, goesOn⟩
    · have same : rounds = before.countP fun q => q.error.isNone := by
        simp [rounds, interrupted]
      rw [same] at well ⊢
      rw [List.cons_append, run_of_interrupted w interrupted]
      exact ih early well
    · have one : rounds = (before.countP fun q => q.error.isNone) + 1 := by
        simp [rounds, works]
      rw [one] at well ⊢
      rw [drains, List.replicate_succ] at well
      obtain ⟨drained, well⟩ := List.cons.inj well
      rw [List.cons_append, run_of_ready w works goesOn, drains]
      have drained : w.drain = (.ok (), w.drain.2) := Prod.ext drained rfl
      rw [drained]
      exact ih early well

end Watch

/-! ## The polls of an attended session -/

namespace Attended

open Watch

/-- What the next poll on an attended session leaves. -/
def poll (a : Attended) : Poll :=
  { error := a.waits.head?.getD none
    stop := !a.session.node.readable
    ready := a.session.node.readable }

theorem wait_eq (a : Attended) :
    Waitable.wait a = (a.poll.wake, { a with waits := a.waits.tail }) := by
  show a.wait = _
  obtain ⟨session, waits⟩ := a
  rcases waits with _ | ⟨_ | errno, rest⟩
  · cases readable : session.node.readable <;> simp [wait, wake, poll, Poll.wake, readable]
  · cases readable : session.node.readable <;> simp [wait, wake, poll, Poll.wake, readable]
  · rfl

/-- An attended session and the session answer alike. -/
theorem mirror_session : Mirror (fun _ => True) Attended.session :=
  ⟨fun _ => rfl, fun _ => trivial⟩

variable {γ : Type} [Gauge γ]

/-- A run on an attended session is a run on the session with some polls, which fail as its waits
do. -/
structure PolledBy (w : Watch Attended γ) (polls : List Poll) : Prop where
  errors : polls.map Poll.error = w.source.waits.takeD polls.length none
  outcome : (w.withSource w.source.session).outcome polls =
    (w.run.1, w.run.2.withSource w.run.2.source.session)

variable {w w' : Watch Attended γ} {polls : List Poll}

/-- A run that ends with its first poll. -/
theorem PolledBy.last (ended : (w.withSource w.source.session).outcome [w.source.poll] =
    (w.run.1, w.run.2.withSource w.run.2.source.session)) : PolledBy w [w.source.poll] := by
  refine ⟨?_, ended⟩
  rw [List.map_singleton, List.length_singleton, List.takeD_succ, List.takeD_zero]
  rfl

/-- A run that goes on after its first poll. -/
theorem PolledBy.before (later : PolledBy w' polls)
    (waits : w'.source.waits = w.source.waits.tail) (ran : w.run = w'.run)
    (polled : (w.withSource w.source.session).outcome (w.source.poll :: polls) =
      (w'.withSource w'.source.session).outcome polls) :
    PolledBy w (w.source.poll :: polls) := by
  refine ⟨?_, by rw [polled, later.outcome, ran]⟩
  rw [List.map_cons, List.length_cons, List.takeD_succ, later.errors, waits]
  rfl

theorem exists_polledBy (w : Watch Attended γ) : ∃ polls, PolledBy w polls := by
  induction patience : Waitable.patience w.source using Nat.strongRecOn generalizing w with
  | ind size ih =>
    let a : Attended := { w.source with waits := w.source.waits.tail }
    have waited : Waitable.wait w.source = (w.source.poll.wake, a) := wait_eq w.source
    have woken : w.run = (w.withSource a).woken w.source.poll.wake := run_of_wait waited
    cases error : w.source.poll.error with
    | some errno =>
      have wake : w.source.poll.wake = .failed errno := by rw [Poll.wake, error]
      rw [wake] at woken waited
      by_cases interrupted : errno = .interrupted
      · obtain rfl := interrupted
        obtain ⟨polls, later⟩ :=
          ih _ (patience ▸ Waitable.patience_retry waited) (w.withSource a) rfl
        refine ⟨_, later.before rfl ?_ ?_⟩
        · rw [woken, Watch.woken, if_pos rfl]
        · rw [Watch.outcome, Watch.outcome, run_of_interrupted _ error]
          rfl
      · refine ⟨_, .last ?_⟩
        rw [Watch.outcome, run_of_failed _ error interrupted, woken, Watch.woken,
          if_neg interrupted]
        rfl
    | none =>
      cases stop : w.source.poll.stop with
      | true =>
        have wake : w.source.poll.wake = .interrupt := by rw [Poll.wake, error, stop]; rfl
        refine ⟨_, .last ?_⟩
        rw [Watch.outcome, run_of_stop _ error stop, woken, wake]
        rfl
      | false =>
        have wake : w.source.poll.wake = .ready := by rw [Poll.wake, error, stop]; rfl
        have mirrored : (w.withSource w.source.session).drain = _ :=
          (mirror_session.drain_eq (w := w.withSource a) trivial).1
        rw [wake] at woken waited
        rcases drained : (w.withSource a).drain with ⟨fault | _, w'⟩
        · rw [drained] at mirrored
          refine ⟨_, .last ?_⟩
          rw [Watch.outcome, run_of_ready _ error stop, mirrored, woken, Watch.woken, drained]
          rfl
        · rw [drained] at mirrored
          have left : Drained a w'.source := Watch.drained_of_drain drained
          obtain ⟨polls, later⟩ := ih _ (patience ▸ Waitable.patience_round waited left) w' rfl
          refine ⟨_, later.before (ahead_drained left).2.1 ?_ ?_⟩
          · rw [woken, Watch.woken, drained]
          · rw [Watch.outcome, Watch.outcome, run_of_ready _ error stop, mirrored]

end Attended

/-! ## Waits that fail -/

namespace Watch

variable {σ γ : Type} [EventSource σ] [Gauge γ]

/-- A run, with all that can happen at its polls. Interrupted polls, any number of them and put in
anywhere, change nothing: the run has the same result and leaves the same gauge, the same terminal
and the same events. A poll that fails for another reason ends the run at once, with just what the
drains before it left, whether or not the user has asked to stop or the device has something to
read. No run on an attended session is left out, as each is a run with some polls. -/
theorem run_of_polls (w : Watch σ γ) (polls : List Poll) :
    (∀ more : List Poll,
      (more.filter fun p => !p.isInterrupted) = (polls.filter fun p => !p.isInterrupted) →
      w.outcome more = w.outcome polls) ∧
    (∀ before p after errno, polls = before ++ p :: after →
      p.error = some errno → errno ≠ .interrupted →
      (∀ q ∈ before, q.error = some .interrupted ∨ q.error = none ∧ q.stop = false) →
      let rounds := before.countP fun q => q.error.isNone
      (w.drains rounds).1 = List.replicate rounds (.ok ()) →
      (w.polled polls).run =
        (.error (.cannotWait (.system errno)), (w.drains rounds).2.polled after)) ∧
    ∀ v : Watch Attended γ, ∃ polls, Attended.PolledBy v polls := by
  refine ⟨fun more same => ?_, ?_, Attended.exists_polledBy⟩
  · rw [← outcome_filter w more, same, outcome_filter]
  · rintro before p after errno rfl failed other early rounds well
    exact run_of_drains early failed other well

/-- A touch at some place, shown, and after a pause a touch at another. -/
def pausedTouch : Watch Script ExtentGauge :=
  { source := ⟨[.event ⟨.absolute, 0, 5, 7⟩, .event ⟨.sync, 0, 0, 7⟩, .block,
      .event ⟨.absolute, 0, 9, 8⟩]⟩
    gauge := .start
    terminal := .endless }

/-- Polls that are interrupted before and after a drain, and then one that fails although the user
has asked to stop and the device has more to read. -/
def outOfMemory : List Poll :=
  [⟨some .interrupted, true, true⟩, ⟨none, false, true⟩, ⟨some .interrupted, false, false⟩,
    ⟨some ⟨12⟩, true, true⟩]

theorem run_of_polls_outOfMemory :
    (pausedTouch.drains 1).1 = [.ok ()] ∧
      (pausedTouch.polled outOfMemory).run =
        (.error (.cannotWait (.system ⟨12⟩)), (pausedTouch.drains 1).2.polled []) ∧
      (pausedTouch.drains 1).2.source.items = [.event ⟨.absolute, 0, 9, 8⟩] := by
  have yields : DrainYields pausedTouch.source [⟨.absolute, 0, 5, 7⟩, ⟨.sync, 0, 0, 7⟩] (.ok ())
      ⟨[.event ⟨.absolute, 0, 9, 8⟩]⟩ := .event rfl (.event rfl (.blocked rfl))
  have drained : pausedTouch.drain = _ := drain_of_yields (w := pausedTouch) yields ⟨nofun, nofun⟩
  have well : (pausedTouch.drains 1).1 = [.ok ()] := by
    rw [drains, drained]
    rfl
  refine ⟨well, ?_, ?_⟩
  · exact (run_of_polls pausedTouch outOfMemory).2.1
      [⟨some .interrupted, true, true⟩, ⟨none, false, true⟩, ⟨some .interrupted, false, false⟩]
      ⟨some ⟨12⟩, true, true⟩ [] ⟨12⟩ rfl rfl (by decide) (by decide) well
  · rw [drains, drained]
    rfl

end Watch

end InputGauge
