import InputGauge.Proofs.Session.Delivery
import InputGauge.Proofs.Watch.Course

/-!
# The course of a run on a session

What a run takes from a device whose queue can be told, and how it ends, in one formula
(`Feed.course`). The run waits; if that fails, nothing is taken. If there is nothing to read, the
user has asked to stop. Otherwise one drain takes everything up to where events were lost, or all
of it, and ends the run if events were lost or the device then fails; else the run waits once more,
for the user. A wait that is interrupted does not count (`settle`).
-/

namespace InputGauge

/-- Waits until a wait works: the waits after it, or the fault of the one that fails for good. -/
def settle : List (Option Errno) → Except Fault (List (Option Errno))
  | [] => .ok []
  | none :: rest => .ok rest
  | some errno :: rest =>
    if errno = .interrupted then settle rest else .error (.cannotWait (.system errno))

namespace Feed

/-- The events that a drain takes: those before the first that says that events were lost. -/
def kept (f : Feed) : List Event := f.events.takeWhile fun e => !e.isDropped

/-- How a drain ends. -/
def verdict (f : Feed) : Except Fault Unit :=
  if f.events.any Event.isDropped then .error .cannotKeepUp
  else match f.failure with
    | some cause => .error (.cannotRead cause)
    | none => .ok ()

/-- Whether there is nothing to read for now. -/
def isIdle (f : Feed) : Bool := f.events.isEmpty && f.failure.isNone

/-- The events that a run takes, and how it ends, where the waits go so. -/
def course (f : Feed) (waits : List (Option Errno)) : List Event × Except Fault Unit :=
  match settle waits with
  | .error fault => ([], .error fault)
  | .ok later =>
    if f.isIdle then ([], .ok ())
    else
      match f.verdict with
      | .error fault => (f.kept, .error fault)
      | .ok () => (f.kept, (settle later).map fun _ => ())

/-! ## A drain -/

variable {f f' : Feed} {es : List Event} {ended : Except Fault Unit}

/-- What an answer tells of the events that it comes from, `f` before it and `f'` after it. -/
def Tells (f f' : Feed) : Except Fault Reading → Prop
  | .error fault => f.events = [] ∧ ∃ cause, f.failure = some cause ∧ fault = .cannotRead cause
  | .ok .wouldBlock => f.events = [] ∧ f.failure = none ∧ f' = f
  | .ok .dropped => ∃ e rest, f.events = e :: rest ∧ e.isDropped = true
  | .ok (.event e) =>
    e.isDropped = false ∧ ∃ rest, f.events = e :: rest ∧ f' = { f with events := rest }

theorem tells_of_next {answer : Except Fault Reading}
    (taken : EventSource.next f = (answer, f')) : f.Tells f' answer := by
  replace taken : f.next = (answer, f') := taken
  unfold next at taken
  split at taken
  · next e rest events =>
    obtain ⟨rfl, rfl⟩ := Prod.mk.inj taken
    unfold Reading.of
    by_cases dropped : e.isDropped
    · rw [if_pos dropped]
      exact ⟨e, rest, events, dropped⟩
    · rw [if_neg dropped]
      exact ⟨by simpa using dropped, rest, events, rfl⟩
  · next events =>
    obtain ⟨rfl, rfl⟩ := Prod.mk.inj taken
    unfold ending
    cases failure : f.failure with
    | none => exact ⟨events, failure, rfl⟩
    | some cause => exact ⟨events, cause, failure, rfl⟩

theorem kept_cons {e : Event} {rest : List Event} (events : f.events = e :: rest)
    (plain : e.isDropped = false) : f.kept = e :: kept { f with events := rest } := by
  rw [kept, events, List.takeWhile_cons, plain]
  rfl

theorem verdict_cons {e : Event} {rest : List Event} (events : f.events = e :: rest)
    (plain : e.isDropped = false) : f.verdict = verdict { f with events := rest } := by
  rw [verdict, verdict, events, List.any_cons, plain, Bool.false_or]

/-- A drain that ends well leaves nothing to read. -/
theorem eq_of_yields (yields : DrainYields f es ended f') :
    es = f.kept ∧ ended = f.verdict ∧ (ended = .ok () → f'.isIdle) := by
  induction yields with
  | failed taken =>
    obtain ⟨events, cause, failure, rfl⟩ := tells_of_next taken
    rw [kept, verdict, events, failure]
    exact ⟨rfl, rfl, nofun⟩
  | blocked taken =>
    obtain ⟨events, failure, rfl⟩ := tells_of_next taken
    rw [kept, verdict, isIdle, events, failure]
    exact ⟨rfl, rfl, fun _ => rfl⟩
  | dropped taken =>
    obtain ⟨e, rest, events, dropped⟩ := tells_of_next taken
    rw [kept, verdict, events, List.takeWhile_cons, List.any_cons, dropped]
    exact ⟨rfl, rfl, nofun⟩
  | event taken _ ih =>
    obtain ⟨plain, rest, events, rfl⟩ := tells_of_next taken
    obtain ⟨rfl, rfl, idle⟩ := ih
    rw [kept_cons events plain, verdict_cons events plain]
    exact ⟨rfl, rfl, idle⟩

/-! ## A run, case by case -/

variable {waits later : List (Option Errno)} {fault : Fault}

theorem course_of_no_wait (fails : settle waits = .error fault) :
    f.course waits = ([], .error fault) := by
  rw [course, fails]

theorem course_of_idle (idle : f.isIdle) :
    f.course waits = ([], (settle waits).map fun _ => ()) := by
  rw [course]
  cases settle waits with
  | error fault => rfl
  | ok later => exact if_pos idle

theorem course_of_fault (settled : settle waits = .ok later) (busy : f.isIdle = false)
    (verdict : f.verdict = .error fault) : f.course waits = (f.kept, .error fault) := by
  simp only [course, settled, busy, Bool.false_eq_true, if_false, verdict]

theorem course_of_ok (settled : settle waits = .ok later) (busy : f.isIdle = false)
    (verdict : f.verdict = .ok ()) : f.course waits = (f.kept, (settle later).map fun _ => ()) := by
  simp only [course, settled, busy, Bool.false_eq_true, if_false, verdict]

theorem settle_ne_overflow (waits : List (Option Errno)) (step : Overflow) :
    settle waits ≠ .error (.overflow step) := by
  fun_induction settle waits with
  | case1 => exact nofun
  | case2 => exact nofun
  | case3 rest ih => exact ih
  | case4 => exact nofun

theorem verdict_ne_overflow (f : Feed) (step : Overflow) : f.verdict ≠ .error (.overflow step) := by
  unfold verdict
  split
  · exact nofun
  · split <;> exact nofun

/-- No time is beyond the clock in a list of events. -/
theorem course_ne_overflow (f : Feed) (waits : List (Option Errno)) (step : Overflow) :
    (f.course waits).2 ≠ .error (.overflow step) := by
  unfold course
  split
  · next settled =>
    intro overflows
    cases overflows
    exact settle_ne_overflow waits step settled
  · next later _ =>
    split
    · exact nofun
    · split
      · next verdict =>
        intro overflows
        cases overflows
        exact f.verdict_ne_overflow step verdict
      · cases settled : settle later with
        | ok => exact nofun
        | error fault =>
          intro overflows
          cases overflows
          exact settle_ne_overflow later step settled

end Feed

/-! ## A run -/

namespace Attended

variable {a a' : Attended} {es : List Event} {ended : Except Fault Unit}

/-- An attended session and the plain list of what it is to give out answer alike. -/
theorem mirror_feed : Mirror (fun a : Attended => a.session.Legible) fun a => a.session.feed := by
  refine ⟨fun {a} legible => ?_, fun {a} legible => ?_⟩
  · exact Session.mirror_feed.next_eq legible
  · exact Session.mirror_feed.fit_next legible

theorem waits_of_yields (yields : DrainYields a es ended a') : a'.waits = a.waits := by
  induction yields with
  | failed taken => exact (session_next taken).2
  | blocked taken => exact (session_next taken).2
  | dropped taken => exact (session_next taken).2
  | event taken _ ih => exact ih.trans (session_next taken).2

/-- Where a session has given out what it read, a wait that works tells whether there is more. -/
theorem readable_eq (legible : a.session.Legible) (pending : a.session.pending = []) :
    a.session.node.readable = !a.session.feed.isIdle := by
  simp only [Node.readable, legible.whole, Feed.isIdle, Session.feed, pending, Session.failure]
  cases a.session.node.queue with
  | cons raw more => rfl
  | nil =>
    cases a.session.node.failures.read with
    | none => rfl
    | some errno => by_cases later : errno = .wouldBlock <;> simp [later]

theorem idle_of_wake (legible : a.session.Legible) (pending : a.session.pending = [])
    (wake : a.wake = .interrupt) : a.session.feed.isIdle = true := by
  rw [Attended.wake, readable_eq legible pending] at wake
  split at wake
  · cases wake
  · next idle => simpa using idle

theorem busy_of_wake (legible : a.session.Legible) (pending : a.session.pending = [])
    (wake : a.wake = .ready) : a.session.feed.isIdle = false := by
  rw [Attended.wake, readable_eq legible pending] at wake
  split at wake
  · next busy => simpa using busy
  · cases wake

theorem wake_ne_failed (a : Attended) (errno : Errno) : a.wake ≠ .failed errno := by
  unfold wake
  split <;> exact nofun

/-- A wait works, or it is one of those that fail. -/
theorem wait_cases {wake : Wake} (waited : Waitable.wait a = (wake, a')) :
    (a' = { a with waits := a'.waits } ∧ settle a.waits = .ok a'.waits ∧ a.wake = wake) ∨
      ∃ errno later, a.waits = some errno :: later ∧ wake = .failed errno ∧
        a' = { a with waits := later } := by
  replace waited : a.wait = (wake, a') := waited
  unfold wait at waited
  split at waited
  · next waits =>
    obtain ⟨rfl, rfl⟩ := Prod.mk.inj waited
    exact .inl ⟨rfl, by rw [waits, settle], rfl⟩
  · next later waits =>
    obtain ⟨rfl, rfl⟩ := Prod.mk.inj waited
    exact .inl ⟨rfl, by rw [waits, settle], rfl⟩
  · next errno later waits =>
    obtain ⟨rfl, rfl⟩ := Prod.mk.inj waited
    exact .inr ⟨errno, later, waits, rfl, rfl⟩

/-- A drain of a run takes what there is up to where events were lost, and no wait. -/
theorem drain_of_yields (yields : DrainYields a es ended a') (legible : a.session.Legible) :
    es = a.session.feed.kept ∧ ended = a.session.feed.verdict ∧ a'.session.Legible ∧
      a'.waits = a.waits ∧ (ended = .ok () → a'.session.feed.isIdle) := by
  obtain ⟨mirrored, legible'⟩ := mirror_feed.yields yields legible
  obtain ⟨kept, verdict, idle⟩ := Feed.eq_of_yields mirrored
  exact ⟨kept, verdict, legible', waits_of_yields yields, idle⟩

theorem pending_of_idle (idle : a.session.feed.isIdle) : a.session.pending = [] := by
  rw [Feed.isIdle, Bool.and_eq_true, List.isEmpty_iff] at idle
  exact (List.append_eq_nil_iff.mp idle.1).1

/-- A run takes and ends as its course says. -/
theorem course_of_yields (yields : RunYields a es ended a') (legible : a.session.Legible)
    (pending : a.session.pending = []) : a.session.feed.course a.waits = (es, ended) := by
  induction yields with
  | stopped waited =>
    rcases wait_cases waited with ⟨-, settled, wake⟩ | ⟨errno, later, -, fails, -⟩
    · rw [Feed.course_of_idle (idle_of_wake legible pending wake), settled]
      rfl
    · cases fails
  | @failed a a' errno waited other =>
    rcases wait_cases waited with ⟨-, -, wake⟩ | ⟨errno, later, waits, fails, -⟩
    · exact absurd wake (a.wake_ne_failed errno)
    · cases fails
      exact Feed.course_of_no_wait (by rw [waits, settle, if_neg other])
  | @again a a₁ a' es ended waited _ ih =>
    rcases wait_cases waited with ⟨-, -, wake⟩ | ⟨errno, later, waits, fails, rfl⟩
    · exact absurd wake (a.wake_ne_failed .interrupted)
    · cases fails
      rw [← ih legible pending, Feed.course, Feed.course, waits, settle, if_pos rfl]
  | @cut a a₁ a' es fault waited yields =>
    rcases wait_cases waited with ⟨same, settled, wake⟩ | ⟨errno, later, -, fails, -⟩
    · have busy := busy_of_wake legible pending wake
      rw [same] at yields
      obtain ⟨rfl, verdict, -⟩ := drain_of_yields yields legible
      exact Feed.course_of_fault settled busy verdict.symm
    · cases fails
  | @drained a a₁ a₂ a₃ es es' ended waited yields _ ih =>
    rcases wait_cases waited with ⟨same, settled, wake⟩ | ⟨errno, later, -, fails, -⟩
    · have busy := busy_of_wake legible pending wake
      rw [same] at yields
      obtain ⟨rfl, verdict, legible', waits, idle⟩ := drain_of_yields yields legible
      -- Nothing is left, so the rest of the run is a wait for the user.
      have last := ih legible' (pending_of_idle (idle rfl))
      rw [Feed.course_of_idle (idle rfl), waits] at last
      obtain ⟨rfl, rfl⟩ := Prod.mk.inj last
      rw [Feed.course_of_ok settled busy verdict.symm, List.append_nil]
    · cases fails

-- The first wait is interrupted, the next one works, and the one after the drain fails.
example :
    Feed.course { events := [⟨.sync, 0, 0, 7⟩], failure := none }
        [some .interrupted, none, some .noSpace] =
      ([⟨.sync, 0, 0, 7⟩], .error (.cannotWait (.system .noSpace))) := rfl

end Attended

end InputGauge
