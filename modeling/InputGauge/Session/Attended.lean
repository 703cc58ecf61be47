import InputGauge.Session

/-!
# Attended sessions

A session with a user in front of it, who asks to stop when there is nothing left to read. A wait
may fail before it sees either.
-/

namespace InputGauge

/-- A session that can be waited on. -/
structure Attended where
  session : Session
  /-- The errors, if any, with which the waits to come fail; past the end they work. -/
  waits : List (Option Errno)
  deriving DecidableEq

namespace Attended

/-- Takes the next answer of the session. -/
def next (a : Attended) : Except Fault Reading × Attended :=
  let (result, session) := a.session.next
  (result, { a with session })

/-- What a wait that works reports. -/
def wake (a : Attended) : Wake := if a.session.node.readable then .ready else .interrupt

/-- Waits for something to read, or for the user. -/
def wait (a : Attended) : Wake × Attended :=
  match a.waits with
  | [] => (a.wake, a)
  | none :: rest => (a.wake, { a with waits := rest })
  | some errno :: rest => (.failed errno, { a with waits := rest })

theorem session_next {a a' : Attended} {r : Except Fault Reading} (h : a.next = (r, a')) :
    a.session.next = (r, a'.session) ∧ a'.waits = a.waits := by
  simp only [next, Prod.mk.injEq] at h
  obtain ⟨rfl, rfl⟩ := h
  exact ⟨rfl, rfl⟩

instance : EventSource Attended where
  next := next
  backlog a := a.session.ahead
  backlog_next h := Session.ahead_event (session_next h).1

theorem ahead_drained {a a' : Attended} (h : Drained a a') :
    a'.session.ahead ≤ a.session.ahead ∧ a'.waits = a.waits ∧
      (a.session.node.readable → a'.session.ahead < a.session.ahead) := by
  induction h with
  | @block a a' h =>
    obtain ⟨hsession, hwaits⟩ := session_next h
    obtain ⟨le, lt⟩ := Session.ahead_next hsession
    exact ⟨le, hwaits, fun readable => lt (.inr readable)⟩
  | @event a a' a'' e h _ ih =>
    obtain ⟨hsession, hwaits⟩ := session_next h
    have lt := Session.ahead_event hsession
    exact ⟨by omega, ih.2.1.trans hwaits, fun _ => by omega⟩

instance : Waitable Attended where
  wait := wait
  patience a := a.waits.length + a.session.ahead
  patience_retry {a a'} h := by
    have notFailed (b : Attended) : b.wake ≠ .failed .interrupted := by
      unfold wake
      split <;> simp
    unfold wait at h
    split at h
    · exact absurd (Prod.mk.inj h).1 (notFailed a)
    · exact absurd (Prod.mk.inj h).1 (notFailed a)
    · next errno rest hwaits =>
      obtain ⟨_, rfl⟩ := Prod.mk.inj h
      simp [hwaits]
  patience_round {a a' a''} h drained := by
    obtain ⟨_, hwaits, lt⟩ := ahead_drained drained
    have readable (b : Attended) : b.wake = .ready → b.session.node.readable := by
      unfold wake
      split <;> simp_all
    unfold wait at h
    split at h
    · obtain ⟨hwake, rfl⟩ := Prod.mk.inj h
      have := lt (readable a hwake)
      rw [hwaits]
      omega
    · next rest hrest =>
      obtain ⟨hwake, rfl⟩ := Prod.mk.inj h
      have := lt (readable a hwake)
      simp only [hwaits, hrest, List.length_cons]
      simp only at this
      omega
    · next errno rest hrest =>
      cases (Prod.mk.inj h).1

end Attended

end InputGauge
