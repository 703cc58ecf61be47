import InputGauge.Host

/-!
# Opening a device

A path is opened if it leads to a device that answers every question on the way, and the session
is then on that very device, which nothing was done to yet (`openSession_of_opens`). Otherwise the
first thing that goes wrong is the fault (`openSession_of_unopened`). One of the two is always the
case (`opens_or_unopened`), so what is open was opened like that (`opens_of_openSession`).

The faults do not say which step of opening failed, and the number of the error has to tell a path
that leads nowhere from a file that is no device. On the way through a file tree only errors occur
that mean the former (`FileTree.unreachable_of_follow`), so such a path is told as what it is
(`openSession_ofFiles_of_lost`).
-/

namespace InputGauge

/-- A device on which a session was just opened. -/
def Session.opened (n : Node) (path : Bytes) : Session :=
  { node := n, path := Utf8.lossy path, grabbed := false, pending := [] }

namespace Host

variable {h : Host} {path : Bytes}

/-- A path leads to a device that can be opened. -/
structure Opens (h : Host) (path : Bytes) (n : Node) : Prop where
  found : h.device? path = .ok (some n)
  answers : n.failures.query.or n.failures.identify = none
  settable : n.failures.getFlags.or n.failures.setFlags = none

/-- Why a path cannot be opened. -/
inductive Unopened (h : Host) (path : Bytes) : Fault → Prop where
  | absent {cause : Cause} :
      h.device? path = .error cause → Unopened h path (.ofOpening cause)
  | noDevice :
      h.device? path = .ok none → Unopened h path (.ofOpening (.system .notTypewriter))
  | unanswered {n : Node} {errno : Errno} :
      h.device? path = .ok (some n) → n.failures.query.or n.failures.identify = some errno →
      Unopened h path (.ofOpening (.system errno.lookedUp))
  | unsettable {n : Node} {errno : Errno} :
      h.device? path = .ok (some n) → n.failures.query.or n.failures.identify = none →
      n.failures.getFlags.or n.failures.setFlags = some errno →
      Unopened h path (.noDeviceInfo (.system errno))

/-- The four steps on an open file, the first that fails being the last. -/
theorem establish_eq (n : Node) (path : Bytes) :
    Session.establish n path =
      match n.failures.query.or n.failures.identify, n.failures.getFlags.or n.failures.setFlags with
      | some errno, _ => .error (.ofOpening (.system errno.lookedUp))
      | none, some errno => .error (.noDeviceInfo (.system errno))
      | none, none => .ok (.opened n path) := by
  unfold Session.establish
  cases n.failures.query <;> cases n.failures.identify <;> cases n.failures.getFlags <;>
    cases n.failures.setFlags <;> rfl

theorem openSession_of_opens {n : Node} (opens : h.Opens path n) :
    h.openSession path = .ok (.opened n path) := by
  obtain ⟨found, answers, settable⟩ := opens
  simp only [openSession, found, establish_eq, answers, settable]

theorem openSession_of_unopened {fault : Fault} (unopened : h.Unopened path fault) :
    h.openSession path = .error fault := by
  cases unopened with
  | absent found => simp only [openSession, found]
  | noDevice found => simp only [openSession, found]
  | unanswered found fails => simp only [openSession, found, establish_eq, fails]
  | unsettable found answers fails => simp only [openSession, found, establish_eq, answers, fails]

/-- Either there is a device to open or there is a reason why not. -/
theorem opens_or_unopened (h : Host) (path : Bytes) :
    (∃ n, h.Opens path n) ∨ ∃ fault, h.Unopened path fault := by
  cases found : h.device? path with
  | error cause => exact .inr ⟨_, .absent found⟩
  | ok device =>
    cases device with
    | none => exact .inr ⟨_, .noDevice found⟩
    | some n =>
      cases answers : n.failures.query.or n.failures.identify with
      | some errno => exact .inr ⟨_, .unanswered found answers⟩
      | none =>
        cases settable : n.failures.getFlags.or n.failures.setFlags with
        | some errno => exact .inr ⟨_, .unsettable found answers settable⟩
        | none => exact .inl ⟨n, found, answers, settable⟩

theorem opens_of_openSession {s : Session} (opened : h.openSession path = .ok s) :
    ∃ n, h.Opens path n ∧ s = .opened n path := by
  rcases h.opens_or_unopened path with ⟨n, opens⟩ | ⟨fault, unopened⟩
  · rw [openSession_of_opens opens] at opened
    exact ⟨n, opens, (Except.ok.inj opened).symm⟩
  · rw [openSession_of_unopened unopened] at opened
    cases opened

end Host

/-! ## Paths that lead nowhere -/

namespace FileTree

variable {t : FileTree} {path : Bytes} {cause : Cause}

theorem unreachable_of_follow {links : Nat} {place : Place} {names : List Bytes} {errno : Errno}
    (lost : t.follow links place names = .error errno) : errno ∈ Fault.unreachable := by
  fun_induction follow t links place names with
  | case1 => cases lost
  | case2 | case3 | case6 | case7 | case8 =>
    cases lost
    decide
  | case4 links place name rest inside self ih => exact ih lost
  | case5 links place rest inside other ih => exact ih lost
  | case9 place name rest inside other below short target links link ih => exact ih lost
  | case10 place name rest inside other below short entry links spent left found ih => exact ih lost

theorem unreachable_of_lookup (lost : t.lookup path = .error cause) (proper : 0 ∉ path) :
    ∃ errno ∈ Fault.unreachable, cause = .system errno := by
  rw [lookup, if_neg proper] at lost
  split at lost
  · cases lost
    exact ⟨.noEntry, by decide, rfl⟩
  · split at lost
    · cases lost
      exact ⟨.nameTooLong, by decide, rfl⟩
    · rcases followed : t.follow mostLinks (start t.working path) (names path) with errno | entry
      · rw [followed] at lost
        cases lost
        exact ⟨errno, unreachable_of_follow followed, rfl⟩
      · rw [followed] at lost
        cases lost

theorem ofOpening_of_lookup (lost : t.lookup path = .error cause) :
    Fault.ofOpening cause = if 0 ∈ path then .noDeviceInfo cause else .cannotOpen cause := by
  split
  · next zero =>
    rw [lookup, if_pos zero] at lost
    cases lost
    rfl
  · next proper =>
    obtain ⟨errno, unreachable, rfl⟩ := unreachable_of_lookup lost proper
    exact if_pos unreachable

end FileTree

/-- A path that cannot be followed through a file tree is told as one that cannot be opened. Only
one with a zero byte, which is not followed at all, looks like a file that is no device. -/
theorem Host.openSession_ofFiles_of_lost {t : FileTree} {path : Bytes} {cause : Cause}
    (lost : t.lookup path = .error cause) :
    (ofFiles t).openSession path =
      .error (if 0 ∈ path then .noDeviceInfo cause else .cannotOpen cause) := by
  have absent : (ofFiles t).device? path = .error cause := by
    show (t.lookup path).map _ = _
    rw [lost]
    rfl
  rw [openSession_of_unopened (.absent absent), FileTree.ofOpening_of_lookup lost]

end InputGauge
