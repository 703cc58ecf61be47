import InputGauge.Proofs.Adjustment.History
import InputGauge.Proofs.Host
import InputGauge.Proofs.Watch.Polls

/-!
# Holding a device

A session takes its device only to see that nobody else has it, and gives it back at once. The
kernel may refuse either, and that a device cannot be given back is no objection to it. So how the
checks ended does not tell whether the session holds the device. The requests and their answers do
(`GrabRequest.holds`), and the session has to remember what they come to.

A `Use` is anything that can be done with an open session, and a `Round` is one use on the device as
it is at that moment: between two rounds calls may begin or cease to fail, events may arrive, and
others may change the device. A check makes one of five moves (`Probe`), and no other use makes a
request (`standing_after`). By induction over the rounds, every request is made in its turn and the
session knows what it holds (`accounted_afterRounds`). `held_iff_not_given_back` says so of every
history of a session, together with what each check asks and how it ends.
-/

namespace InputGauge

/-! ## Requests and their answers -/

/-- A request to take the device, or to give it back, and the answer of the kernel. -/
structure GrabRequest where
  /-- Whether the request is to take the device. -/
  take : Bool
  answer : Except Errno Unit

namespace GrabRequest

/-- Whether the device is held after these requests: whether the last one that was granted was to
take it. -/
def holds (requests : List GrabRequest) : Bool :=
  (requests.reverse.find? fun r => r.answer.isOk).any take

/-- Each request asks for a change: to take the device while it is not held, to give it back while
it is. -/
def InTurn (requests : List GrabRequest) : Prop :=
  ∀ earlier request later, requests = earlier ++ request :: later → holds earlier = !request.take

variable {made asked : List GrabRequest} {r : GrabRequest} {path : String} {held held' : Bool}
  {answer : Except Fault Unit}

theorem holds_concat (made : List GrabRequest) (r : GrabRequest) :
    holds (made ++ [r]) = if r.answer.isOk then r.take else holds made := by
  simp only [holds, List.reverse_append, List.reverse_singleton, List.singleton_append,
    List.find?_cons]
  cases r.answer.isOk <;> rfl

theorem inTurn_nil : InTurn [] := by
  intro earlier request later split
  simp at split

theorem inTurn_concat (inTurn : InTurn made) (turn : holds made = !r.take) :
    InTurn (made ++ [r]) := by
  intro earlier request later split
  rcases List.eq_nil_or_concat later with rfl | ⟨later, last, rfl⟩
  · obtain ⟨rfl, same⟩ := List.append_inj' split rfl
    obtain rfl := List.head_eq_of_cons_eq same
    exact turn
  · rw [List.concat_eq_append, ← List.cons_append, ← List.append_assoc] at split
    exact inTurn _ _ _ (List.append_inj' split rfl).1

/-! ## One check -/

/-- The moves of a check: whether the session holds the device before, the requests and their
answers, how the check ends, and whether the session holds the device after. -/
inductive Probe (path : String) : Bool → List GrabRequest → Except Fault Unit → Bool → Prop where
  /-- Somebody else has the device. -/
  | refused {errno : Errno} :
      Probe path false [⟨true, .error errno⟩] (.error (.cannotGrab path (.system errno.lookedUp)))
        false
  | returned : Probe path false [⟨true, .ok ()⟩, ⟨false, .ok ()⟩] (.ok ()) false
  | stuck {errno : Errno} :
      Probe path false [⟨true, .ok ()⟩, ⟨false, .error errno⟩] (.ok ()) true
  /-- A device that an earlier check could not give back is not taken again. -/
  | freed : Probe path true [⟨false, .ok ()⟩] (.ok ()) false
  | stillStuck {errno : Errno} : Probe path true [⟨false, .error errno⟩] (.ok ()) true

/-- A check after the requests `made`, which itself makes the requests `asked`. -/
structure Checked (path : String) (made asked : List GrabRequest) (answer : Except Fault Unit) :
    Prop where
  /-- It asks to take the device unless the session holds it already, and to give it back unless
  it objects. -/
  asks : asked.map take =
    (if holds made then [] else [true]) ++ (if answer.isOk then [false] else [])
  /-- It objects just when it asked to take the device and was refused. -/
  objects_iff : ∀ fault, answer = .error fault ↔
    ∃ errno, ⟨true, .error errno⟩ ∈ asked ∧ fault = .cannotGrab path (.system errno.lookedUp)
  /-- The session then holds the device just when the check could not give it back. -/
  holds_iff : holds (made ++ asked) ↔ ∃ errno, ⟨false, .error errno⟩ ∈ asked
  /-- Not to give it back is no reason to object. -/
  ok_of_holds : holds (made ++ asked) → answer = .ok ()

theorem Probe.holds_append (before : holds made = held)
    (probe : Probe path held asked answer held') : holds (made ++ asked) = held' := by
  cases probe with
  | refused => rw [holds_concat]; exact before
  | returned => rw [List.append_cons, holds_concat]; rfl
  | stuck => rw [List.append_cons, holds_concat, holds_concat]; rfl
  | freed => rw [holds_concat]; rfl
  | stillStuck => rw [holds_concat]; exact before

theorem Probe.inTurn_append (before : holds made = held)
    (probe : Probe path held asked answer held') (inTurn : InTurn made) :
    InTurn (made ++ asked) := by
  -- With the device taken, it is the turn of giving it back.
  have taken (before : holds made = false) (given : Except Errno Unit) :
      InTurn (made ++ [⟨true, .ok ()⟩, ⟨false, given⟩]) := by
    rw [List.append_cons]
    exact inTurn_concat (inTurn_concat inTurn before) (holds_concat made _)
  cases probe with
  | refused => exact inTurn_concat inTurn before
  | returned => exact taken before _
  | stuck => exact taken before _
  | freed => exact inTurn_concat inTurn before
  | stillStuck => exact inTurn_concat inTurn before

theorem Probe.checked (before : holds made = held) (probe : Probe path held asked answer held') :
    Checked path made asked answer where
  asks := by
    rw [before]
    cases probe <;> rfl
  objects_iff fault := by
    cases probe <;> simp [eq_comm]
  holds_iff := by
    rw [probe.holds_append before]
    cases probe <;> simp
  ok_of_holds := by
    rw [probe.holds_append before]
    cases probe <;> simp

end GrabRequest

open GrabRequest (Probe Checked InTurn holds)

namespace Session

/-- A session that has made sure that nobody else holds the device. If the device cannot be given
back, the session holds it from then on. -/
def probed (s : Session) : Session :=
  { s with
    node := { s.node with grabs := s.node.grabs ++ [true, false] }
    grabbed := s.node.failures.release.isSome }

variable {s : Session} {errno : Errno}

theorem checkGrab_of_free (fresh : s.grabbed = false) (free : s.node.failures.grab = none) :
    s.checkGrab = (.ok (), s.probed) := by
  simp only [checkGrab, grab, fresh, Bool.false_eq_true, if_false, Node.setGrab, if_true, free,
    Node.outcome, release, probed]
  cases s.node.failures.release <;> simp

theorem checkGrab_of_held (fresh : s.grabbed = false) (held : s.node.failures.grab = some errno) :
    s.checkGrab =
      (.error (.cannotGrab s.path (.system errno.lookedUp)),
        { s with node := { s.node with grabs := s.node.grabs ++ [true] } }) := by
  simp only [checkGrab, grab, fresh, Bool.false_eq_true, if_false, Node.setGrab, if_true, held,
    Node.outcome]

/-- A device that is still held is not taken again, whatever taking it would come to. -/
theorem checkGrab_of_grabbed (grabbed : s.grabbed = true) :
    s.checkGrab =
      (.ok (), { s with
        node := { s.node with grabs := s.node.grabs ++ [false] }
        grabbed := s.node.failures.release.isSome }) := by
  simp only [checkGrab, grab, grabbed, if_true, Node.setGrab, Bool.false_eq_true, if_false, release]
  cases s.node.failures.release <;> simp [Node.outcome]

/-- A request with the answer that the device of a session has for it. -/
def answered (s : Session) (take : Bool) : GrabRequest := ⟨take, (s.node.setGrab take).1⟩

theorem answered_true (s : Session) :
    s.answered true = ⟨true, Node.outcome s.node.failures.grab⟩ := rfl

theorem answered_false (s : Session) :
    s.answered false = ⟨false, Node.outcome s.node.failures.release⟩ := rfl

/-- A check makes one of the moves of a check. -/
theorem exists_probe (s : Session) :
    ∃ asked : List Bool,
      Probe s.path s.grabbed (asked.map s.answered) s.checkGrab.1 s.checkGrab.2.grabbed ∧
      s.checkGrab.2.node.grabs = s.node.grabs ++ asked ∧ s.checkGrab.2.path = s.path := by
  cases grabbed : s.grabbed with
  | true =>
    rw [checkGrab_of_grabbed grabbed]
    refine ⟨[false], ?_, rfl, rfl⟩
    rw [List.map_singleton, answered_false]
    cases s.node.failures.release with
    | none => exact .freed
    | some errno => exact .stillStuck
  | false =>
    cases grab : s.node.failures.grab with
    | some errno =>
      rw [checkGrab_of_held grabbed grab]
      refine ⟨[true], ?_, rfl, rfl⟩
      rw [List.map_singleton, answered_true, grab, grabbed]
      exact .refused
    | none =>
      rw [checkGrab_of_free grabbed grab]
      refine ⟨[true, false], ?_, rfl, rfl⟩
      rw [List.map_cons, List.map_singleton, answered_true, answered_false, grab, probed]
      cases s.node.failures.release with
      | none => exact .returned
      | some errno => exact .stuck

end Session

/-! ## What else is done with a session -/

namespace Node

theorem grabs_setAxis (n : Node) (request : Nat) (settings : AxisSettings) :
    (n.setAxis request settings).2.grabs = n.grabs := by
  unfold setAxis
  split <;> rfl

theorem grabs_send (n : Node) (events : List SentEvent) : (n.send events).2.grabs = n.grabs := by
  unfold send
  split <;> rfl

theorem grabs_read (n : Node) : n.read.2.grabs = n.grabs := by
  unfold read
  split
  · rfl
  · split <;> rfl

end Node

namespace Session

/-- How a session stands to its device: the path that it names when it objects, whether it holds the
device, and what it asked for. -/
structure Standing where
  path : String
  grabbed : Bool
  grabs : List Bool

def standing (s : Session) : Standing :=
  { path := s.path, grabbed := s.grabbed, grabs := s.node.grabs }

theorem standing_setAxis (s : Session) (a : Axis) (settings : AxisSettings) :
    (s.setAxis a settings).2.standing = s.standing :=
  congrArg (Standing.mk s.path s.grabbed) (s.node.grabs_setAxis _ _)

theorem standing_setLed (s : Session) (l : Led) (on : Bool) :
    (s.setLed l on).2.standing = s.standing :=
  congrArg (Standing.mk s.path s.grabbed) (s.node.grabs_send _)

theorem standing_adjust (s : Session) (u : Adjustment) : (u.apply s).2.standing = s.standing := by
  rcases u.made_or_refused s with ⟨-, s', made, adjusted, -⟩ | ⟨fault, -, refused⟩
  · rw [made, adjusted.rest]
    rfl
  · rw [refused]

theorem standing_next (s : Session) : s.next.2.standing = s.standing := by
  have read : Standing.mk s.path s.grabbed s.node.read.2.grabs = s.standing :=
    congrArg _ s.node.grabs_read
  unfold next
  split
  · rfl
  · split
    · next errno n failed =>
      rw [failed] at read
      exact read
    · next raws n taken =>
      rw [taken] at read
      split <;> exact read

end Session

/-- What can be done with an open session, with gauges of some kind. The questions that a session
answers about its device (what it is called and can do, how an axis is set, whether it has a light)
leave the session as it is. -/
inductive Use (γ : Type) where
  | checkGrab
  | setAxis (a : Axis) (settings : AxisSettings)
  | setLed (l : Led) (on : Bool)
  | adjust (u : Adjustment)
  | next
  | drain (gauge : γ) (terminal : Terminal)
  /-- A run whose waits come to these polls. -/
  | run (gauge : γ) (terminal : Terminal) (polls : List Poll)

variable {γ : Type} [Gauge γ]

namespace Use

/-- A session after it was used. -/
def after : Use γ → Session → Session
  | checkGrab, s => s.checkGrab.2
  | setAxis a settings, s => (s.setAxis a settings).2
  | setLed l on, s => (s.setLed l on).2
  | adjust u, s => (u.apply s).2
  | next, s => s.next.2
  | drain gauge terminal, s => (Watch.drain { source := s, gauge, terminal }).2.source
  | run gauge terminal polls, s =>
    (Watch.outcome { source := s, gauge, terminal } polls).2.source

/-- Only a check concerns the hold on the device. -/
theorem standing_after {u : Use γ} (other : u ≠ .checkGrab) (s : Session) :
    (u.after s).standing = s.standing := by
  cases u with
  | checkGrab => exact absurd rfl other
  | setAxis a settings => exact s.standing_setAxis a settings
  | setLed l on => exact s.standing_setLed l on
  | adjust u => exact s.standing_adjust u
  | next => exact s.standing_next
  | drain gauge terminal =>
    exact Watch.source_drain_of_kept Session.standing Session.standing_next
      { source := s, gauge, terminal }
  | run gauge terminal polls =>
    have waits (u : Polled Session) : u.wait.2.source = u.source := by
      unfold Polled.wait
      split <;> rfl
    exact Watch.source_run_of_kept (fun u : Polled Session => u.source.standing)
      (fun u => u.source.standing_next) (fun u => congrArg Session.standing (waits u))
      (Watch.polled { source := s, gauge, terminal } polls)

end Use

/-! ## Rounds -/

/-- A use of a session, and the device as it is then. -/
structure Round (γ : Type) where
  node : Node
  use : Use γ

namespace Round

/-- The session when the round begins. Whatever became of the device, what the session asked for
stays on record. -/
def before (r : Round γ) (s : Session) : Session :=
  { s with node := { r.node with grabs := s.node.grabs } }

/-- The session when the round is over. -/
def after (r : Round γ) (s : Session) : Session := r.use.after (r.before s)

/-- The requests that a round adds to the record, with their answers. -/
def requests (r : Round γ) (s : Session) : List GrabRequest :=
  ((r.after s).node.grabs.drop s.node.grabs.length).map (r.before s).answered

variable {r : Round γ}

theorem standing_of_other (other : r.use ≠ .checkGrab) (s : Session) :
    (r.after s).standing = s.standing :=
  Use.standing_after other (r.before s)

theorem requests_of_other (other : r.use ≠ .checkGrab) (s : Session) : r.requests s = [] := by
  have grabs : (r.after s).node.grabs = s.node.grabs :=
    congrArg Session.Standing.grabs (standing_of_other other s)
  rw [requests, grabs, List.drop_length, List.map_nil]

/-- What a round with a check in it does about the hold on the device. -/
theorem probe_of_check (check : r.use = .checkGrab) (s : Session) :
    Probe s.path s.grabbed (r.requests s) (r.before s).checkGrab.1 (r.after s).grabbed ∧
      (r.after s).node.grabs = s.node.grabs ++ (r.requests s).map GrabRequest.take ∧
      (r.after s).path = s.path := by
  have after : r.after s = (r.before s).checkGrab.2 := by rw [Round.after, check, Use.after]
  obtain ⟨asked, probe, grabs, path⟩ := (r.before s).exists_probe
  rw [← after] at probe grabs path
  have record : (r.after s).node.grabs = s.node.grabs ++ asked := grabs
  have requests : r.requests s = asked.map (r.before s).answered := by
    rw [Round.requests, record, List.drop_left]
  have takes : (asked.map (r.before s).answered).map GrabRequest.take = asked := by
    rw [List.map_map]
    exact List.map_id asked
  rw [requests, takes]
  exact ⟨probe, record, path⟩

end Round

namespace Session

/-- A session after some rounds. -/
def afterRounds : List (Round γ) → Session → Session
  | [], s => s
  | r :: rest, s => afterRounds rest (r.after s)

/-- The requests of some rounds, with their answers. -/
def requests : List (Round γ) → Session → List GrabRequest
  | [], _ => []
  | r :: rest, s => r.requests s ++ requests rest (r.after s)

/-- A session that was opened at `path`, on a device of which `old` was asked before, and then made
the requests `made`: each is on record and was made in its turn, and the session knows what it
holds. -/
structure Accounted (path : String) (old : List Bool) (made : List GrabRequest) (s : Session) :
    Prop where
  path : s.path = path
  record : s.node.grabs = old ++ made.map GrabRequest.take
  grabbed : s.grabbed = holds made
  inTurn : InTurn made

variable {path : String} {old : List Bool} {made : List GrabRequest} {s : Session}

theorem accounted_opened (n : Node) (path : Bytes) :
    Accounted (Utf8.lossy path) n.grabs [] (.opened n path) where
  path := rfl
  record := (List.append_nil _).symm
  grabbed := rfl
  inTurn := GrabRequest.inTurn_nil

theorem Accounted.round (accounted : Accounted path old made s) (r : Round γ) :
    Accounted path old (made ++ r.requests s) (r.after s) := by
  obtain ⟨rfl, record, grabbed, inTurn⟩ := accounted
  by_cases check : r.use = .checkGrab
  · obtain ⟨probe, grabs, path⟩ := Round.probe_of_check check s
    exact {
      path := path
      record := by rw [grabs, record, List.map_append, List.append_assoc]
      grabbed := (probe.holds_append grabbed.symm).symm
      inTurn := probe.inTurn_append grabbed.symm inTurn }
  · have same := Round.standing_of_other check s
    rw [Round.requests_of_other check, List.append_nil]
    exact {
      path := congrArg Standing.path same
      record := (congrArg Standing.grabs same).trans record
      grabbed := (congrArg Standing.grabbed same).trans grabbed
      inTurn }

theorem accounted_afterRounds (accounted : Accounted path old made s) (rounds : List (Round γ)) :
    Accounted path old (made ++ requests rounds s) (afterRounds rounds s) := by
  induction rounds generalizing made s with
  | nil => rwa [requests, List.append_nil]
  | cons r rest ih =>
    rw [requests, ← List.append_assoc]
    exact ih (accounted.round r)

/-- Opening a device asks for nothing. After any history of a session, each request is on record and
was made in its turn, and the session knows whether it holds the device. Whatever comes next: only
a check makes requests, and it objects just when it asked to take the device and was refused. The
session then holds the device just when the check could not give it back. -/
theorem held_iff_not_given_back {h : Host} {path : Bytes} {s : Session}
    (opened : h.openSession path = .ok s) (rounds : List (Round γ)) :
    let made := requests rounds s
    let now := afterRounds rounds s
    h.device? path = .ok (some s.node) ∧
    now.node.grabs = s.node.grabs ++ made.map GrabRequest.take ∧
    now.grabbed = holds made ∧
    InTurn made ∧
    ∀ r : Round γ,
      (r.after now).grabbed = holds (made ++ r.requests now) ∧
      (r.use ≠ .checkGrab → r.requests now = []) ∧
      (r.use = .checkGrab →
        Checked (Utf8.lossy path) made (r.requests now) (r.before now).checkGrab.1) := by
  intro made now
  obtain ⟨n, opens, rfl⟩ := Host.opens_of_openSession opened
  have accounted : Accounted (Utf8.lossy path) n.grabs made now :=
    accounted_afterRounds (accounted_opened n path) rounds
  refine ⟨opens.found, accounted.record, accounted.grabbed, accounted.inTurn, fun r => ?_⟩
  refine ⟨(accounted.round r).grabbed, fun other => Round.requests_of_other other now,
    fun check => ?_⟩
  obtain ⟨probe, -, -⟩ := Round.probe_of_check check now
  rw [accounted.path] at probe
  exact probe.checked accounted.grabbed.symm

/-- A touchpad that cannot be given back. -/
def jammed : Node :=
  { name := "Pad", bus := 24, vendor := 2, product := 7, axes := .ofFn fun _ => none, leds := []
    queue := [⟨1, 0, 3, 0, 40⟩], failures := { release := some ⟨5⟩ } }

/-- It is checked, read, and checked twice more, with others waiting to take it. Only the last check
can give it back. -/
def jammedRounds : List (Round ExtentGauge) :=
  [⟨jammed, .checkGrab⟩, ⟨jammed, .next⟩,
    ⟨{ jammed with failures := { grab := some .busy, release := some ⟨5⟩ } }, .checkGrab⟩,
    ⟨{ jammed with failures := { grab := some .busy } }, .checkGrab⟩]

/-- Once it is given back, one of the others has it, and the next check objects; the next read is no
matter of theirs. -/
theorem held_iff_not_given_back_jammed :
    let h : Host := { device? := fun _ => .ok (some jammed) }
    let s : Session := .opened jammed (Bytes.ofString "event0")
    let made : List GrabRequest :=
      [⟨true, .ok ()⟩, ⟨false, .error ⟨5⟩⟩, ⟨false, .error ⟨5⟩⟩, ⟨false, .ok ()⟩]
    h.openSession (Bytes.ofString "event0") = .ok s ∧
      requests jammedRounds s = made ∧ InTurn made ∧
      Checked "event0" made [⟨true, .error .busy⟩]
        (.error (.cannotGrab "event0" (.system .busy))) ∧
      (⟨jammed, .next⟩ : Round ExtentGauge).requests (afterRounds jammedRounds s) = [] := by
  intro h s made
  let now := afterRounds jammedRounds s
  let check : Round ExtentGauge :=
    ⟨{ jammed with failures := { grab := some .busy } }, .checkGrab⟩
  have opened : h.openSession (Bytes.ofString "event0") = .ok s := rfl
  obtain ⟨-, -, -, inTurn, next⟩ := held_iff_not_given_back opened jammedRounds
  have checked := (next check).2.2 rfl
  have requested : check.requests now = [⟨true, .error .busy⟩] := rfl
  have objects : (check.before now).checkGrab.1 = .error (.cannotGrab s.path (.system .busy)) := rfl
  have shown : s.path = "event0" := by decide +kernel
  refine ⟨opened, rfl, inTurn, ?_, (next ⟨jammed, .next⟩).2.1 nofun⟩
  rw [← requested, ← shown, ← objects]
  exact checked

end Session

end InputGauge
