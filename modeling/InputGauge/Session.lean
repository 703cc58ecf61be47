import InputGauge.Fault
import InputGauge.Node
import InputGauge.Source
import InputGauge.Text.Utf8

/-!
# Sessions

An open device. A session reads events in whatever portions the kernel hands over and gives them
out one by one, in order; it would block only when neither it nor the kernel has one left.

A session probes whether another process holds the device by taking it and giving it back at
once. It remembers whether it holds the device, so a device that could not be given back is not
taken a second time.

The calls that question the device, read from it, take it or give it back look error numbers up:
one that has no description arrives as success, though the call failed. The calls that set its
mode or change it report every error number as it is.
-/

namespace InputGauge

/-- An open device. -/
structure Session where
  node : Node
  /-- The path under which it was opened, as it is shown. -/
  path : String
  /-- Whether the session holds the device for itself. -/
  grabbed : Bool
  /-- Events that were read but not yet given out. -/
  pending : List Event
  deriving DecidableEq

namespace Session

/-! ## Opening -/

/-- Opens a node: it must answer as an input device, say what it is, and let itself be read
without waiting. -/
def establish (node : Node) (path : Bytes) : Except Fault Session := do
  (Node.outcome node.failures.query).mapError fun e => Fault.ofOpening (.system e.lookedUp)
  (Node.outcome node.failures.identify).mapError fun e => Fault.ofOpening (.system e.lookedUp)
  (Node.outcome node.failures.getFlags).mapError fun e => Fault.noDeviceInfo (.system e)
  (Node.outcome node.failures.setFlags).mapError fun e => Fault.noDeviceInfo (.system e)
  return { node, path := Utf8.lossy path, grabbed := false, pending := [] }

/-! ## What the device says about itself -/

/-- The name of the device, or a stand-in. -/
def name (s : Session) : String :=
  if s.node.name.isEmpty then "Unnamed device" else s.node.name

/-- The settings of all axes, as a fault if they cannot be read. -/
def readAxes (s : Session) : Except Fault AxisTable :=
  s.node.readAxes.mapError fun e => .noDeviceInfo (.system e.lookedUp)

/-- What the device says about itself. -/
def capabilities (s : Session) : Except Fault Capabilities := do
  let axes ← s.readAxes
  let range (a : Axis) : Option AxisRange := (axes.get? a).map AxisSettings.range
  return {
    name := s.name
    bus := .ofNumber s.node.bus
    vendor := s.node.vendor
    product := s.node.product
    x := range .x
    y := range .y
    contactX := range .contactX
    contactY := range .contactY }

/-! ## Axes and lights -/

/-- The settings of an axis, if the device has it. -/
def axisSettings (s : Session) (a : Axis) : Except Fault (Option AxisSettings) :=
  if s.node.axes.contains a then s.readAxes.map fun axes => axes.get? a else .ok none

/-- Replaces the settings of an axis. -/
def setAxis (s : Session) (a : Axis) (settings : AxisSettings) : Except Errno Unit × Session :=
  let (result, node) := s.node.setAxis (AxisRequest.number a) settings
  (result, { s with node })

/-- Whether the device has a light. -/
def hasLed (s : Session) (l : Led) : Bool := l.number.toNat < Led.bound && l ∈ s.node.leds

/-- The events that switch a light: the light's own, and the end of the report. -/
def ledEvents (l : Led) (on : Bool) : List SentEvent :=
  [{ type := 17, code := l.number, value := if on then 1 else 0 },
    { type := 0, code := 0, value := 0 }]

/-- Switches a light. -/
def setLed (s : Session) (l : Led) (on : Bool) : Except Errno Unit × Session :=
  let (result, node) := s.node.send (ledEvents l on)
  (result, { s with node })

/-! ## Holding the device -/

/-- Takes the device, unless the session holds it already. -/
def grab (s : Session) : Except Errno Unit × Session :=
  if s.grabbed then (.ok (), s)
  else
    match s.node.setGrab true with
    | (.ok (), node) => (.ok (), { s with node, grabbed := true })
    | (.error errno, node) => (.error errno.lookedUp, { s with node })

/-- Gives the device back, if the session holds it. -/
def release (s : Session) : Except Errno Unit × Session :=
  if s.grabbed then
    match s.node.setGrab false with
    | (.ok (), node) => (.ok (), { s with node, grabbed := false })
    | (.error errno, node) => (.error errno.lookedUp, { s with node })
  else (.ok (), s)

/-- Makes sure that no other process holds the device. A failure to give it back is no reason not
to measure. -/
def checkGrab (s : Session) : Except Fault Unit × Session :=
  match s.grab with
  | (.error errno, s') => (.error (.cannotGrab s.path (.system errno)), s')
  | (.ok (), s') => (.ok (), s'.release.2)

/-! ## Events -/

/-- Gives out the next event, reading more when none is left. What was read is turned into events
all at once, so a record further on can spoil the ones before it. -/
def next (s : Session) : Except Fault Reading × Session :=
  match s.pending with
  | e :: rest => (.ok (.of e), { s with pending := rest })
  | [] =>
    match s.node.read with
    | (.error errno, node) =>
      (if errno = .wouldBlock then .ok .wouldBlock
        else .error (.cannotRead (.system errno.lookedUp)),
        { s with node })
    | (.ok raws, node) =>
      match RawEvent.events raws with
      | .error step => (.error (.overflow step), { s with node })
      | .ok [] => (.ok .wouldBlock, { s with node })
      | .ok (e :: rest) => (.ok (.of e), { s with node, pending := rest })

/-- What is still to be read or given out. -/
def ahead (s : Session) : Nat :=
  s.pending.length + s.node.queue.length + if s.node.torn then 1 else 0

/-- Every answer that ends neither in a fault nor in lost events uses something up, except that
nothing to read stays nothing to read. -/
theorem ahead_next {s s' : Session} {r : Reading} (h : s.next = (.ok r, s')) :
    s'.ahead ≤ s.ahead ∧ (r ≠ .wouldBlock ∨ s.node.readable → s'.ahead < s.ahead) := by
  unfold next at h
  split at h
  · next e rest hpending =>
    obtain ⟨_, rfl⟩ := Prod.mk.inj h
    simp [ahead, hpending]
  · next hpending =>
    split at h
    · next errno node hread =>
      obtain ⟨rfl, notReadable⟩ := Node.of_read_error hread
      obtain ⟨hr, rfl⟩ := Prod.mk.inj h
      split at hr
      · next blocked =>
        cases hr
        simp [notReadable blocked]
      · cases hr
    · next raws node hread =>
      have taken := Node.of_read_ok hread
      split at h
      · cases (Prod.mk.inj h).1
      · next hevents =>
        obtain ⟨_, rfl⟩ := Prod.mk.inj h
        have count := RawEvent.length_events hevents
        rcases taken with ⟨torn, rfl, rfl⟩ | ⟨_, some, _⟩
        · simp [ahead, hpending, torn]
        · exact absurd (List.length_eq_zero_iff.1 count.symm) some
      · next e rest hevents =>
        obtain ⟨_, rfl⟩ := Prod.mk.inj h
        have count := RawEvent.length_events hevents
        rcases taken with ⟨_, rfl, _⟩ | ⟨torn, _, queue⟩
        · cases count
        · have total := congrArg List.length queue
          simp only [List.length_append, List.length_cons] at total count
          simp only [ahead, hpending, torn, List.length_nil]
          exact ⟨by omega, fun _ => by omega⟩

theorem ahead_event {s s' : Session} {e : Event} (h : s.next = (.ok (.event e), s')) :
    s'.ahead < s.ahead :=
  (ahead_next h).2 (.inl (by simp))

instance : EventSource Session where
  next := next
  backlog := ahead
  backlog_next := ahead_event

end Session

end InputGauge
