import InputGauge.Device.AxisRequest
import InputGauge.Device.AxisTable
import InputGauge.Errno
import InputGauge.Event

/-!
# Device nodes

The kernel's side of an input device: what it says about itself, the events it has queued, the
settings it keeps, and a record of what was asked of it. Any of its calls may fail; a call that
fails changes nothing but the record.
-/

namespace InputGauge

/-- The error, if any, with which each call on a node fails. -/
structure Failures where
  /-- Asking whether the node is an input device at all. -/
  query : Option Errno := none
  /-- Asking for its identity on the bus. -/
  identify : Option Errno := none
  /-- Reading and changing the mode in which the node is open. -/
  getFlags : Option Errno := none
  setFlags : Option Errno := none
  /-- Reading the settings of the axes. -/
  readAxes : Option Errno := none
  /-- Changing the settings of an axis. -/
  setAxis : Option Errno := none
  /-- Taking the device for oneself, and giving it back. -/
  grab : Option Errno := none
  release : Option Errno := none
  /-- Sending events to the device. -/
  write : Option Errno := none
  /-- Reading events when none are queued. -/
  read : Option Errno := none
  deriving DecidableEq, Repr

/-- An event sent to a device. -/
structure SentEvent where
  type : UInt16
  code : UInt16
  value : Int32
  deriving DecidableEq, Repr

/-- A device node. -/
structure Node where
  name : String
  bus : UInt16
  vendor : UInt16
  product : UInt16
  /-- The settings of each axis that the device has. -/
  axes : AxisTable
  leds : List Led
  /-- The events that wait to be read. -/
  queue : List RawEvent
  /-- How many events the reads to come hand over at most; past the end, as many as fit. -/
  readSizes : List Nat := []
  /-- Whether the next read comes away with bytes that are no whole event. -/
  torn : Bool := false
  failures : Failures := {}
  /-- The requests to take (true) and to give back (false) the device, in order. -/
  grabs : List Bool := []
  /-- The events sent to the device, in order. -/
  sent : List SentEvent := []
  deriving DecidableEq

namespace Node

/-- The result of a call that fails with an error, if there is one. -/
def outcome : Option Errno → Except Errno Unit
  | none => .ok ()
  | some errno => .error errno

/-- The settings of all axes. A device without axes is not asked. -/
def readAxes (n : Node) : Except Errno AxisTable :=
  match n.failures.readAxes with
  | none => .ok n.axes
  | some errno => if n.axes.isEmpty then .ok n.axes else .error errno

/-- Replaces the settings of the axis that a request is for. On an axis that the device does not
have this succeeds and changes nothing. -/
def setAxis (n : Node) (request : Nat) (settings : AxisSettings) : Except Errno Unit × Node :=
  match AxisRequest.axis? request, n.failures.setAxis with
  | none, _ => (.error .invalidArgument, n)
  | some _, some errno => (.error errno, n)
  | some a, none => (.ok (), { n with axes := n.axes.replace a settings })

/-- Takes the device for the caller, or gives it back. -/
def setGrab (n : Node) (on : Bool) : Except Errno Unit × Node :=
  (outcome (if on then n.failures.grab else n.failures.release),
    { n with grabs := n.grabs ++ [on] })

/-- Sends events to the device, all of them or none. -/
def send (n : Node) (events : List SentEvent) : Except Errno Unit × Node :=
  match n.failures.write with
  | some errno => (.error errno, n)
  | none => (.ok (), { n with sent := n.sent ++ events })

/-- The most events that one read hands over. -/
def mostPerRead : Nat := 32

/-- How many events the next read hands over at most: at least one. -/
def readSize (n : Node) : Nat :=
  match n.readSizes with
  | [] => mostPerRead
  | size :: _ => max 1 (min size mostPerRead)

/-- Reads events. With none queued a read fails, unless it comes away with a torn event. -/
def read (n : Node) : Except Errno (List RawEvent) × Node :=
  if n.torn then (.ok [], { n with torn := false })
  else if n.queue.isEmpty then (.error (n.failures.read.getD .wouldBlock), n)
  else
    (.ok (n.queue.take n.readSize),
      { n with queue := n.queue.drop n.readSize, readSizes := n.readSizes.tail })

/-- Whether a read would come back at once with something other than "not now". -/
def readable (n : Node) : Bool :=
  n.torn || !n.queue.isEmpty || (n.failures.read.getD .wouldBlock != .wouldBlock)

theorem readSize_pos (n : Node) : 0 < n.readSize := by
  unfold readSize
  split
  · decide
  · omega

/-- A read that works takes the front of the queue, unless it comes away with a torn event. -/
theorem of_read_ok {n n' : Node} {raws : List RawEvent} (h : n.read = (.ok raws, n')) :
    n.torn ∧ raws = [] ∧ n' = { n with torn := false } ∨
      n'.torn = n.torn ∧ raws ≠ [] ∧ raws ++ n'.queue = n.queue := by
  have pos := n.readSize_pos
  unfold read at h
  split at h
  · next torn =>
    cases h
    exact .inl ⟨torn, rfl, rfl⟩
  · split at h
    · cases h
    · next queue =>
      cases h
      exact .inr ⟨rfl, by simp_all [List.take_eq_nil_iff]; omega, List.take_append_drop _ _⟩

/-- A read that fails changes nothing, and says "not now" only where no other answer is at hand. -/
theorem of_read_error {n n' : Node} {errno : Errno} (h : n.read = (.error errno, n')) :
    n' = n ∧ (errno = .wouldBlock → n.readable = false) := by
  unfold read at h
  split at h
  · cases h
  · next torn =>
    split at h
    · next queue =>
      cases h
      exact ⟨rfl, fun blocked => by simp [readable, torn, queue, blocked]⟩
    · cases h

end Node

end InputGauge
