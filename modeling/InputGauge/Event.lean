import InputGauge.Overflow

/-!
# Input events

What a kernel input device reports: records of a time, a type, a code and a value, and the events
that measurements work on. An event keeps the class of its type, its code and value, and the time
in whole microseconds. Not every time that a record can hold is one that a clock can tell.

A sync event closes the report that the events before it make up. A sync of code 3 says that the
kernel dropped events because the reader fell behind.
-/

namespace InputGauge

/-- The classes of events that measurements tell apart. -/
inductive EventKind where
  /-- The end of a report. -/
  | sync
  /-- A change of position. -/
  | relative
  /-- A position. -/
  | absolute
  /-- Any other type, by its number. -/
  | other (type : UInt16)
  deriving DecidableEq, Repr

/-- An event as measurements see it. -/
structure Event where
  kind : EventKind
  code : UInt16
  value : Int32
  /-- Microseconds since the epoch. -/
  time : UInt64
  deriving DecidableEq, Repr

namespace Event

/-- The code of a sync that reports dropped events. -/
abbrev dropped : UInt16 := 3

/-- The code of horizontal motion. -/
abbrev motionX : UInt16 := 0x00

/-- The codes of a horizontal position: of the pointer, and of one contact among several. -/
abbrev positionX : UInt16 := 0x00
abbrev contactX : UInt16 := 0x35

/-- The codes of a vertical position: of the pointer, and of one contact among several. -/
abbrev positionY : UInt16 := 0x01
abbrev contactY : UInt16 := 0x36

/-- Whether the event says that events before it were lost. -/
def isDropped (e : Event) : Bool := e.kind == .sync && e.code == dropped

end Event

/-- An event as the kernel hands it out: a time in seconds and microseconds, and the number of
its type. -/
structure RawEvent where
  seconds : Int64
  /-- Assumed to lie below 1000000, as a kernel fills it in. That the same length in nanoseconds has
  to fit 32 bits, as it does up to 4294967, is not modelled. -/
  microseconds : Nat
  type : UInt16
  code : UInt16
  value : Int32
  deriving DecidableEq, Repr

namespace RawEvent

/-- The class of an event type. -/
def kind (raw : RawEvent) : EventKind :=
  if raw.type = 0 then .sync
  else if raw.type = 2 then .relative
  else if raw.type = 3 then .absolute
  else .other raw.type

/-- As many seconds fit a length of time. -/
def longest : Nat := 0x10000000000000000

/-- As many seconds a clock reaches to either side of the epoch. -/
def reach : Nat := 0x8000000000000000

/-- How far the time lies from the epoch, in microseconds. The seconds are taken for a count of 64
bits without a sign, as they stand, also where the time lies before the epoch. -/
def length (raw : RawEvent) : Except Overflow Nat :=
  let length := raw.seconds.toUInt64.toNat * 1000000 + raw.microseconds
  if length / 1000000 < longest then .ok length else .error .length

/-- Microseconds since the epoch, modulo 2⁶⁴. A time before the epoch counts as the epoch; as its
seconds lose their sign, only the earliest of all can be told. -/
def time (raw : RawEvent) : Except Overflow UInt64 := do
  let length ← raw.length
  if 0 ≤ raw.seconds.toInt then
    if length / 1000000 < reach then .ok (UInt64.ofNat length) else .error .after
  else
    if length ≤ reach * 1000000 then .ok 0 else .error .before

/-- The event that a kernel record stands for. -/
def event (raw : RawEvent) : Except Overflow Event := do
  return { kind := raw.kind, code := raw.code, value := raw.value, time := ← raw.time }

/-- The events that a batch of records stands for. One time that cannot be told spoils them all. -/
def events : List RawEvent → Except Overflow (List Event)
  | [] => .ok []
  | raw :: rest => do
    let e ← raw.event
    let es ← events rest
    return e :: es

/-- Seconds from the epoch on stand for themselves. -/
theorem toNat_seconds {raw : RawEvent} (h : 0 ≤ raw.seconds.toInt) :
    raw.seconds.toUInt64.toNat = raw.seconds.toInt.toNat := by
  have bound := raw.seconds.toUInt64.toNat_lt
  have signed : raw.seconds.toInt = (raw.seconds.toUInt64.toNat : Int).bmod 0x10000000000000000 :=
    BitVec.toInt_eq_toNat_bmod _
  rw [signed] at h ⊢
  rw [Int.bmod_def] at h ⊢
  omega

theorem reach_lt_longest : reach < longest := by decide

/-- A time from the epoch on that a clock reaches is told as it is. -/
theorem time_of_lt_reach {raw : RawEvent} (h : 0 ≤ raw.seconds.toInt)
    (near : (raw.seconds.toInt.toNat * 1000000 + raw.microseconds) / 1000000 < reach) :
    raw.time =
      .ok (UInt64.ofNat (raw.seconds.toInt.toNat * 1000000 + raw.microseconds)) := by
  have fits := Nat.lt_trans near reach_lt_longest
  have known : raw.length = .ok (raw.seconds.toInt.toNat * 1000000 + raw.microseconds) := by
    rw [length, toNat_seconds h, if_pos fits]
  rw [time, known]
  exact (if_pos h).trans (if_pos near)

theorem events_cons (raw : RawEvent) (rest : List RawEvent) :
    events (raw :: rest) = raw.event.bind fun e => (events rest).map (e :: ·) := by
  rw [events]
  cases raw.event with
  | error o => rfl
  | ok e => cases events rest <;> rfl

/-- A batch gives as many events as it has records. -/
theorem length_events {raws : List RawEvent} {es : List Event} (h : events raws = .ok es) :
    es.length = raws.length := by
  induction raws generalizing es with
  | nil =>
    cases h
    rfl
  | cons raw rest ih =>
    rw [events_cons] at h
    cases he : raw.event with
    | error o =>
      rw [he] at h
      cases h
    | ok e =>
      cases hes : events rest with
      | error o =>
        rw [he, hes] at h
        cases h
      | ok es' =>
        rw [he, hes] at h
        cases h
        rw [List.length_cons, List.length_cons, ih hes]

end RawEvent

end InputGauge
