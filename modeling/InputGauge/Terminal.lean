import InputGauge.Errno

/-!
# The terminal

Where the status line is shown. A terminal may have room for only so many bytes, and may stop
taking flushes; without such bounds it takes everything. What did fit before a failure stays
written.
-/

namespace InputGauge

/-- What was written, and how much more the terminal will take; no bound means no end. -/
structure Terminal where
  written : ByteArray
  /-- The bytes that still fit. -/
  room : Option Nat
  /-- The flushes that will still succeed. -/
  flushes : Option Nat

namespace Terminal

/-- A terminal on which nothing was written. -/
def blank (room flushes : Option Nat) : Terminal := { written := .empty, room, flushes }

/-- A terminal that takes everything. -/
def endless : Terminal := blank none none

/-- Writes as many of the bytes as fit, and fails if that is not all of them. -/
def write (t : Terminal) (bytes : ByteArray) : Except Errno Unit × Terminal :=
  match t.room with
  | none => (.ok (), { t with written := t.written ++ bytes })
  | some room =>
    if bytes.size ≤ room then
      (.ok (), { t with written := t.written ++ bytes, room := some (room - bytes.size) })
    else
      (.error .noSpace,
        { t with written := t.written ++ bytes.extract 0 room, room := some 0 })

/-- Hands on what was written. -/
def flush (t : Terminal) : Except Errno Unit × Terminal :=
  match t.flushes with
  | none => (.ok (), t)
  | some 0 => (.error .brokenPipe, t)
  | some (left + 1) => (.ok (), { t with flushes := some left })

/-- Shows a line over the last one: a carriage return, then the line, then a flush. The first of
the three that fails is the last. -/
def redraw (t : Terminal) (line : String) : Except Errno Unit × Terminal :=
  match t.write "\r".toUTF8 with
  | (.error errno, t) => (.error errno, t)
  | (.ok (), t) =>
    match t.write line.toUTF8 with
    | (.error errno, t) => (.error errno, t)
    | (.ok (), t) => t.flush

/-- Writes a text on a terminal that takes everything. -/
def print (t : Terminal) (text : String) : Terminal := (t.write text.toUTF8).2

end Terminal

end InputGauge
