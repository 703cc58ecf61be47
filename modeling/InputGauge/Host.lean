import InputGauge.FileTree
import InputGauge.Session.Attended

/-!
# Hosts

What a tool finds around it: the files that it can open, the identity of the machine, and the
means to wait for events or for the user.

No tool looks into a path, so what a path leads to may be anything. Among the files of a
`FileTree` it is what following the path gives (`Host.ofFiles`).
-/

namespace InputGauge

/-- What a tool finds around it. -/
structure Host where
  /-- The device node that a path leads to; none if what is there opens, but is no device. -/
  device? : Bytes → Except Cause (Option Node)
  /-- The file that holds the identity of the machine. -/
  identity : Option Bytes := none
  /-- The errors, if any, of the two steps that let the user's interrupt be waited for: keeping it
  from ending the tool, and getting a descriptor that reports it. -/
  holdInterrupt : Option Errno := none
  interruptDescriptor : Option Errno := none
  /-- The errors, if any, with which the waits to come fail. -/
  waits : List (Option Errno) := []

namespace Host

/-- A host with the files of a tree, on which all else works. -/
def ofFiles (files : FileTree) : Host := { device? := files.device? }

/-- Opens the device that a path leads to. A file that is no device does not answer the first
question that only a device understands. -/
def openSession (h : Host) (path : Bytes) : Except Fault Session :=
  match h.device? path with
  | .error cause => .error (.ofOpening cause)
  | .ok none => .error (.ofOpening (.system .notTypewriter))
  | .ok (some node) => Session.establish node path

/-- Gets ready to wait for the user's interrupt. -/
def armInterrupt (h : Host) : Except Fault Unit :=
  match h.holdInterrupt, h.interruptDescriptor with
  | some errno, _ | none, some errno => .error (.cannotWait (.system errno))
  | none, none => .ok ()

end Host

end InputGauge
