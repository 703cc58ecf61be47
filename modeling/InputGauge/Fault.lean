import InputGauge.Errno
import InputGauge.Overflow

/-!
# Faults

Everything that can go wrong between a command line and a report, by cause. A fault carries what
its message needs, and the wording stands in one place, `Fault.message`.
-/

namespace InputGauge

/-- What went wrong. -/
inductive Fault where
  /-- The device node cannot be opened. -/
  | cannotOpen (cause : Cause)
  /-- The node opens but does not answer as an input device. -/
  | noDeviceInfo (cause : Cause)
  /-- Another process holds the device for itself. -/
  | cannotGrab (path : String) (cause : Cause)
  /-- The device lacks a pointer position on one axis. -/
  | noPositionAxes
  /-- The kernel dropped events. -/
  | cannotKeepUp
  /-- Reading events failed. -/
  | cannotRead (cause : Cause)
  /-- No axis has this name or number. -/
  | unknownAxis (name : String)
  /-- No light has this name or number. -/
  | unknownLed (name : String)
  /-- The device does not have the axis. -/
  | missingAxis (device axis : String)
  /-- The device does not have the light. -/
  | missingLed (device led : String)
  /-- The kernel rejected the new settings of an axis. -/
  | cannotSetAxis (axis : String) (cause : Cause)
  /-- A light could not be switched. -/
  | cannotSetLed (led : String) (cause : Cause)
  /-- Waiting for events or for an interrupt failed. -/
  | cannotWait (cause : Cause)
  /-- Showing the status line failed. -/
  | cannotWrite (cause : Cause)
  /-- A number on the way to an event did not fit. -/
  | overflow (step : Overflow)
  deriving DecidableEq, Repr

namespace Fault

/-- The failed call behind a fault, if there was one. -/
def cause? : Fault → Option Cause
  | cannotOpen c | noDeviceInfo c | cannotGrab _ c | cannotRead c | cannotSetAxis _ c
  | cannotSetLed _ c | cannotWait c | cannotWrite c => some c
  | noPositionAxes | cannotKeepUp | unknownAxis _ | unknownLed _ | missingAxis _ _
  | missingLed _ _ | overflow _ => none

/-- What a fault says to the user. -/
def message : Fault → String
  | cannotOpen c => "Error opening the device: " ++ c.message
  | noDeviceInfo c => "Error fetching the device info: " ++ c.message
  | cannotGrab path _ =>
    "Error: cannot grab the device, something else is grabbing it.\nUse 'fuser -v " ++ path ++
      "' to find processes with an open fd"
  | noPositionAxes => "Error: this device does not have abs axes"
  | cannotKeepUp => "Error: cannot keep up"
  | cannotRead c => "Error: " ++ c.message
  | unknownAxis name => "Error: unknown axis '" ++ name ++ "'"
  | unknownLed name => "Error: unknown LED '" ++ name ++ "'"
  | missingAxis device axis => "Device '" ++ device ++ "' doesn't have axis " ++ axis
  | missingLed device led => "Device '" ++ device ++ "' doesn't have " ++ led
  | cannotSetAxis axis c => "Failed to set absinfo " ++ axis ++ ": " ++ c.message
  | cannotSetLed led c => "Failed to set LED " ++ led ++ ": " ++ c.message
  | cannotWait c => "Error setting up signal handling: " ++ c.message
  | cannotWrite c => "I/O error: " ++ c.message
  | overflow step => step.message

/-- The errors that mean a node could not be reached at all. -/
def unreachable : List Errno :=
  [.noEntry, .notDirectory, .accessDenied, .notPermitted, .isDirectory, .tooManyLinks,
    .nameTooLong, .noDeviceOrAddress, .readOnlyFileSystem, .busy]

/-- The fault of a failed attempt to open and question a node. The attempt does not say which of
its steps failed, so the error number decides. -/
def ofOpening : Cause → Fault
  | .system errno =>
    if errno ∈ unreachable then cannotOpen (.system errno) else noDeviceInfo (.system errno)
  | cause => noDeviceInfo cause

end Fault

end InputGauge
