import InputGauge.CommandLine.Argument

/-!
# Command lines that name a device

The command line of a tool that only needs a device: the program's name, the device, and whatever
else. One `--` may stand before the device.

What follows the device is ignored, with one exception: unless the options were ended before the
device, the argument right after it is still looked at as an option might be, and one whose name
is not text spoils the command line. From there on nothing is looked at.
-/

namespace InputGauge.CommandLine

/-- Whether bytes may name a device. What begins with `-` is taken for a mistyped option. -/
def isDevice (path : Bytes) : Bool := !path.isEmpty && !path.startsWithDash

/-- The device that a command line names. -/
def device? (argv : List Bytes) : Option Bytes :=
  match argv.tail with
  | [] => none
  | first :: rest =>
    if Argument.of first = .endOfOptions then rest.head?.filter isDevice
    else if rest.head?.any fun next => (Argument.of next).isGarbled then none
    else (some first).filter isDevice

/-- With the options ended, the first argument after that decides alone. -/
theorem device?_endOfOptions (program : Bytes) (rest : List Bytes) :
    device? (program :: [Bytes.dash, Bytes.dash] :: rest) = rest.head?.filter isDevice := by
  simp [device?, Argument.of]

/-- Text after the device never matters. -/
theorem device?_of_not_garbled (program path : Bytes) (rest : List Bytes)
    (device : isDevice path)
    (text : ∀ next ∈ rest.head?, (Argument.of next).isGarbled = false) :
    device? (program :: path :: rest) = some path := by
  have notEnd : Argument.of path ≠ .endOfOptions := by
    intro h
    unfold Argument.of at h
    split at h <;> simp_all [isDevice, Bytes.startsWithDash]
  cases rest with
  | nil => simp [device?, notEnd, device]
  | cons next rest => simp [device?, notEnd, device, text next (by simp)]

end InputGauge.CommandLine
