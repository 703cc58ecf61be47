/-!
# Buses

How a device is attached, as the kernel numbers it, and the names by which hardware databases
refer to it.
-/

namespace InputGauge

/-- How a device is attached. -/
inductive Bus where
  | pci
  | isapnp
  | usb
  | hil
  | bluetooth
  | virtual
  /-- Any other bus, by its number. -/
  | other (number : UInt16)
  deriving DecidableEq, Repr

namespace Bus

/-- The bus with a number. -/
def ofNumber (n : UInt16) : Bus :=
  if n = 1 then pci
  else if n = 2 then isapnp
  else if n = 3 then usb
  else if n = 4 then hil
  else if n = 5 then bluetooth
  else if n = 6 then virtual
  else other n

/-- The number of a bus. -/
def number : Bus → UInt16
  | pci => 1
  | isapnp => 2
  | usb => 3
  | hil => 4
  | bluetooth => 5
  | virtual => 6
  | other n => n

/-- The name of a bus in a hardware database. -/
def name : Bus → String
  | pci => "pci"
  | isapnp => "isapnp"
  | usb => "usb"
  | hil => "hil"
  | bluetooth => "bluetooth"
  | virtual => "virtual"
  | other _ => "unknown bus type"

/-- Whether the numbers of vendor and product tell devices on the bus apart. -/
def hasIds : Bus → Bool
  | usb | bluetooth => true
  | _ => false

/-- A bus keeps the number it was made from. -/
theorem number_ofNumber (n : UInt16) : (ofNumber n).number = n := by
  grind [ofNumber, number]

end Bus

end InputGauge
