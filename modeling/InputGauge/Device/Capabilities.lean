import InputGauge.Device.Bus
import InputGauge.Overflow

/-!
# Capabilities

What a device says about itself: its name, its identity on the bus, and the range of its position
axes. The size of an axis follows from its range and resolution in the 32-bit arithmetic of these
numbers; a range or a quotient that does not fit is an error, not a wrapped number.
-/

namespace InputGauge

/-- All that the kernel keeps about an absolute axis. -/
structure AxisSettings where
  value : Int32
  minimum : Int32
  maximum : Int32
  fuzz : Int32
  flat : Int32
  resolution : Int32
  deriving DecidableEq, Repr

/-- The range of an axis. -/
structure AxisRange where
  minimum : Int32
  maximum : Int32
  /-- Units per millimetre, or zero if unknown. -/
  resolution : Int32
  deriving DecidableEq, Repr

/-- The range of an axis with certain settings. -/
def AxisSettings.range (s : AxisSettings) : AxisRange :=
  { minimum := s.minimum, maximum := s.maximum, resolution := s.resolution }

namespace AxisRange

/-- The range of an axis that a device does not have, where one must be shown. -/
def zero : AxisRange := { minimum := 0, maximum := 0, resolution := 0 }

/-- Whether a number fits 32 bits in two's complement. -/
def fits (n : Int) : Bool := Int32.minValue.toInt ≤ n && n ≤ Int32.maxValue.toInt

/-- The length of an axis in whole millimetres, rounded toward zero; none if the resolution is
unknown. -/
def size (r : AxisRange) : Except Overflow (Option Int) :=
  if r.resolution = 0 then .ok none
  else
    let span := r.maximum.toInt - r.minimum.toInt
    if !fits span then .error .subtract
    else if !fits (span.tdiv r.resolution.toInt) then .error .divide
    else .ok (some (span.tdiv r.resolution.toInt))

end AxisRange

/-- What a device says about itself. An axis that it does not have is none. -/
structure Capabilities where
  name : String
  bus : Bus
  vendor : UInt16
  product : UInt16
  x : Option AxisRange
  y : Option AxisRange
  contactX : Option AxisRange
  contactY : Option AxisRange
  deriving DecidableEq, Repr

namespace Capabilities

/-- Whether the device reports where its pointer is. -/
def hasPosition (c : Capabilities) : Bool := c.x.isSome && c.y.isSome

/-- Whether the device reports where each of several contacts is. -/
def hasContacts (c : Capabilities) : Bool := c.contactX.isSome && c.contactY.isSome

/-- Width and height in millimetres; none unless both are known. The height is not looked at
when the width is unknown. -/
def size (c : Capabilities) : Except Overflow (Option (Int × Int)) :=
  match c.x, c.y with
  | some x, y => do
    match ← x.size, y with
    | some width, some y => return (← y.size).map fun height => (width, height)
    | _, _ => return none
  | none, _ => .ok none

end Capabilities

end InputGauge
