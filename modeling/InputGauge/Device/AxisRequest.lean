import InputGauge.Device.Axis

/-!
# Requests that change an axis

The number by which the kernel is asked to change the settings of an axis. Its upper byte says to
which kind of device the request goes, its lower byte which request of that kind it is; there, the
axes begin at `0xc0`. The number of the axis is added as it stands. Beyond the bounds it spills
into the upper byte, and the kernel may then see a request for another axis, or none that it knows.
-/

namespace InputGauge.AxisRequest

/-- The upper byte of all requests to input devices. -/
def input : Nat := 0x45

/-- The lower byte of the request for the first axis. -/
def firstAxis : Nat := 0xc0

/-- The request that changes an axis. -/
def number (a : Axis) : Nat := input * 256 ||| (firstAxis + a.number.toNat)

/-- The axis that the kernel sees in a request, if the request changes one. -/
def axis? (number : Nat) : Option Axis :=
  if number / 256 % 256 = input ∧ firstAxis ≤ number % 256 then
    some ⟨UInt16.ofNat (number % 256 - firstAxis)⟩
  else none

/-- Within the bounds, the kernel changes the axis that it is asked to change. -/
theorem axis?_number (a : Axis) (h : a.number.toNat < Axis.bound) : axis? (number a) = some a := by
  have all : ∀ n : Fin Axis.bound, axis? (number ⟨UInt16.ofNat n⟩) = some ⟨UInt16.ofNat n⟩ := by
    decide
  simpa using all ⟨a.number.toNat, h⟩

end InputGauge.AxisRequest
