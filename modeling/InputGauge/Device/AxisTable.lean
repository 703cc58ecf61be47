import InputGauge.Device.Axis
import InputGauge.Device.Capabilities

/-!
# Axis tables

The settings of the axes that a device has, one place for every axis that there may be. A number
out of bounds has no place, so no device has that axis.
-/

namespace InputGauge

/-- The settings of the axes that a device has. -/
structure AxisTable where
  places : Vector (Option AxisSettings) Axis.bound
  deriving DecidableEq

namespace AxisTable

/-- The table of a device whose axes are given one by one. -/
def ofFn (settings : Axis → Option AxisSettings) : AxisTable :=
  { places := Vector.ofFn fun number => settings ⟨UInt16.ofNat number⟩ }

/-- The settings of an axis; none if the device does not have it. -/
def get? (t : AxisTable) (a : Axis) : Option AxisSettings := (t.places[a.number.toNat]?).join

/-- Whether the device has an axis. -/
def contains (t : AxisTable) (a : Axis) : Bool := (t.get? a).isSome

/-- Whether the device has no axis at all. -/
def isEmpty (t : AxisTable) : Bool := !t.places.any Option.isSome

/-- Replaces the settings of an axis. An axis that the device does not have stays away. -/
def replace (t : AxisTable) (a : Axis) (settings : AxisSettings) : AxisTable :=
  if t.contains a then { places := t.places.setIfInBounds a.number.toNat (some settings) } else t

theorem get?_ofFn (settings : Axis → Option AxisSettings) (a : Axis) :
    (ofFn settings).get? a = if a.number.toNat < Axis.bound then settings a else none := by
  by_cases within : a.number.toNat < Axis.bound
  · simp [ofFn, get?, within]
  · simp [get?, within]

/-- No device has an axis with a number out of bounds. -/
theorem number_lt_of_contains {t : AxisTable} {a : Axis} (h : t.contains a) :
    a.number.toNat < Axis.bound := by
  unfold contains get? at h
  by_cases within : a.number.toNat < Axis.bound
  · exact within
  · simp [within] at h

/-- Only the one axis changes, and only if the device has it. -/
theorem get?_replace (t : AxisTable) (a b : Axis) (settings : AxisSettings) :
    (t.replace a settings).get? b =
      if a = b ∧ t.contains a then some settings else t.get? b := by
  unfold replace
  by_cases present : t.contains a
  · have within := number_lt_of_contains present
    by_cases same : a = b
    · subst same
      simp [present, get?, within]
    · have other : a.number.toNat ≠ b.number.toNat := fun h =>
        same (by cases a; cases b; simp only [Axis.mk.injEq]; exact UInt16.toNat_inj.1 h)
      simp [present, same, get?, other]
  · simp [present]

end AxisTable

end InputGauge
