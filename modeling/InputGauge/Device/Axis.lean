import InputGauge.Text.Numeral

/-!
# Axes and lights

The absolute axes and the lights that a device may have. The kernel numbers them, within fixed
bounds, and names most of the numbers. A user may give the number or, in any mixture of small
and capital letters, the name; what a user gives is within bounds. Other numbers can be written
down too, as an event can carry any number of 16 bits, but no device has what they number.
-/

namespace InputGauge

/-- An absolute axis, by its number. -/
structure Axis where
  number : UInt16
  deriving DecidableEq, Repr

/-- A light, by its number. -/
structure Led where
  number : UInt16
  deriving DecidableEq, Repr

/-- A numbered thing without a name is shown by its number. -/
def unnamed (number : Nat) : String := "unknown key: " ++ toString number

/-- ASCII letters in capitals; all else as it is. -/
def inCapitals (s : String) : String := String.ofList (s.toList.map Char.toUpper)

namespace Axis

/-- There is no axis with this number or a higher one. -/
abbrev bound : Nat := 64

/-- The axes that have a name. -/
def names : List (UInt16 × String) :=
  [(0, "ABS_X"), (1, "ABS_Y"), (2, "ABS_Z"), (3, "ABS_RX"), (4, "ABS_RY"), (5, "ABS_RZ"),
    (6, "ABS_THROTTLE"), (7, "ABS_RUDDER"), (8, "ABS_WHEEL"), (9, "ABS_GAS"), (10, "ABS_BRAKE"),
    (16, "ABS_HAT0X"), (17, "ABS_HAT0Y"), (18, "ABS_HAT1X"), (19, "ABS_HAT1Y"),
    (20, "ABS_HAT2X"), (21, "ABS_HAT2Y"), (22, "ABS_HAT3X"), (23, "ABS_HAT3Y"),
    (24, "ABS_PRESSURE"), (25, "ABS_DISTANCE"), (26, "ABS_TILT_X"), (27, "ABS_TILT_Y"),
    (28, "ABS_TOOL_WIDTH"), (32, "ABS_VOLUME"), (40, "ABS_MISC"), (47, "ABS_MT_SLOT"),
    (48, "ABS_MT_TOUCH_MAJOR"), (49, "ABS_MT_TOUCH_MINOR"), (50, "ABS_MT_WIDTH_MAJOR"),
    (51, "ABS_MT_WIDTH_MINOR"), (52, "ABS_MT_ORIENTATION"), (53, "ABS_MT_POSITION_X"),
    (54, "ABS_MT_POSITION_Y"), (55, "ABS_MT_TOOL_TYPE"), (56, "ABS_MT_BLOB_ID"),
    (57, "ABS_MT_TRACKING_ID"), (58, "ABS_MT_PRESSURE"), (59, "ABS_MT_DISTANCE"),
    (60, "ABS_MT_TOOL_X"), (61, "ABS_MT_TOOL_Y")]

/-- The horizontal and the vertical position of the pointer. -/
def x : Axis := ⟨0⟩
def y : Axis := ⟨1⟩

/-- The horizontal and the vertical position of one contact among several. -/
def contactX : Axis := ⟨53⟩
def contactY : Axis := ⟨54⟩

/-- The name of an axis. -/
def name (a : Axis) : String := (names.lookup a.number).getD (unnamed a.number.toNat)

/-- The axis with a name. -/
def ofName? (s : String) : Option Axis :=
  (names.find? fun entry => entry.2 == inCapitals s).map fun entry => ⟨entry.1⟩

/-- The axis with a number or a name. A number out of bounds is not tried as a name. -/
def parse? (s : String) : Option Axis :=
  match Numeral.uint16? s with
  | some n => if n.toNat < bound then some ⟨n⟩ else none
  | none => ofName? s

end Axis

namespace Led

/-- There is no light with this number or a higher one. -/
abbrev bound : Nat := 16

/-- The lights that have a name. -/
def names : List (UInt16 × String) :=
  [(0, "LED_NUML"), (1, "LED_CAPSL"), (2, "LED_SCROLLL"), (3, "LED_COMPOSE"), (4, "LED_KANA"),
    (5, "LED_SLEEP"), (6, "LED_SUSPEND"), (7, "LED_MUTE"), (8, "LED_MISC"), (9, "LED_MAIL"),
    (10, "LED_CHARGING")]

/-- The name of a light. -/
def name (l : Led) : String := (names.lookup l.number).getD (unnamed l.number.toNat)

/-- The light with a name. -/
def ofName? (s : String) : Option Led :=
  (names.find? fun entry => entry.2 == inCapitals s).map fun entry => ⟨entry.1⟩

/-- The light with a number or a name. A number out of bounds is not tried as a name. -/
def parse? (s : String) : Option Led :=
  match Numeral.uint16? s with
  | some n => if n.toNat < bound then some ⟨n⟩ else none
  | none => ofName? s

end Led

end InputGauge
