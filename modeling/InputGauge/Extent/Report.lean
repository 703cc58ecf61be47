import InputGauge.Device.Capabilities
import InputGauge.Extent.Basic
import InputGauge.Text.Blank
import InputGauge.Text.Numeral
import InputGauge.Text.Utf8

/-!
# The report on an extent

The ranges that the kernel advertises, and a rule that replaces them by the measured ones. The
resolution is left to fill in, since only the user can measure the touchpad.

The rule has to match the one device. On a bus where vendor and product identify a device they
are the match; elsewhere the device's name is, together with the machine's own identity.
-/

namespace InputGauge

/-- A range as `minimum..maximum`. -/
def AxisRange.shown (r : AxisRange) : String :=
  "[" ++ toString r.minimum.toInt ++ ".." ++ toString r.maximum.toInt ++ "]"

namespace Capabilities

/-- The ranges that the kernel advertises. -/
def kernelRanges (c : Capabilities) : String :=
  "Kernel says:\tx " ++ (c.x.getD .zero).shown ++ ", y " ++ (c.y.getD .zero).shown

/-- What identifies the device in a rule; `machine` is the identity of the machine it is in. -/
def matchKey (c : Capabilities) (machine : String) : String :=
  if c.bus.hasIds then
    "input:b" ++ Numeral.hexCapital c.bus.number ++ "v" ++ Numeral.hexCapital c.vendor ++ "p" ++
      Numeral.hexCapital c.product
  else "name:" ++ c.name ++ ":" ++ machine

/-- The physical size as the kernel has it. -/
def sizeLine (c : Capabilities) : Except Overflow String := do
  match ← c.size with
  | some (width, height) =>
    return "Touchpad size as listed by the kernel: " ++ toString width ++ "x" ++
      toString height ++ "mm\n"
  | none => return "Touchpad has no resolution, size unknown\n"

end Capabilities

namespace Extent

/-- The settings of one axis in a rule. -/
def ruleLine (axis lower upper resolution : String) : String :=
  " EVDEV_ABS_" ++ axis ++ "=" ++ lower ++ ":" ++ upper ++ ":<" ++ resolution ++ " resolution>\n"

/-- The settings of a horizontal and a vertical axis in a rule. -/
def ruleLines (d : Extent) (x y : String) : String :=
  ruleLine x (toString d.left.toInt) (toString d.right.toInt) "x" ++
    ruleLine y (toString d.top.toInt) (toString d.bottom.toInt) "y"

/-- The rule that replaces the advertised ranges by the measured ones. The axes of contacts, where
the device has them, get the ranges of the pointer. -/
def rule (d : Extent) (c : Capabilities) (machine : String) : String :=
  "Calculate resolution as:\n" ++
    "\tx axis: " ++ toString d.width ++ "/<width in mm>\n" ++
    "\ty axis: " ++ toString d.height ++ "/<height in mm>\n" ++
    "\n" ++
    "Suggested udev rule:\n" ++
    "# <Laptop model description goes here>\n" ++
    "evdev:" ++ c.matchKey machine ++ "*\n" ++
    d.ruleLines "00" "01" ++
    if c.hasContacts then d.ruleLines "35" "36" else ""

/-- What to do when an axis has no sample. -/
def retryHint : String :=
  "No touchpad positions received on both axes.\n" ++
    "Move one finger along all edges of the touchpad and run again.\n"

/-- The report: the size, and the rule if both axes have samples. -/
def report (d : Extent) (c : Capabilities) (machine : String) : Except Overflow String := do
  let size ← c.sizeLine
  return size ++ if d.hasX && d.hasY then d.rule c machine else retryHint

end Extent

/-- The identity of a machine from the file that holds it, without the blanks around it. A
placeholder stands for a file that is missing or is not text. -/
def machineIdentity (content : Option Bytes) : String :=
  match content.bind Utf8.decode? with
  | some text => Text.trimBlank text
  | none => "ERROR READING DMI MODALIAS"

end InputGauge
