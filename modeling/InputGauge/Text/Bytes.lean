/-!
# Byte strings

Arguments, paths and file contents reach a program as bytes that need not be text. They stay
bytes here until a rule asks for text; `InputGauge.Text.Utf8` says how they are read as text.
-/

namespace InputGauge

/-- A string of bytes as the operating system hands it over. -/
abbrev Bytes := List UInt8

namespace Bytes

/-- The byte that opens an option, `-`. -/
abbrev dash : UInt8 := 0x2d

/-- The byte between an option's name and its value, `=`. -/
abbrev equals : UInt8 := 0x3d

/-- The byte between the components of a path, `/`. -/
abbrev slash : UInt8 := 0x2f

/-- The bytes of a text. -/
def ofString (s : String) : Bytes := s.toUTF8.data.toList

/-- Whether the first byte is `-`. The empty string does not begin with anything. -/
def startsWithDash : Bytes → Bool
  | [] => false
  | b :: _ => b == dash

/-- The parts before and after the first `=`; the second is absent when there is no `=`. -/
def splitAtEquals : Bytes → Bytes × Option Bytes
  | [] => ([], none)
  | b :: rest =>
    if b = equals then ([], some rest)
    else ((b :: (splitAtEquals rest).1), (splitAtEquals rest).2)

end Bytes

end InputGauge
