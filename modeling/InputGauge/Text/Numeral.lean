/-!
# Numerals

Reading decimal numerals of a fixed-width type, and the fixed-width forms in which numbers are
written: right-aligned columns and four hexadecimal digits.

A numeral is an optional sign and one or more ASCII digits, with any number of leading zeros.
`-` is a sign only where the type has negative numbers. A numeral out of range is none.
-/

namespace InputGauge.Numeral

/-- The value of one or more ASCII digits. -/
def digits? (cs : List Char) : Option Nat :=
  if cs ≠ [] ∧ cs.all Char.isDigit then some (Nat.ofDigitChars 10 cs 0) else none

/-- The value of digits after an optional `+`. -/
def unsigned? : List Char → Option Nat
  | '+' :: cs => digits? cs
  | cs => digits? cs

/-- The value of digits after an optional `+` or `-`. -/
def signed? : List Char → Option Int
  | '-' :: cs => (digits? cs).map fun n => -(n : Int)
  | cs => (unsigned? cs).map fun n => (n : Int)

/-- A numeral of 16 bits without sign. -/
def uint16? (s : String) : Option UInt16 :=
  (unsigned? s.toList).bind fun n => if n < UInt16.size then some (UInt16.ofNat n) else none

/-- A numeral of 32 bits in two's complement. -/
def int32? (s : String) : Option Int32 :=
  (signed? s.toList).bind fun n =>
    if Int32.minValue.toInt ≤ n ∧ n ≤ Int32.maxValue.toInt then some (Int32.ofInt n) else none

/-- A text right-aligned in a column; a text wider than the column is kept whole. -/
def column (width : Nat) (s : String) : String := String.ofList (s.toList.leftpad width ' ')

/-- The four hexadecimal digits of 16 bits, most significant first. -/
def hexDigits (n : UInt16) : List Char :=
  [n.toNat / 4096 % 16, n.toNat / 256 % 16, n.toNat / 16 % 16, n.toNat % 16].map Nat.digitChar

/-- Four hexadecimal digits with small letters. -/
def hex (n : UInt16) : String := String.ofList (hexDigits n)

/-- Four hexadecimal digits with capital letters. -/
def hexCapital (n : UInt16) : String := String.ofList ((hexDigits n).map Char.toUpper)

end InputGauge.Numeral
