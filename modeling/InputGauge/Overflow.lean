/-!
# Overflow

Steps of fixed-width arithmetic whose exact result does not fit. Such a step gives no number at
all: where it is taken, what was to be computed breaks off.
-/

namespace InputGauge

/-- A step of arithmetic whose result does not fit. -/
inductive Overflow where
  /-- A difference of two 32-bit numbers. -/
  | subtract
  /-- A quotient of two 32-bit numbers. -/
  | divide
  /-- A length of time, in seconds of 64 bits. -/
  | length
  /-- The time that lies a certain length after the epoch, in signed seconds of 64 bits. -/
  | after
  /-- The time that lies a certain length before the epoch. -/
  | before
  deriving DecidableEq, Repr

namespace Overflow

/-- What an overflow says to the user. -/
def message : Overflow → String
  | subtract => "attempt to subtract with overflow"
  | divide => "attempt to divide with overflow"
  | length => "overflow in Duration::new"
  | after => "overflow when adding duration to `SystemTime`"
  | before => "overflow when subtracting duration from `SystemTime`"

end Overflow

end InputGauge
