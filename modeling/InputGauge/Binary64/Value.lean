/-!
# What a double stands for

The exact value of a double, read off its bits, and the total order on doubles: negative before
positive, by magnitude, with `-0` before `0` and the infinities and not-a-number outside the
finite values. Unlike `<`, the total order compares every two doubles.
-/

namespace InputGauge.Binary64

/-- The exact value of a double. A finite one is `±mantissa · 2 ^ exponent`. -/
inductive Value where
  | nan
  | infinite (negative : Bool)
  | finite (negative : Bool) (mantissa : Nat) (exponent : Int)
  deriving DecidableEq, Repr

/-- The weight of the sign bit, the highest of 64. -/
def signWeight : Nat := 0x8000000000000000

/-- The weight of the lowest bit of the exponent, above the 52 bits of the fraction. -/
def exponentWeight : Nat := 0x10000000000000

/-- The exact value of a double: one sign bit, eleven of the exponent, and 52 of the fraction,
which has a leading one unless the exponent field is zero. -/
def value (x : Float) : Value :=
  let bits := x.toBits.toNat
  let negative := decide (signWeight ≤ bits)
  let field := bits / exponentWeight % 0x800
  let fraction := bits % exponentWeight
  if field = 0x7ff then
    if fraction = 0 then .infinite negative else .nan
  else if field = 0 then .finite negative fraction (-1074)
  else .finite negative (exponentWeight + fraction) ((field : Int) - 1075)

/-- A double's place in the total order. -/
def rank (x : Float) : Int :=
  let bits := x.toBits.toNat
  if bits < signWeight then bits else (signWeight : Int) - 1 - bits

/-- The total order on doubles. -/
def atMost (x y : Float) : Bool := rank x ≤ rank y

theorem atMost_trans {x y z : Float} (hxy : atMost x y) (hyz : atMost y z) : atMost x z := by
  simp only [atMost, decide_eq_true_eq] at *
  omega

theorem atMost_total (x y : Float) : atMost x y || atMost y x := by
  simp only [atMost, Bool.or_eq_true, decide_eq_true_eq]
  omega

end InputGauge.Binary64
