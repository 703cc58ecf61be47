import InputGauge.Binary64.Value

/-!
# Doubles in decimal

Rounding a double to a whole number and writing it with a fixed number of decimal places. Both
round the exact value once, in whole-number arithmetic, so no result is rounded twice.
-/

namespace InputGauge.Binary64

/-- Where a value halfway between two neighbours goes. -/
inductive Tie where
  /-- To the neighbour farther from zero. -/
  | away
  /-- To the neighbour that is even. -/
  | even
  deriving DecidableEq, Repr

/-- The whole number nearest to `num / den`. -/
def nearest (tie : Tie) (num den : Nat) : Nat :=
  let floor := num / den
  let excess := 2 * (num % den)
  if excess < den then floor
  else if den < excess then floor + 1
  else match tie with
    | .away => floor + 1
    | .even => floor + floor % 2

/-- The whole number nearest to `mantissa · 2 ^ exponent · 10 ^ places`. -/
def scaled (tie : Tie) (places mantissa : Nat) (exponent : Int) : Nat :=
  nearest tie ((mantissa * Nat.pow 10 places) <<< exponent.toNat) (1 <<< (-exponent).toNat)

/-- The nearest 64-bit whole number, ties away from zero. Values out of range go to the nearer
bound, and not-a-number to zero. -/
def round (x : Float) : Int :=
  let lowest := Int64.minValue.toInt
  let highest := Int64.maxValue.toInt
  let clamp (n : Int) : Int := max lowest (min n highest)
  match value x with
  | .nan => 0
  | .infinite negative => if negative then lowest else highest
  | .finite negative mantissa exponent =>
    let magnitude : Int := scaled .away 0 mantissa exponent
    clamp (if negative then -magnitude else magnitude)

/-- A number of units of the last decimal place, written with its point. -/
def withPoint (places units : Nat) : String :=
  let unit := Nat.pow 10 places
  let fraction := String.ofList ((Nat.toDigits 10 (units % unit)).leftpad places '0')
  let whole := toString (units / unit)
  if places = 0 then whole else whole ++ "." ++ fraction

/-- A double with a fixed number of decimal places, ties to even. The sign of zero is kept. -/
def fixed (places : Nat) (x : Float) : String :=
  let sign (negative : Bool) := if negative then "-" else ""
  match value x with
  | .nan => "NaN"
  | .infinite negative => sign negative ++ "inf"
  | .finite negative mantissa exponent =>
    sign negative ++ withPoint places (scaled .even places mantissa exponent)

/-- The nearest whole number is within half a unit. -/
theorem nearest_within_half (tie : Tie) (num : Nat) {den : Nat} (pos : 0 < den) :
    2 * (nearest tie num den * den) ≤ 2 * num + den ∧
      2 * num ≤ 2 * (nearest tie num den * den) + den := by
  have split : den * (num / den) + num % den = num := Nat.div_add_mod num den
  have small : num % den < den := Nat.mod_lt num pos
  have half : num / den % 2 = 0 ∨ num / den % 2 = 1 := by omega
  have times : (num / den) * den = den * (num / den) := Nat.mul_comm _ _
  have next : (num / den + 1) * den = den * (num / den) + den := by
    rw [Nat.add_mul, times, Nat.one_mul]
  unfold nearest
  simp only
  split
  · omega
  · split
    · omega
    · cases tie with
      | away => simp only; omega
      | even =>
        rcases half with even | odd
        · simp only [even, Nat.add_zero]; omega
        · simp only [odd]; omega

/-- A tie to even is even. -/
theorem nearest_even_of_tie {num den : Nat} (tie : 2 * (num % den) = den) :
    nearest .even num den % 2 = 0 := by
  unfold nearest
  simp only [tie, Nat.lt_irrefl, ↓reduceIte]
  omega

end InputGauge.Binary64
