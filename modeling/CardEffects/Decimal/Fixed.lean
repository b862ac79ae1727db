/-
  CardEffects.Decimal.Fixed

  Numbers with a fixed number of places behind the point.  The exact value is rounded to the
  nearest number with that many places; of two equally near ones the even one is taken.
-/
import CardEffects.Decimal.Single

namespace CardEffects.Decimal

/-- The quotient rounded to the nearest integer, a half to the even one. -/
def roundDiv (num den : Nat) : Nat :=
  let q := num / den
  let twice := 2 * (num % den)
  if twice < den then q else if den < twice then q + 1 else q + q % 2

/-- The text of `n / 10 ^ places`. -/
def placeText (places n : Nat) : String :=
  let digits := Nat.toDigits 10 n
  let padded := List.replicate (places + 1 - digits.length) '0' ++ digits
  let whole := padded.take (padded.length - places)
  let fraction := padded.drop (padded.length - places)
  String.ofList (whole ++ '.' :: fraction)

/-- A non-negative number with the given number of places, one at least. -/
def fixed (places : Nat) (x : Float32) : String :=
  let v := Binary.ofSingle x
  let (num, den) := powerRatio 2 v.exponent
  placeText places (roundDiv (v.mantissa * num * Nat.pow 10 places) den)

end CardEffects.Decimal
