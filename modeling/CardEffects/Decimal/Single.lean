/-
  CardEffects.Decimal.Single

  The exact value of a non-negative number in single precision, as a mantissa times a power of
  two.
-/

namespace CardEffects.Decimal

/-- The number `mantissa * 2 ^ exponent`. -/
structure Binary where
  mantissa : Nat
  exponent : Int
  deriving DecidableEq, Repr

/-- The least mantissa of a number that is not subnormal, `2 ^ 23`. -/
def leastNormal : Nat := 8388608

/-- The exponent of the subnormal numbers, the least there is. -/
def leastExponent : Int := -149

/-- The value of a finite number without its sign. -/
def Binary.ofSingle (x : Float32) : Binary :=
  let bits := x.toBits.toNat
  let fraction := bits % leastNormal
  let biased := bits / leastNormal % 256
  if biased = 0 then ⟨fraction, leastExponent⟩
  else ⟨fraction + leastNormal, biased + leastExponent - 1⟩

/-- Numerator and denominator of a power. -/
def powerRatio (base : Nat) : Int → Nat × Nat
  | .ofNat n => (base.pow n, 1)
  | .negSucc n => (1, base.pow (n + 1))

end CardEffects.Decimal
