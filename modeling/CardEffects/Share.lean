/-
  CardEffects.Share

  Shares: a number of hits out of a total, kept exact.  As a number a share is the quotient
  rounded to single precision.
-/

namespace CardEffects

/-- A number of hits out of a total. -/
structure Share where
  hits : Nat
  total : Nat
  deriving DecidableEq, Repr

namespace Share

/-- All of it. -/
def whole : Share := ⟨1, 1⟩

/-- None of it. -/
def none : Share := ⟨0, 1⟩

/-- The quotient in single precision; zero out of nothing is zero. -/
def toFloat32 (s : Share) : Float32 :=
  if s.total = 0 then 0 else Float32.ofNat s.hits / Float32.ofNat s.total

/-- The quotient, rounded to single precision and then taken as a double. -/
def toFloat (s : Share) : Float := s.toFloat32.toFloat

end Share

end CardEffects
