/-
  CardEffects.Decimal.Shortest

  The shortest decimal that reads back as a given number in single precision; of two equally
  short ones, the nearer.  Numbers of moderate size are written with a point, others with an
  exponent.
-/
import CardEffects.Decimal.Single

namespace CardEffects.Decimal

/-! ## Which decimals read back -/

/-- The reals that are rounded to a number, in quarters of the unit in its last place. -/
structure Interval where
  low : Nat
  high : Nat
  /-- Whether the ends belong to it: they do for an even mantissa. -/
  closed : Bool
  deriving DecidableEq, Repr

/-- The interval of a positive number.  Below a power of two the next number is only half as
far away. -/
def Interval.of (v : Binary) : Interval where
  low :=
    if v.mantissa = leastNormal ∧ leastExponent < v.exponent then 4 * v.mantissa - 1
    else 4 * v.mantissa - 2
  high := 4 * v.mantissa + 2
  closed := v.mantissa % 2 = 0

/-- Whether `num / den` lies in an interval. -/
def Interval.holds (i : Interval) (num den : Nat) : Bool :=
  if i.closed then i.low * den ≤ num && num ≤ i.high * den
  else i.low * den < num && num < i.high * den

/-! ## The search -/

/-- The multiple of `10 ^ e` that reads back as `v`, given by its factor: of the two beside
`v` the one in the interval, and of both the nearer. -/
def onGrid? (v : Binary) (e : Int) : Option Nat :=
  let (ten, tenth) := powerRatio 10 e
  let (two, half) := powerRatio 2 (v.exponent - 2)
  -- a factor `d` stands at `d * step / den` quarter units
  let step := ten * half
  let den := tenth * two
  let below := 4 * v.mantissa * den / step
  let above := below + 1
  let i := Interval.of v
  let short := 4 * v.mantissa * den - below * step
  let excess := above * step - 4 * v.mantissa * den
  match i.holds (below * step) den, i.holds (above * step) den with
  | true, false => some below
  | false, true => some above
  | true, true =>
    if short < excess ∨ short = excess ∧ below % 2 = 0 then some below else some above
  | false, false => none

/-- The first grid among `10 ^ top`, `10 ^ (top - 1)`, … with a hit: the factor and the
exponent. -/
def searchFrom (v : Binary) (top : Int) : Nat → Option (Nat × Int)
  | 0 => none
  | fuel + 1 =>
    match onGrid? v top with
    | some d => some (d, top)
    | none => searchFrom v (top - 1) fuel

/-- The largest power of ten below the greatest number. -/
def greatestPower : Int := 38

/-- How many grids there are: the finest, that of `10 ^ -45`, has every number on it. -/
def gridCount : Nat := 84

/-- The shortest decimal of a positive number: its digits as a number, and its exponent. -/
def shortest? (v : Binary) : Option (Nat × Int) :=
  if v.mantissa = 0 then none else searchFrom v greatestPower gridCount

/-! ## Writing -/

/-- The decimal `digits * 10 ^ e` in text.  Up to thirteen digits before the point and down to
five zeros behind it are written out; a whole number ends in a zero behind the point. -/
def write (digits : List Char) (e : Int) : String :=
  let point := digits.length + e
  let text :=
    if 0 ≤ e ∧ point ≤ 13 then digits ++ List.replicate e.toNat '0' ++ ['.', '0']
    else if 0 < point ∧ point ≤ 13 then
      digits.take point.toNat ++ '.' :: digits.drop point.toNat
    else if -6 < point ∧ point ≤ 0 then
      '0' :: '.' :: List.replicate (-point).toNat '0' ++ digits
    else
      let exponent := (toString (point - 1)).toList
      match digits with
      | [d] => d :: 'e' :: exponent
      | d :: rest => d :: '.' :: rest ++ 'e' :: exponent
      | [] => exponent
  String.ofList text

/-- The text of a finite number that is not negative. -/
def shortestText (x : Float32) : String :=
  match shortest? (Binary.ofSingle x) with
  | some (d, e) => write (Nat.toDigits 10 d) e
  | none => "0.0"

end CardEffects.Decimal
