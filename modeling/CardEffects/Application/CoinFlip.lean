/-
  CardEffects.Application.CoinFlip

  Effects that flip coins: damage or energy for each heads, and a consequence when all coins
  show one face.  The flips are noted in front of what came of them.
-/
import CardEffects.Application.Condition
import CardEffects.Application.Energy
import CardEffects.Application.Healing

namespace CardEffects.Application

/-- A face in words; `true` is heads. -/
def faceName (heads : Bool) : String := if heads then "heads" else "tails"

/-- Flips in words. -/
def describeFlips : List Bool → String
  | [] => "no coins to flip"
  | flip :: rest => "flipped " ++ ", ".intercalate ((flip :: rest).map faceName)

/-- Damage for each heads. -/
def coinFlipDamage (s : Setting) (b : Board) (coins : CoinCount) (perHeads : Word) :
    Outcome × Board :=
  let (flips, b) := b.flip s coins
  let heads := Coins.headsCount flips
  let bonus := Word.mul heads perHeads
  ((Outcome.ofBonus .coinFlipDamage bonus
      [heads.text ++ " heads, +" ++ bonus.text ++ " damage"]).afterFlips flips
        (describeFlips flips), b)

/-- Energy for each heads. -/
def coinFlipEnergy (s : Setting) (b : Board) (coins : CoinCount) (perHeads : Word)
    (energy : EnergySpec) (target : EnergyTarget) : Outcome × Board :=
  let (flips, b) := b.flip s coins
  let units := Word.mul (Coins.headsCount flips) perHeads
  let (outcome, b) := attach b .coinFlipEnergy (energyOf b energy) units target
  (outcome.afterFlips flips (describeFlips flips), b)

/-- Whether all flips show the wanted face. -/
def allShow (wanted : CoinFace) (flips : List Bool) : Bool :=
  flips.all fun heads => heads == (wanted == .heads)

/-- What a consequence does, with the note on the flips that brought it about. -/
def consequence (s : Setting) (b : Board) (note : String) : FlipConsequence → Outcome × Board
  | .bonusDamage amount =>
    ({ kind := .coinFlipConditional, status := .applied, bonus := amount,
       notes := [note ++ ", +" ++ amount.text ++ " damage"] }, b)
  | .attackFails =>
    ({ kind := .coinFlipConditional, status := .applied, negates := true,
       notes := [note ++ ", the attack does nothing"] }, b)
  | .condition c target => lead note (inflict s b .coinFlipConditional c target)
  | .heal amount => lead note (heal b .coinFlipConditional .this (some amount))
  | .discard d => lead note (discard b .coinFlipConditional d)
where
  /-- Puts a note in front. -/
  lead (note : String) (r : Outcome × Board) : Outcome × Board :=
    ({ r.1 with notes := note :: r.1.notes }, r.2)

/-- A consequence when all of the coins, one at least, show the wanted face. -/
def coinFlipConditional (s : Setting) (b : Board) (coins : Word) (wanted : CoinFace)
    (c : FlipConsequence) : Outcome × Board :=
  let (flips, left) := b.coins.flips (max coins.toNat 1)
  let b := { b with coins := left }
  let note := describeFlips flips
  let (outcome, b) :=
    if allShow wanted flips then consequence s b note c
    else (.noEffect .coinFlipConditional (note ++ ", nothing happens"), b)
  ({ outcome with flips := [FlipRecord.ofFlips .coinFlipConditional flips] }, b)

end CardEffects.Application
