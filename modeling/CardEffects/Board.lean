/-
  CardEffects.Board

  The board while a text is carried out: the acting Pokémon, the one it faces, and the coins;
  and the setting that stays fixed meanwhile.
-/
import CardEffects.Card
import CardEffects.Combatant
import CardEffects.Config
import CardEffects.Outcome

namespace CardEffects

/-- What stays fixed while a text is carried out. -/
structure Setting where
  config : Config
  turn : Word
  /-- The attack the text belongs to, if it belongs to one. -/
  attack : Option Attack := none
  deriving DecidableEq, Repr

/-- The two sides of the table, and the coins. -/
structure Board where
  attacker : Combatant
  defender : Option Combatant
  coins : Coins
  deriving DecidableEq

/-! ## Sides -/

/-- The participant that stands for a side. -/
def Side.participant : Side → Participant
  | own => .attacker
  | opponent => .defender

/-- The side a condition is inflicted on. -/
def ConditionTarget.side : ConditionTarget → Side
  | this => .own
  | opponent => .opponent

namespace Board

/-- The active Pokémon of a side, if there is one. -/
def active? (b : Board) : Side → Option Combatant
  | .own => some b.attacker
  | .opponent => b.defender

/-- Puts a Pokémon in the place of the active one of a side. -/
def put (b : Board) (side : Side) (c : Combatant) : Board :=
  match side with
  | .own => { b with attacker := c }
  | .opponent => { b with defender := some c }

/-- The board with the sides changed, when there are two. -/
def swap? (b : Board) : Option Board :=
  b.defender.map fun d => { b with attacker := d, defender := some b.attacker }

/-! ## Coins -/

/-- How many coins a count comes to on this board; flipping until tails, the cap. -/
def coinTotal (s : Setting) (b : Board) : CoinCount → Word
  | .fixed n => n
  | .untilTails => s.config.maxFlips
  | .perPokemonInPlay => 1 + Word.truncate b.attacker.occupiedBench
  | .perBenchOccupant side =>
    match b.active? side with
    | some c => Word.truncate c.occupiedBench
    | none => 0
  | .perEnergyAttached e => b.attacker.energy.countOf e

/-- Flips the coins of a count. -/
def flip (s : Setting) (b : Board) (count : CoinCount) : List Bool × Board :=
  let (flips, coins) :=
    match count with
    | .untilTails => b.coins.flipsUntilTails s.config.maxFlips.toNat
    | count => b.coins.flips (coinTotal s b count).toNat
  (flips, { b with coins })

end Board

end CardEffects
