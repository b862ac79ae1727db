/-
  CardEffects.BetweenTurns

  The check between turns: each condition in force, in order, deals its damage and may then go
  away, at once or on the flip of a coin.
-/
import CardEffects.Infliction
import CardEffects.Text.Term

namespace CardEffects

/-- What a check did about one condition. -/
structure CheckLog where
  condition : Condition
  turn : Word
  damage : Word
  knockedOut : Bool
  /-- The coin flipped for the removal, if one was; `true` is heads. -/
  roll : Option Bool
  removed : Bool
  deriving DecidableEq, Repr

/-- A log in words. -/
def CheckLog.describe (l : CheckLog) : String :=
  "turn " ++ Term.number l.turn.toNat ++ ": " ++ l.condition.name
    ++ (if 0 < l.damage then " dealt " ++ Term.number l.damage.toNat ++ " damage" else "")
    ++ (if l.knockedOut then ", knocked out" else "")
    ++ (match l.roll with
      | some true => ", flip heads"
      | some false => ", flip tails"
      | none => "")
    ++ (if l.removed then ", removed" else "")

/-- Whether a condition goes away, and the coin flipped to find out. -/
def Removal.decide (p : Removal) (coins : Coins) : Option Bool × Bool × Coins :=
  match p with
  | never => (none, false, coins)
  | afterOneTurn => (none, true, coins)
  | coinFlip =>
    let (heads, coins) := coins.flip
    (some heads, heads, coins)

namespace ConditionRules

/-- The check of one condition. -/
def checkOne (t : ConditionRules) (turn : Word) (m : Combatant) (coins : Coins)
    (c : Condition) : CheckLog × Combatant × Coins :=
  let rule := t.rule c
  let (damage, m) := m.takeDamage rule.damage
  let (roll, removed, coins) := rule.removal.decide coins
  let m := if removed then (m.cure c).2 else m
  (⟨c, turn, damage, m.isKnockedOut, roll, removed⟩, m, coins)

/-- The checks of several conditions, one after the other. -/
def checkEach (t : ConditionRules) (turn : Word) (m : Combatant) (coins : Coins) :
    List Condition → List CheckLog × Combatant × Coins
  | [] => ([], m, coins)
  | c :: rest =>
    let (log, m, coins) := t.checkOne turn m coins c
    let (logs, m, coins) := t.checkEach turn m coins rest
    (log :: logs, m, coins)

/-- The check of a Pokémon between turns. -/
def betweenTurns (t : ConditionRules) (turn : Word) (m : Combatant) (coins : Coins) :
    List CheckLog × Combatant × Coins :=
  t.checkEach turn m coins m.conditions.kinds

end ConditionRules

end CardEffects
