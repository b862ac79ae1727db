/-
  CardEffects.Infliction

  Conditions on a Pokémon: inflicting, removing, picking one at random, and what they keep it
  from doing.
-/
import CardEffects.Coins
import CardEffects.Combatant

namespace CardEffects

/-! ## Inflicting and removing -/

namespace Combatant

/-- Inflicts a condition. -/
def inflict (m : Combatant) (c : Condition) (turn : Word) : ApplyOutcome × Combatant :=
  let (outcome, conditions) := m.conditions.insert c turn
  (outcome, { m with conditions })

/-- Removes a condition. -/
def cure (m : Combatant) (c : Condition) : RemoveOutcome × Combatant :=
  let (outcome, conditions) := m.conditions.remove c
  (outcome, { m with conditions })

/-- Removes all conditions.  Gives those removed. -/
def cureAll (m : Combatant) : List Condition × Combatant :=
  (m.conditions.kinds, { m with conditions := ∅ })

/-- The conditions not in force. -/
def missingConditions (m : Combatant) : List Condition :=
  Enumeration.all.filter fun c => !m.conditions.contains c

/-- Inflicts one of the conditions not in force, each with equal chance.  Without one nothing
happens and nothing is drawn. -/
def inflictRandom (m : Combatant) (turn : Word) (coins : Coins) :
    Option Condition × Combatant × Coins :=
  let (i, coins') := coins.pick m.missingConditions.length
  match m.missingConditions[i]? with
  | some c => (some c, (m.inflict c turn).2, coins')
  | none => (none, m, coins)

end Combatant

/-! ## What conditions prevent -/

/-- Whether an action may be taken. -/
inductive Gate where
  | allowed
  /-- The conditions in force that prevent it, in order. -/
  | blockedBy (conditions : List Condition)
  deriving DecidableEq, Repr

namespace Gate

/-- Whether the gate is open. -/
def isAllowed : Gate → Bool
  | allowed => true
  | blockedBy _ => false

/-- The gate that the given conditions make; none leave it open. -/
def ofBlockers : List Condition → Gate
  | [] => allowed
  | c :: rest => blockedBy (c :: rest)

end Gate

/-- The conditions in force on a Pokémon that prevent an action. -/
def ConditionRules.blockers (t : ConditionRules) (m : Combatant) (action : Action) :
    List Condition :=
  m.conditions.kinds.filter fun c => (t.rule c).blocks.contains action

/-- Whether a Pokémon may take an action. -/
def ConditionRules.gate (t : ConditionRules) (m : Combatant) (action : Action) : Gate :=
  .ofBlockers (t.blockers m action)

/-- The flip of a confused Pokémon before it attacks, tails meaning that the attack fails.
Without confusion no coin is flipped. -/
def Combatant.confusionFlip (m : Combatant) (coins : Coins) : Option Bool × Coins :=
  if m.conditions.contains .confused then
    let (heads, coins) := coins.flip
    (some heads, coins)
  else (none, coins)

end CardEffects
