/-
  CardEffects.Effect.Description

  Effects in words, as they stand in records, traces and on the terminal.
-/
import CardEffects.Effect
import CardEffects.Text.Quoted
import CardEffects.Text.Term

namespace CardEffects

/-! ## Parameters as terms -/

/-- The term for a count of coins, energy units or hit points. -/
def Word.text (n : Word) : String := Term.number n.toNat

/-- How many coins, in words. -/
def CoinCount.describe : CoinCount → String
  | fixed n => n.text ++ " coin(s)"
  | untilTails => "coins until tails"
  | perPokemonInPlay => "a coin per Pokémon in play"
  | perBenchOccupant .own => "a coin per own benched Pokémon"
  | perBenchOccupant .opponent => "a coin per opponent benched Pokémon"
  | perEnergyAttached (some e) => "a coin per attached " ++ e.name ++ " energy"
  | perEnergyAttached none => "a coin per attached energy"

/-- The term for a kind of energy produced. -/
def EnergySpec.term : EnergySpec → String
  | named e => Term.call "Named" (Labelled.label e)
  | ownType => "OwnType"

/-- The term for a number of units discarded. -/
def DiscardCount.term : DiscardCount → String
  | count n => Term.call "Count" n.text
  | all => "All"

/-- The term for a discard. -/
def EnergyDiscard.term (d : EnergyDiscard) : String :=
  Term.fields "EnergyDiscard"
    [("energy", Term.optional (d.energy.map Labelled.label)), ("count", d.count.term),
      ("from", Labelled.label d.source)]

/-- The term for a consequence. -/
def FlipConsequence.term : FlipConsequence → String
  | bonusDamage n => Term.call "BonusDamage" n.text
  | attackFails => "AttackFails"
  | condition c t =>
    Term.fields "Status" [("kind", Labelled.label c), ("target", Labelled.label t)]
  | heal n => Term.call "Heal" n.text
  | discard d => Term.call "Discard" d.term

/-- The term for a condition on damage. -/
def DamageCondition.term : DamageCondition → String
  | targetDamaged => "TargetDamaged"
  | selfDamaged => "SelfDamaged"
  | targetHasCondition c =>
    Term.call "TargetHasStatus" (Term.optional (c.map Labelled.label))
  | selfExtraEnergy e n =>
    Term.fields "SelfExtraEnergy"
      [("energy", Term.optional (e.map Labelled.label)), ("at_least", n.text)]

/-- The term for cards drawn or searched for. -/
def CardFlow.term : CardFlow → String
  | draw n => Term.call "Draw" n.text
  | search criteria => Term.fields "Search" [("criteria", Text.quoted criteria)]

/-- The term for a mechanism. -/
def Mechanism.term : Mechanism → String
  | coinDamage => "CoinDamage"
  | coinBonus => "CoinBonus"
  | flatBonus => "FlatBonus"
  | conditionalBonus c => Term.call "ConditionalBonus" c.term
  | energyScaling => "EnergyScaling"
  | benchScaling => "BenchScaling"
  | attackNegation => "AttackNegation"
  | condition c => Term.call "Status" (Labelled.label c)
  | randomCondition => "RandomStatus"
  | energyGain => "EnergyGain"
  | energyLoss => "EnergyLoss"
  | healing => "Healing"
  | cardFlow => "CardFlow"
  | manual => "Manual"

/-! ## Effects in words -/

/-- The name of an energy type, or of any. -/
def energyName : Option Energy → String
  | some e => e.name
  | none => "any"

/-- An effect in words. -/
def Effect.describe : Effect → String
  | coinFlipDamage coins n => "flip " ++ coins.describe ++ ": +" ++ n.text ++ " per heads"
  | coinFlipEnergy coins n energy target =>
    "flip " ++ coins.describe ++ ": " ++ n.text ++ " x " ++ energy.term
      ++ " energy per heads to " ++ Labelled.label target
  | coinFlipConditional coins wanted consequence =>
    "flip " ++ coins.text ++ " coin(s): if all " ++ Labelled.label wanted ++ ", "
      ++ consequence.term
  | conditionApply c target => Labelled.label target ++ " is now " ++ c.name
  | conditionApplyRandom target => Labelled.label target ++ " gets a random condition"
  | damageBonus n => "+" ++ n.text ++ " damage"
  | energyScalingDamage n e source =>
    "+" ++ n.text ++ " per " ++ energyName e ++ " energy on " ++ Labelled.label source
  | conditionalDamage n c => "+" ++ n.text ++ " if " ++ c.term
  | benchScalingDamage n side (some filter) =>
    "+" ++ n.text ++ " per " ++ Labelled.label side ++ " benched "
      ++ " / ".intercalate filter.names
  | benchScalingDamage n side none =>
    "+" ++ n.text ++ " per " ++ Labelled.label side ++ " benched Pokémon"
  | heal n target => "heal " ++ n.text ++ " from " ++ Labelled.label target
  | healFull target => "heal all from " ++ Labelled.label target
  | energyAttach energy n target =>
    "attach " ++ n.text ++ " x " ++ energy.term ++ " energy to " ++ Labelled.label target
  | energyDiscard d =>
    "discard " ++ d.count.term ++ " " ++ energyName d.energy ++ " energy from "
      ++ Labelled.label d.source
  | searchOrDraw flow => flow.term
  | unparsed text => "manual: " ++ text

end CardEffects
