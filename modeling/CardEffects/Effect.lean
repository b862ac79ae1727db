/-
  CardEffects.Effect

  What a clause of card text does, as a value: the fifteen kinds of effect with their
  parameters, and the mechanism on the board that each of them ends up using.
-/
import CardEffects.Condition
import CardEffects.Energy
import CardEffects.Text.Blank
import CardEffects.Text.Lowercase
import CardEffects.Word

namespace CardEffects

/-! ## Parameters -/

/-- A side of the table, seen from the acting player. -/
inductive Side where
  | own
  | opponent
  deriving DecidableEq, Repr

instance : Labelled Side where
  all := [.own, .opponent]
  nodup_all := by decide
  mem_all := by intro k; cases k <;> decide
  label
    | .own => "Own"
    | .opponent => "Opponent"
  nodup_labels := by decide

/-- A face of a coin. -/
inductive CoinFace where
  | heads
  | tails
  deriving DecidableEq, Repr

instance : Labelled CoinFace where
  all := [.heads, .tails]
  nodup_all := by decide
  mem_all := by intro k; cases k <;> decide
  label
    | .heads => "Heads"
    | .tails => "Tails"
  nodup_labels := by decide

/-- How many coins are flipped.  All but a fixed number depend on the board at that moment. -/
inductive CoinCount where
  | fixed (count : Word)
  | untilTails
  /-- One for the active Pokémon and each occupied bench slot of the acting side. -/
  | perPokemonInPlay
  | perBenchOccupant (side : Side)
  /-- One for each unit of the given energy, or of any. -/
  | perEnergyAttached (energy : Option Energy)
  deriving DecidableEq, Repr

/-- Whom a condition is inflicted on. -/
inductive ConditionTarget where
  | opponent
  | this
  deriving DecidableEq, Repr

instance : Labelled ConditionTarget where
  all := [.opponent, .this]
  nodup_all := by decide
  mem_all := by intro k; cases k <;> decide
  label
    | .opponent => "Opponent"
    | .this => "This"
  nodup_labels := by decide

/-- How much energy is discarded. -/
inductive DiscardCount where
  | count (n : Word)
  | all
  deriving DecidableEq, Repr

/-- A discard of energy.  Without a type, units are taken at random. -/
structure EnergyDiscard where
  energy : Option Energy
  count : DiscardCount
  source : Side
  deriving DecidableEq, Repr

/-- What happens when a gating flip comes out as wanted. -/
inductive FlipConsequence where
  | bonusDamage (amount : Word)
  | attackFails
  | condition (condition : Condition) (target : ConditionTarget)
  | heal (amount : Word)
  | discard (discard : EnergyDiscard)
  deriving DecidableEq, Repr

/-- Which energy is produced: a named type, or the acting Pokémon's own. -/
inductive EnergySpec where
  | named (energy : Energy)
  | ownType
  deriving DecidableEq, Repr

/-- Where energy goes. -/
inductive EnergyTarget where
  | this
  /-- Benched Pokémon that the caller picks. -/
  | bench
  /-- Any own Pokémon that the caller picks. -/
  | anyOwn
  deriving DecidableEq, Repr

instance : Labelled EnergyTarget where
  all := [.this, .bench, .anyOwn]
  nodup_all := by decide
  mem_all := by intro k; cases k <;> decide
  label
    | .this => "This"
    | .bench => "Bench"
    | .anyOwn => "AnyOwn"
  nodup_labels := by decide

/-- Who is healed. -/
inductive HealTarget where
  | this
  /-- One own Pokémon; the acting one stands in for the pick. -/
  | anyOwn
  | eachOwn
  deriving DecidableEq, Repr

instance : Labelled HealTarget where
  all := [.this, .anyOwn, .eachOwn]
  nodup_all := by decide
  mem_all := by intro k; cases k <;> decide
  label
    | .this => "This"
    | .anyOwn => "AnyOwn"
    | .eachOwn => "EachOwn"
  nodup_labels := by decide

/-- What a conditional bonus asks for. -/
inductive DamageCondition where
  | targetDamaged
  | selfDamaged
  /-- The given condition is in force on the target, or any at all. -/
  | targetHasCondition (condition : Option Condition)
  /-- Energy beyond the cost of the attack. -/
  | selfExtraEnergy (energy : Option Energy) (atLeast : Word)
  deriving DecidableEq, Repr

/-- Cards drawn or searched for, which the caller carries out. -/
inductive CardFlow where
  | draw (count : Word)
  | search (criteria : String)
  deriving DecidableEq, Repr

/-! ## Names on the bench -/

/-- The names a bench bonus counts. -/
structure NameFilter where
  names : List String
  deriving DecidableEq, Repr

/-- A name with single spaces, in lower case and without the accent on e. -/
def normalizeName (name : List Char) : List Char :=
  (Text.lowercase (Text.squeeze name)).map fun c => if c = 'é' then 'e' else c

namespace NameFilter

/-- The filter for the given names, in normal form. -/
def ofNames (names : List (List Char)) : NameFilter :=
  ⟨names.map fun n => String.ofList (normalizeName n)⟩

/-- Whether a name, in normal form, is one of the filter's entries. -/
def accepts (f : NameFilter) (name : String) : Bool :=
  f.names.any fun entry => entry.toList == normalizeName name.toList

end NameFilter

/-! ## Kinds -/

/-- The kinds of effect. -/
inductive EffectKind where
  | coinFlipDamage
  | coinFlipEnergy
  | coinFlipConditional
  | conditionApply
  | conditionApplyRandom
  | damageBonus
  | energyScalingDamage
  | conditionalDamage
  | benchScalingDamage
  | heal
  | healFull
  | energyAttach
  | energyDiscard
  | searchOrDraw
  | unparsed
  deriving DecidableEq, Repr

namespace EffectKind

instance : Labelled EffectKind where
  all := [coinFlipDamage, coinFlipEnergy, coinFlipConditional, conditionApply,
    conditionApplyRandom, damageBonus, energyScalingDamage, conditionalDamage,
    benchScalingDamage, heal, healFull, energyAttach, energyDiscard, searchOrDraw, unparsed]
  nodup_all := by decide
  mem_all := by intro k; cases k <;> decide
  label
    | coinFlipDamage => "CoinFlipDamage"
    | coinFlipEnergy => "CoinFlipEnergy"
    | coinFlipConditional => "CoinFlipConditional"
    | conditionApply => "StatusApply"
    | conditionApplyRandom => "StatusApplyRandom"
    | damageBonus => "DamageBonus"
    | energyScalingDamage => "EnergyScalingDamage"
    | conditionalDamage => "ConditionalDamage"
    | benchScalingDamage => "BenchScalingDamage"
    | heal => "Heal"
    | healFull => "HealFull"
    | energyAttach => "EnergyAttach"
    | energyDiscard => "EnergyDiscard"
    | searchOrDraw => "SearchOrDraw"
    | unparsed => "RawUnparsed"
  nodup_labels := by decide

/-- The name of a kind in reports. -/
def id : EffectKind → String
  | coinFlipDamage => "coin_flip_damage"
  | coinFlipEnergy => "coin_flip_energy"
  | coinFlipConditional => "coin_flip_conditional"
  | conditionApply => "status_apply"
  | conditionApplyRandom => "status_apply_random"
  | damageBonus => "damage_bonus"
  | energyScalingDamage => "energy_scaling_damage"
  | conditionalDamage => "conditional_damage"
  | benchScalingDamage => "bench_scaling_damage"
  | heal => "heal"
  | healFull => "heal_full"
  | energyAttach => "energy_attach"
  | energyDiscard => "energy_discard"
  | searchOrDraw => "search_or_draw"
  | unparsed => "raw_unparsed"

end EffectKind

/-- The board effect that an effect ends up using.  Two effects with one mechanism describe
the same clause when both were read from one text.  Bonuses are told apart by what gates them,
never by their amount. -/
inductive Mechanism where
  | coinDamage
  | coinBonus
  | flatBonus
  | conditionalBonus (condition : DamageCondition)
  | energyScaling
  | benchScaling
  | attackNegation
  | condition (condition : Condition)
  | randomCondition
  | energyGain
  | energyLoss
  | healing
  | cardFlow
  | manual
  deriving DecidableEq, Repr

/-! ## Effects -/

/-- One clause of card text. -/
inductive Effect where
  | coinFlipDamage (coins : CoinCount) (perHeads : Word)
  | coinFlipEnergy (coins : CoinCount) (perHeads : Word) (energy : EnergySpec)
      (target : EnergyTarget)
  /-- The consequence happens when every coin shows the wanted face. -/
  | coinFlipConditional (coins : Word) (wanted : CoinFace) (consequence : FlipConsequence)
  | conditionApply (condition : Condition) (target : ConditionTarget)
  | conditionApplyRandom (target : ConditionTarget)
  | damageBonus (amount : Word)
  | energyScalingDamage (perUnit : Word) (energy : Option Energy) (source : Side)
  | conditionalDamage (bonus : Word) (condition : DamageCondition)
  | benchScalingDamage (perUnit : Word) (side : Side) (filter : Option NameFilter)
  | heal (amount : Word) (target : HealTarget)
  | healFull (target : HealTarget)
  | energyAttach (energy : EnergySpec) (count : Word) (target : EnergyTarget)
  | energyDiscard (discard : EnergyDiscard)
  | searchOrDraw (flow : CardFlow)
  /-- Text that no rule reads, kept as it stands so that it can be handled by hand. -/
  | unparsed (text : String)
  deriving DecidableEq, Repr

namespace Effect

/-- The kind of an effect. -/
def kind : Effect → EffectKind
  | coinFlipDamage .. => .coinFlipDamage
  | coinFlipEnergy .. => .coinFlipEnergy
  | coinFlipConditional .. => .coinFlipConditional
  | conditionApply .. => .conditionApply
  | conditionApplyRandom .. => .conditionApplyRandom
  | damageBonus .. => .damageBonus
  | energyScalingDamage .. => .energyScalingDamage
  | conditionalDamage .. => .conditionalDamage
  | benchScalingDamage .. => .benchScalingDamage
  | heal .. => .heal
  | healFull .. => .healFull
  | energyAttach .. => .energyAttach
  | energyDiscard .. => .energyDiscard
  | searchOrDraw .. => .searchOrDraw
  | unparsed .. => .unparsed

/-- The mechanism of an effect. -/
def mechanism : Effect → Mechanism
  | coinFlipDamage .. => .coinDamage
  | coinFlipEnergy .. => .energyGain
  | coinFlipConditional _ _ (.bonusDamage _) => .coinBonus
  | coinFlipConditional _ _ .attackFails => .attackNegation
  | coinFlipConditional _ _ (.condition c _) => .condition c
  | coinFlipConditional _ _ (.heal _) => .healing
  | coinFlipConditional _ _ (.discard _) => .energyLoss
  | conditionApply c _ => .condition c
  | conditionApplyRandom .. => .randomCondition
  | damageBonus .. => .flatBonus
  | energyScalingDamage .. => .energyScaling
  | conditionalDamage _ c => .conditionalBonus c
  | benchScalingDamage .. => .benchScaling
  | heal .. => .healing
  | healFull .. => .healing
  | energyAttach .. => .energyGain
  | energyDiscard .. => .energyLoss
  | searchOrDraw .. => .cardFlow
  | unparsed .. => .manual

/-- Whether an effect is text left unread. -/
def isUnparsed : Effect → Bool
  | unparsed _ => true
  | _ => false

end Effect

end CardEffects
