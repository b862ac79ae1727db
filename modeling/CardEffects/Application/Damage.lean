/-
  CardEffects.Application.Damage

  Bonus damage: flat, for each unit of energy, for each Pokémon on the bench, or on a
  condition.  None of these changes the board.
-/
import CardEffects.Board
import CardEffects.Effect.Description
import CardEffects.ExtraEnergy

namespace CardEffects

/-! ## What is counted -/

/-- The units of energy that a side has attached. -/
def Board.energyCount (b : Board) (side : Side) (energy : Option Energy) : Word :=
  match b.active? side with
  | some c => c.energy.countOf energy
  | none => 0

/-- Whether a bench bonus counts a Pokémon; without a filter it counts each. -/
def NameFilter.counts (filter : Option NameFilter) (o : BenchOccupant) : Bool :=
  match filter with
  | some f => f.accepts o.name
  | none => true

/-- The Pokémon on the bench of a side that a bonus counts. -/
def Board.benchCount (b : Board) (side : Side) (filter : Option NameFilter) : Nat :=
  match b.active? side with
  | some c => c.occupants.countP (NameFilter.counts filter)
  | none => 0

/-- Whether a condition on damage holds. -/
def DamageCondition.holds (s : Setting) (b : Board) : DamageCondition → Bool
  | targetDamaged => b.defender.any fun d => 0 < d.damageTaken
  | selfDamaged => 0 < b.attacker.damageTaken
  | targetHasCondition (some c) => b.defender.any fun d => d.conditions.contains c
  | targetHasCondition none => b.defender.any fun d => !d.conditions.isEmpty
  | selfExtraEnergy energy atLeast => atLeast ≤ b.attacker.energy.extra s.attack energy

/-! ## Bonuses -/

namespace Application

/-- A flat bonus. -/
def damageBonus (amount : Word) : Outcome :=
  .ofBonus .damageBonus amount ["+" ++ amount.text ++ " damage"]

/-- A bonus for each of `counted` things. -/
def perUnit (kind : EffectKind) (counted : Nat) (what : String) (each : Word) : Outcome :=
  let bonus := Word.clamp (counted * each.toNat)
  .ofBonus kind bonus
    [Term.number counted ++ " " ++ what ++ " counted, +" ++ bonus.text ++ " damage"]

/-- A bonus for each unit of energy. -/
def energyScalingDamage (b : Board) (each : Word) (energy : Option Energy) (source : Side) :
    Outcome :=
  perUnit .energyScalingDamage (b.energyCount source energy).toNat "energy" each

/-- A bonus for each Pokémon on a bench. -/
def benchScalingDamage (b : Board) (each : Word) (side : Side) (filter : Option NameFilter) :
    Outcome :=
  perUnit .benchScalingDamage (b.benchCount side filter) "benched Pokémon" each

/-- A bonus on a condition. -/
def conditionalDamage (s : Setting) (b : Board) (bonus : Word) (c : DamageCondition) : Outcome :=
  if c.holds s b then
    .ofBonus .conditionalDamage bonus [c.term ++ " met, +" ++ bonus.text ++ " damage"]
  else .noEffect .conditionalDamage (c.term ++ " not met")

end Application

end CardEffects
