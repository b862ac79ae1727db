/-
  CardEffects.Application.Healing

  Healing of the acting Pokémon, and of its bench where the text says each.
-/
import CardEffects.Board
import CardEffects.Effect.Description

namespace CardEffects

namespace Combatant

/-- Heals one on the bench: by the given amount, or without one as far as it goes. -/
def healOccupant (amount : Option Word) (o : BenchOccupant) : Word × BenchOccupant :=
  o.heal (amount.getD o.maxHp)

/-- Heals everyone on the bench.  Gives the hit points restored. -/
def healBench (c : Combatant) (amount : Option Word) : Nat × Combatant :=
  (Word.sum (c.occupants.map fun o => (healOccupant amount o).1),
    { c with bench := c.bench.map (Option.map fun o => (healOccupant amount o).2) })

/-- Heals whom the target names; without an amount, as far as it goes. -/
def healTarget (c : Combatant) (target : HealTarget) (amount : Option Word) :
    Word × Combatant :=
  let (own, c) := c.heal (amount.getD c.damageTaken)
  match target with
  | .eachOwn =>
    let (others, c) := c.healBench amount
    (Word.clamp (own.toNat + others), c)
  | .this => (own, c)
  | .anyOwn => (own, c)

end Combatant

namespace Application

/-- Heals on behalf of an effect of the given kind. -/
def heal (b : Board) (kind : EffectKind) (target : HealTarget) (amount : Option Word) :
    Outcome × Board :=
  let (healed, attacker) := b.attacker.healTarget target amount
  let b := { b with attacker }
  if healed = 0 then (.noEffect kind "nothing to heal", b)
  else
    ({ kind, status := .applied, healed, notes := ["healed " ++ healed.text ++ " damage"] }, b)

end Application

end CardEffects
