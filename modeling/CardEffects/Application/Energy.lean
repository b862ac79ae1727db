/-
  CardEffects.Application.Energy

  Energy attached to the acting Pokémon or left for the caller to place, and energy discarded
  from either side: of one type, of all, or unit by unit at random.
-/
import CardEffects.Application.Condition
import CardEffects.Effect.Description

namespace CardEffects

/-! ## Random discards -/

namespace EnergyPool

/-- Discards up to `n` units, each picked among all that are left.  Gives the types of the
units discarded, in that order. -/
def discardRandom (p : EnergyPool) (coins : Coins) : Nat → List Energy × EnergyPool × Coins
  | 0 => ([], p, coins)
  | n + 1 =>
    let (i, coins') := coins.pick p.size
    match unitAt? i p.entries with
    | none => ([], p, coins)
    | some e =>
      let (rest, p'', coins'') := (p.discard e 1).2.discardRandom coins' n
      (e :: rest, p'', coins'')

/-- The units of a list counted type by type, in the order of the types. -/
def tally (units : List Energy) : List (Energy × Word) :=
  Enumeration.all.map fun e => (e, Word.clamp (units.count e))

/-- Discards what a discard says.  Gives the units discarded of each type. -/
def discardBy (p : EnergyPool) (coins : Coins) (d : EnergyDiscard) :
    List (Energy × Word) × EnergyPool × Coins :=
  match d.energy, d.count with
  | some e, .count n =>
    let (removed, p) := p.discard e n
    ([(e, removed)], p, coins)
  | some e, .all =>
    let (removed, p) := p.discard e (Word.clamp Word.limit)
    ([(e, removed)], p, coins)
  | none, .all =>
    let (removed, p) := p.discardAll
    (removed, p, coins)
  | none, .count n =>
    let (units, p, coins) := p.discardRandom coins n.toNat
    (tally units, p, coins)

end EnergyPool

namespace Application

/-! ## Attaching -/

/-- The type that is produced. -/
def energyOf (b : Board) : EnergySpec → Energy
  | .named e => e
  | .ownType => b.attacker.energyType

/-- Attaches energy on behalf of an effect of the given kind.  Where the caller has to pick a
Pokémon, the energy is left to be distributed. -/
def attach (b : Board) (kind : EffectKind) (energy : Energy) (units : Word)
    (target : EnergyTarget) : Outcome × Board :=
  if units = 0 then (.noEffect kind "no energy to attach", b)
  else if target = .this then
    ({ kind, status := .applied,
       energyChanges := [⟨.gain, energy, units, .attacker, true⟩],
       notes := ["attached " ++ units.text ++ " " ++ energy.name ++ " energy"] },
      { b with attacker := b.attacker.withEnergy energy units })
  else
    ({ kind, status := .deferred,
       energyChanges := [⟨.gain, energy, units, .bench, false⟩],
       pending := [.distributeEnergy energy units target],
       notes := [units.text ++ " " ++ energy.name ++ " energy waiting for placement"] },
      b)

/-! ## Discarding -/

/-- Discards energy on behalf of an effect of the given kind. -/
def discard (b : Board) (kind : EffectKind) (d : EnergyDiscard) : Outcome × Board :=
  match b.active? d.source with
  | none => (noOpponent kind, b)
  | some m =>
    let (units, energy, coins) := m.energy.discardBy b.coins d
    let b := { b.put d.source { m with energy } with coins }
    let removed := units.filter fun u => u.2 ≠ 0
    if removed = [] then (.noEffect kind (m.name ++ " has no matching energy"), b)
    else
      ({ kind, status := .applied,
         energyChanges := removed.map fun u => ⟨.loss, u.1, u.2, d.source.participant, true⟩,
         notes := removed.map fun u =>
           "discarded " ++ u.2.text ++ " " ++ u.1.name ++ " energy from " ++ m.name },
        b)

end Application

end CardEffects
