/-
  CardEffects.Wire.Combatant

  Combatants as JSON: energy pools, conditions in force, and the bench.  Energy, conditions
  and bench may be left out where there are none.
-/
import CardEffects.Combatant
import CardEffects.Json.Decode

namespace CardEffects

open Json

namespace EnergyPool

def toJson (p : EnergyPool) : Json := record [("units", ofEnumMap word p.units)]

def ofJson? (j : Json) : Option EnergyPool := do
  let field ← structure? ["units"] j
  some ⟨← (field "units").required (enumMap? word?)⟩

end EnergyPool

namespace ConditionEntry

def toJson (e : ConditionEntry) : Json :=
  record [("kind", text (Labelled.label e.condition)), ("applied_turn", word e.since)]

def ofJson? (j : Json) : Option ConditionEntry := do
  let field ← structure? ["kind", "applied_turn"] j
  some {
    condition := ← (field "kind").required label?
    since := ← (field "applied_turn").required word? }

end ConditionEntry

namespace Conditions

def toJson (s : Conditions) : Json :=
  record [("active", ofEnumMap ConditionEntry.toJson s.active)]

def ofJson? (j : Json) : Option Conditions := do
  let field ← structure? ["active"] j
  some ⟨← (field "active").required (enumMap? ConditionEntry.ofJson?)⟩

end Conditions

namespace BenchOccupant

def toJson (o : BenchOccupant) : Json :=
  record [("name", text o.name), ("hp", word o.hp), ("max_hp", word o.maxHp),
    ("energy", o.energy.toJson)]

def ofJson? (j : Json) : Option BenchOccupant := do
  let field ← structure? ["name", "hp", "max_hp", "energy"] j
  some {
    name := ← (field "name").required text?
    hp := ← (field "hp").required word?
    maxHp := ← (field "max_hp").required word?
    energy := ← (field "energy").orDefault ∅ EnergyPool.ofJson? }

end BenchOccupant

namespace Combatant

def toJson (c : Combatant) : Json :=
  record [("name", text c.name), ("energy_type", text (Labelled.label c.energyType)),
    ("hp", word c.hp), ("max_hp", word c.maxHp), ("energy", c.energy.toJson),
    ("conditions", c.conditions.toJson),
    ("bench", Json.ofList (ofOption BenchOccupant.toJson) c.bench)]

def ofJson? (j : Json) : Option Combatant := do
  let field ← structure?
    ["name", "energy_type", "hp", "max_hp", "energy", "conditions", "bench"] j
  some {
    name := ← (field "name").required text?
    energyType := ← (field "energy_type").required label?
    hp := ← (field "hp").required word?
    maxHp := ← (field "max_hp").required word?
    energy := ← (field "energy").orDefault ∅ EnergyPool.ofJson?
    conditions := ← (field "conditions").orDefault ∅ Conditions.ofJson?
    bench := ← (field "bench").orDefault [] (list? (option? BenchOccupant.ofJson?)) }

end Combatant

end CardEffects
