/-
  CardEffects.Wire.Card

  Cards as JSON.  Costs are lists of tokens; whatever a card has none of may be left out.
-/
import CardEffects.Card
import CardEffects.Wire.Effect

namespace CardEffects

open Json

namespace Attack

def toJson (a : Attack) : Json :=
  record [("name", text a.name), ("cost", Json.ofList CostSymbol.toJson a.cost),
    ("damage", word a.damage), ("effect", text a.effect)]

def ofJson? (j : Json) : Option Attack := do
  let field ← structure? ["name", "cost", "damage", "effect"] j
  some {
    name := ← (field "name").required text?
    cost := ← (field "cost").orDefault [] (list? CostSymbol.ofJson?)
    damage := ← (field "damage").orDefault 0 word?
    effect := ← (field "effect").orDefault "" text? }

end Attack

namespace Ability

def toJson (a : Ability) : Json := record [("name", text a.name), ("effect", text a.effect)]

def ofJson? (j : Json) : Option Ability := do
  let field ← structure? ["name", "effect"] j
  some {
    name := ← (field "name").required text?
    effect := ← (field "effect").orDefault "" text? }

end Ability

namespace Card

def toJson (c : Card) : Json :=
  record [("id", text c.id), ("name", text c.name),
    ("category", text (Labelled.label c.category)), ("hp", word c.hp),
    ("energy_type", optionalEnergyToJson c.energyType),
    ("attacks", Json.ofList Attack.toJson c.attacks),
    ("abilities", Json.ofList Ability.toJson c.abilities), ("effect", text c.effect)]

def ofJson? (j : Json) : Option Card := do
  let field ← structure?
    ["id", "name", "category", "hp", "energy_type", "attacks", "abilities", "effect"] j
  some {
    id := ← (field "id").required text?
    name := ← (field "name").required text?
    category := ← (field "category").required label?
    hp := ← (field "hp").orDefault 0 word?
    energyType := ← (field "energy_type").orDefault none (option? label?)
    attacks := ← (field "attacks").orDefault [] (list? Attack.ofJson?)
    abilities := ← (field "abilities").orDefault [] (list? Ability.ofJson?)
    effect := ← (field "effect").orDefault "" text? }

end Card

/-- A place on a card. -/
def TextSource.toJson : TextSource → Json
  | attack i => variant "Attack" (natural i)
  | ability i => variant "Ability" (natural i)
  | trainer => text "Trainer"

/-- Texts with their places. -/
def textsToJson (l : List (TextSource × String)) : Json :=
  Json.ofList (fun t => list [t.1.toJson, text t.2]) l

end CardEffects
