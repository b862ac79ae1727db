/-
  CardEffects.Wire.Config

  Settings as JSON.  What is left out of the settings has its standard value.
-/
import CardEffects.Config
import CardEffects.Json.Decode

namespace CardEffects

open Json

namespace ConditionRule

def toJson (r : ConditionRule) : Json :=
  record [("kind", text (Labelled.label r.condition)), ("between_turn_damage", word r.damage),
    ("removal", text (Labelled.label r.removal)),
    ("blocks", Json.ofList (text ∘ Labelled.label) r.blocks)]

def ofJson? (j : Json) : Option ConditionRule := do
  let field ← structure? ["kind", "between_turn_damage", "removal", "blocks"] j
  some {
    condition := ← (field "kind").required label?
    damage := ← (field "between_turn_damage").orDefault 0 word?
    removal := ← (field "removal").required label?
    blocks := ← (field "blocks").orDefault [] (list? label?) }

end ConditionRule

namespace ConditionRules

def toJson (t : ConditionRules) : Json :=
  record [("rules", Json.ofList ConditionRule.toJson t.rules)]

def ofJson? (j : Json) : Option ConditionRules := do
  let field ← structure? ["rules"] j
  some ⟨← (field "rules").required (list? ConditionRule.ofJson?)⟩

end ConditionRules

namespace Config

def toJson (c : Config) : Json :=
  record [("max_flips_until_tails", word c.maxFlips),
    ("apply_damage_to_defender", flag c.applyDamage),
    ("confusion_check", flag c.confusionCheck), ("status", c.conditionRules.toJson)]

def ofJson? (j : Json) : Option Config := do
  let field ← structure?
    ["max_flips_until_tails", "apply_damage_to_defender", "confusion_check", "status"] j
  some {
    maxFlips := ← (field "max_flips_until_tails").orDefault standard.maxFlips word?
    applyDamage := ← (field "apply_damage_to_defender").orDefault standard.applyDamage flag?
    confusionCheck := ← (field "confusion_check").orDefault standard.confusionCheck flag?
    conditionRules :=
      ← (field "status").orDefault standard.conditionRules ConditionRules.ofJson? }

end Config

end CardEffects
