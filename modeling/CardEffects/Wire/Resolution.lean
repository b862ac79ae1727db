/-
  CardEffects.Wire.Resolution

  Outcomes, resolutions and check logs as JSON.
-/
import CardEffects.BetweenTurns
import CardEffects.Resolution
import CardEffects.Wire.Effect

namespace CardEffects

open Json

/-! ## Records -/

namespace FlipRecord

def toJson (r : FlipRecord) : Json :=
  record [("effect", text (Labelled.label r.kind)), ("flips", Json.ofList flag r.flips),
    ("heads", word r.heads)]

def ofJson? (j : Json) : Option FlipRecord := do
  let field ← structure? ["effect", "flips", "heads"] j
  some {
    kind := ← (field "effect").required label?
    flips := ← (field "flips").required (list? flag?)
    heads := ← (field "heads").required word? }

end FlipRecord

namespace ConditionChange

def toJson (c : ConditionChange) : Json :=
  record [("kind", text (Labelled.label c.condition)), ("target", text (Labelled.label c.target)),
    ("outcome", text (Labelled.label c.outcome))]

def ofJson? (j : Json) : Option ConditionChange := do
  let field ← structure? ["kind", "target", "outcome"] j
  some {
    condition := ← (field "kind").required label?
    target := ← (field "target").required label?
    outcome := ← (field "outcome").required label? }

end ConditionChange

namespace EnergyChange

def toJson (c : EnergyChange) : Json :=
  record [("direction", text (Labelled.label c.direction)),
    ("energy", text (Labelled.label c.energy)), ("amount", word c.amount),
    ("target", text (Labelled.label c.target)), ("applied", flag c.applied)]

def ofJson? (j : Json) : Option EnergyChange := do
  let field ← structure? ["direction", "energy", "amount", "target", "applied"] j
  some {
    direction := ← (field "direction").required label?
    energy := ← (field "energy").required label?
    amount := ← (field "amount").required word?
    target := ← (field "target").required label?
    applied := ← (field "applied").required flag? }

end EnergyChange

namespace PendingAction

def toJson : PendingAction → Json
  | distributeEnergy e n target =>
    variant "DistributeEnergy"
      (record [("energy", text (Labelled.label e)), ("amount", word n),
        ("target", text (Labelled.label target))])
  | draw n => variant "Draw" (word n)
  | search criteria => variant "Search" (record [("criteria", text criteria)])
  | manualEffect s => variant "ManualEffect" (record [("text", text s)])

def ofJson? (j : Json) : Option PendingAction := do
  match ← variant? j with
  | ("DistributeEnergy", some c) =>
    let field ← fields? ["energy", "amount", "target"] c
    some (distributeEnergy (← (field "energy").required label?)
      (← (field "amount").required word?) (← (field "target").required label?))
  | ("Draw", some c) => (word? c).map draw
  | ("Search", some c) =>
    let field ← fields? ["criteria"] c
    some (search (← (field "criteria").required text?))
  | ("ManualEffect", some c) =>
    let field ← fields? ["text"] c
    some (manualEffect (← (field "text").required text?))
  | _ => none

end PendingAction

namespace EffectRecord

def toJson (r : EffectRecord) : Json :=
  record [("kind", text (Labelled.label r.kind)), ("status", text (Labelled.label r.status)),
    ("description", text r.description)]

def ofJson? (j : Json) : Option EffectRecord := do
  let field ← structure? ["kind", "status", "description"] j
  some {
    kind := ← (field "kind").required label?
    status := ← (field "status").required label?
    description := ← (field "description").required text? }

end EffectRecord

/-! ## Outcomes and resolutions -/

/-- The outcome of one effect. -/
def Outcome.toJson (o : Outcome) : Json :=
  record [("kind", text (Labelled.label o.kind)), ("status", text (Labelled.label o.status)),
    ("bonus_damage", word o.bonus), ("negates_attack", flag o.negates),
    ("coin_flips", Json.ofList FlipRecord.toJson o.flips),
    ("status_changes", Json.ofList ConditionChange.toJson o.conditionChanges),
    ("energy_changes", Json.ofList EnergyChange.toJson o.energyChanges),
    ("healed", word o.healed), ("pending", Json.ofList PendingAction.toJson o.pending),
    ("notes", texts o.notes)]

namespace Resolution

/-- The fields of a resolution, in the order written. -/
def fieldNames : List String :=
  ["base_damage", "bonus_damage", "total_damage", "attack_negated", "damage_dealt",
    "knocked_out", "coin_flips", "status_changes", "energy_changes", "healed", "pending",
    "effects", "trace"]

def toJson (r : Resolution) : Json :=
  record [("base_damage", word r.base), ("bonus_damage", word r.bonus),
    ("total_damage", word r.total), ("attack_negated", flag r.negated),
    ("damage_dealt", ofOption word r.dealt), ("knocked_out", flag r.knockedOut),
    ("coin_flips", Json.ofList FlipRecord.toJson r.flips),
    ("status_changes", Json.ofList ConditionChange.toJson r.conditionChanges),
    ("energy_changes", Json.ofList EnergyChange.toJson r.energyChanges),
    ("healed", word r.healed), ("pending", Json.ofList PendingAction.toJson r.pending),
    ("effects", Json.ofList EffectRecord.toJson r.effects), ("trace", texts r.trace)]

def ofJson? (j : Json) : Option Resolution := do
  let field ← structure? fieldNames j
  some {
    base := ← (field "base_damage").required word?
    bonus := ← (field "bonus_damage").required word?
    total := ← (field "total_damage").required word?
    negated := ← (field "attack_negated").required flag?
    dealt := ← (field "damage_dealt").optional word?
    knockedOut := ← (field "knocked_out").required flag?
    flips := ← (field "coin_flips").required (list? FlipRecord.ofJson?)
    conditionChanges := ← (field "status_changes").required (list? ConditionChange.ofJson?)
    energyChanges := ← (field "energy_changes").required (list? EnergyChange.ofJson?)
    healed := ← (field "healed").required word?
    pending := ← (field "pending").required (list? PendingAction.ofJson?)
    effects := ← (field "effects").required (list? EffectRecord.ofJson?)
    trace := ← (field "trace").required (list? text?) }

end Resolution

/-! ## Checks between turns -/

/-- The log of a check. -/
def CheckLog.toJson (l : CheckLog) : Json :=
  record [("kind", text (Labelled.label l.condition)), ("turn", word l.turn),
    ("damage", word l.damage), ("knocked_out", flag l.knockedOut),
    ("roll", ofOption flag l.roll), ("removed", flag l.removed)]

/-- A gate. -/
def Gate.toJson : Gate → Json
  | allowed => text "Allowed"
  | blockedBy conditions =>
    variant "BlockedBy" (Json.ofList (text ∘ Labelled.label) conditions)

end CardEffects
