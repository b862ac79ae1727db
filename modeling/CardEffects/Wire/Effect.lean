/-
  CardEffects.Wire.Effect

  Effects and plans as JSON.  Each parameter type is written and read by a pair of functions;
  a variant is written as its name, or as a record with its content under that name.
-/
import CardEffects.Json.Decode
import CardEffects.Plan

namespace CardEffects

open Json

/-! ## Parameters -/

/-- An energy type, or null for any. -/
def optionalEnergyToJson (e : Option Energy) : Json := ofOption (text ∘ Labelled.label) e

/-- A cost symbol as its printed token. -/
def CostSymbol.toJson (s : CostSymbol) : Json := text s.token

/-- Any token that stands for a cost symbol. -/
def CostSymbol.ofJson? : Json → Option CostSymbol
  | .text token => ofToken? token.toList
  | _ => none

namespace CoinCount

def toJson : CoinCount → Json
  | fixed n => variant "Fixed" (word n)
  | untilTails => text "UntilTails"
  | perPokemonInPlay => text "PerPokemonInPlay"
  | perBenchOccupant side => variant "PerBenchOccupant" (text (Labelled.label side))
  | perEnergyAttached e => variant "PerEnergyAttached" (optionalEnergyToJson e)

def ofJson? (j : Json) : Option CoinCount := do
  match ← variant? j with
  | ("Fixed", some c) => (word? c).map fixed
  | ("UntilTails", none) => some untilTails
  | ("UntilTails", some .null) => some untilTails
  | ("PerPokemonInPlay", none) => some perPokemonInPlay
  | ("PerPokemonInPlay", some .null) => some perPokemonInPlay
  | ("PerBenchOccupant", some c) => (label? c).map perBenchOccupant
  | ("PerEnergyAttached", some c) => (option? label? c).map perEnergyAttached
  | _ => none

end CoinCount

namespace DiscardCount

def toJson : DiscardCount → Json
  | count n => variant "Count" (word n)
  | all => text "All"

def ofJson? (j : Json) : Option DiscardCount := do
  match ← variant? j with
  | ("Count", some c) => (word? c).map count
  | ("All", none) => some all
  | ("All", some .null) => some all
  | _ => none

end DiscardCount

namespace EnergyDiscard

def toJson (d : EnergyDiscard) : Json :=
  record [("energy", optionalEnergyToJson d.energy), ("count", d.count.toJson),
    ("from", text (Labelled.label d.source))]

def ofJson? (j : Json) : Option EnergyDiscard := do
  let field ← structure? ["energy", "count", "from"] j
  some {
    energy := ← (field "energy").optional label?
    count := ← (field "count").required DiscardCount.ofJson?
    source := ← (field "from").required label? }

end EnergyDiscard

namespace FlipConsequence

def toJson : FlipConsequence → Json
  | bonusDamage n => variant "BonusDamage" (word n)
  | attackFails => text "AttackFails"
  | condition c t =>
    variant "Status"
      (record [("kind", text (Labelled.label c)), ("target", text (Labelled.label t))])
  | heal n => variant "Heal" (word n)
  | discard d => variant "Discard" d.toJson

def ofJson? (j : Json) : Option FlipConsequence := do
  match ← variant? j with
  | ("BonusDamage", some c) => (word? c).map bonusDamage
  | ("AttackFails", none) => some attackFails
  | ("AttackFails", some .null) => some attackFails
  | ("Status", some c) =>
    let field ← fields? ["kind", "target"] c
    some (condition (← (field "kind").required label?) (← (field "target").required label?))
  | ("Heal", some c) => (word? c).map heal
  | ("Discard", some c) => (EnergyDiscard.ofJson? c).map discard
  | _ => none

end FlipConsequence

namespace EnergySpec

def toJson : EnergySpec → Json
  | named e => variant "Named" (text (Labelled.label e))
  | ownType => text "OwnType"

def ofJson? (j : Json) : Option EnergySpec := do
  match ← variant? j with
  | ("Named", some c) => (label? c).map named
  | ("OwnType", none) => some ownType
  | ("OwnType", some .null) => some ownType
  | _ => none

end EnergySpec

namespace DamageCondition

def toJson : DamageCondition → Json
  | targetDamaged => text "TargetDamaged"
  | selfDamaged => text "SelfDamaged"
  | targetHasCondition c => variant "TargetHasStatus" (ofOption (text ∘ Labelled.label) c)
  | selfExtraEnergy e n =>
    variant "SelfExtraEnergy" (record [("energy", optionalEnergyToJson e), ("at_least", word n)])

def ofJson? (j : Json) : Option DamageCondition := do
  match ← variant? j with
  | ("TargetDamaged", none) => some targetDamaged
  | ("TargetDamaged", some .null) => some targetDamaged
  | ("SelfDamaged", none) => some selfDamaged
  | ("SelfDamaged", some .null) => some selfDamaged
  | ("TargetHasStatus", some c) => (option? label? c).map targetHasCondition
  | ("SelfExtraEnergy", some c) =>
    let field ← fields? ["energy", "at_least"] c
    some (selfExtraEnergy (← (field "energy").optional label?)
      (← (field "at_least").required word?))
  | _ => none

end DamageCondition

namespace CardFlow

def toJson : CardFlow → Json
  | draw n => variant "Draw" (word n)
  | search criteria => variant "Search" (record [("criteria", text criteria)])

def ofJson? (j : Json) : Option CardFlow := do
  match ← variant? j with
  | ("Draw", some c) => (word? c).map draw
  | ("Search", some c) =>
    let field ← fields? ["criteria"] c
    some (search (← (field "criteria").required text?))
  | _ => none

end CardFlow

namespace NameFilter

def toJson (f : NameFilter) : Json := record [("names", texts f.names)]

def ofJson? (j : Json) : Option NameFilter := do
  let field ← structure? ["names"] j
  some ⟨← (field "names").required (list? text?)⟩

end NameFilter

/-- A mechanism. -/
def Mechanism.toJson : Mechanism → Json
  | coinDamage => text "CoinDamage"
  | coinBonus => text "CoinBonus"
  | flatBonus => text "FlatBonus"
  | conditionalBonus c => variant "ConditionalBonus" c.toJson
  | energyScaling => text "EnergyScaling"
  | benchScaling => text "BenchScaling"
  | attackNegation => text "AttackNegation"
  | condition c => variant "Status" (text (Labelled.label c))
  | randomCondition => text "RandomStatus"
  | energyGain => text "EnergyGain"
  | energyLoss => text "EnergyLoss"
  | healing => text "Healing"
  | cardFlow => text "CardFlow"
  | manual => text "Manual"

/-! ## Effects -/

namespace Effect

/-- The parameters of an effect. -/
def parameters : Effect → Json
  | coinFlipDamage coins n => record [("coins", coins.toJson), ("per_heads", word n)]
  | coinFlipEnergy coins n energy target =>
    record [("coins", coins.toJson), ("per_heads", word n), ("energy", energy.toJson),
      ("target", text (Labelled.label target))]
  | coinFlipConditional coins wanted consequence =>
    record [("coins", word coins), ("on", text (Labelled.label wanted)),
      ("then", consequence.toJson)]
  | conditionApply c target =>
    record [("kind", text (Labelled.label c)), ("target", text (Labelled.label target))]
  | conditionApplyRandom target => record [("target", text (Labelled.label target))]
  | damageBonus n => record [("amount", word n)]
  | energyScalingDamage n e source =>
    record [("per_unit", word n), ("energy", optionalEnergyToJson e),
      ("source", text (Labelled.label source))]
  | conditionalDamage n c => record [("bonus", word n), ("condition", c.toJson)]
  | benchScalingDamage n side filter =>
    record [("per_unit", word n), ("side", text (Labelled.label side)),
      ("filter", ofOption NameFilter.toJson filter)]
  | heal n target => record [("amount", word n), ("target", text (Labelled.label target))]
  | healFull target => record [("target", text (Labelled.label target))]
  | energyAttach energy n target =>
    record [("energy", energy.toJson), ("count", word n),
      ("target", text (Labelled.label target))]
  | energyDiscard d => d.toJson
  | searchOrDraw flow => record [("flow", flow.toJson)]
  | unparsed s => record [("text", text s)]

/-- An effect: its parameters under the name of its kind. -/
def toJson (e : Effect) : Json := variant (Labelled.label e.kind) e.parameters

/-- The effect of a kind with the given parameters. -/
def ofParameters? (kind : EffectKind) (j : Json) : Option Effect := do
  match kind with
  | .coinFlipDamage =>
    let field ← structure? ["coins", "per_heads"] j
    some (coinFlipDamage (← (field "coins").required CoinCount.ofJson?)
      (← (field "per_heads").required word?))
  | .coinFlipEnergy =>
    let field ← structure? ["coins", "per_heads", "energy", "target"] j
    some (coinFlipEnergy (← (field "coins").required CoinCount.ofJson?)
      (← (field "per_heads").required word?) (← (field "energy").required EnergySpec.ofJson?)
      (← (field "target").required label?))
  | .coinFlipConditional =>
    let field ← structure? ["coins", "on", "then"] j
    some (coinFlipConditional (← (field "coins").required word?)
      (← (field "on").required label?) (← (field "then").required FlipConsequence.ofJson?))
  | .conditionApply =>
    let field ← structure? ["kind", "target"] j
    some (conditionApply (← (field "kind").required label?) (← (field "target").required label?))
  | .conditionApplyRandom =>
    let field ← structure? ["target"] j
    some (conditionApplyRandom (← (field "target").required label?))
  | .damageBonus =>
    let field ← structure? ["amount"] j
    some (damageBonus (← (field "amount").required word?))
  | .energyScalingDamage =>
    let field ← structure? ["per_unit", "energy", "source"] j
    some (energyScalingDamage (← (field "per_unit").required word?)
      (← (field "energy").optional label?) (← (field "source").required label?))
  | .conditionalDamage =>
    let field ← structure? ["bonus", "condition"] j
    some (conditionalDamage (← (field "bonus").required word?)
      (← (field "condition").required DamageCondition.ofJson?))
  | .benchScalingDamage =>
    let field ← structure? ["per_unit", "side", "filter"] j
    some (benchScalingDamage (← (field "per_unit").required word?)
      (← (field "side").required label?) (← (field "filter").optional NameFilter.ofJson?))
  | .heal =>
    let field ← structure? ["amount", "target"] j
    some (heal (← (field "amount").required word?) (← (field "target").required label?))
  | .healFull =>
    let field ← structure? ["target"] j
    some (healFull (← (field "target").required label?))
  | .energyAttach =>
    let field ← structure? ["energy", "count", "target"] j
    some (energyAttach (← (field "energy").required EnergySpec.ofJson?)
      (← (field "count").required word?) (← (field "target").required label?))
  | .energyDiscard => (EnergyDiscard.ofJson? j).map energyDiscard
  | .searchOrDraw =>
    let field ← structure? ["flow"] j
    some (searchOrDraw (← (field "flow").required CardFlow.ofJson?))
  | .unparsed =>
    let field ← structure? ["text"] j
    some (unparsed (← (field "text").required text?))

/-- The effect that a value describes. -/
def ofJson? (j : Json) : Option Effect := do
  match ← variant? j with
  | (name, some content) =>
    let kind ← Labelled.ofLabel? name
    ofParameters? kind content
  | _ => none

end Effect

/-! ## Plans -/

/-- Why an effect is not carried out. -/
def DropReason.toJson : DropReason → Json
  | mechanism winner m =>
    variant "Mechanism"
      (record [("by", text (Labelled.label winner)), ("mechanism", m.toJson)])
  | duplicate => text "Duplicate"

/-- An effect that is not carried out. -/
def Dropped.toJson (d : Dropped) : Json :=
  record [("descriptor", d.effect.toJson), ("reason", d.reason.toJson)]

/-- A plan. -/
def Plan.toJson (p : Plan) : Json :=
  record [("kept", Json.ofList Effect.toJson p.kept),
    ("suppressed", Json.ofList Dropped.toJson p.dropped)]

end CardEffects
