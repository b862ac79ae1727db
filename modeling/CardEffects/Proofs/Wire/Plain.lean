/-
  CardEffects.Proofs.Wire.Plain

  Every encoder writes plain values: natural numbers, flags, texts of characters, and lists and
  records of these.  So what it writes can be laid out as a text and parsed again.
-/
import CardEffects.Proofs.Json.RoundTrip
import CardEffects.Wire.Card
import CardEffects.Wire.Combatant
import CardEffects.Wire.Config
import CardEffects.Wire.Resolution

namespace CardEffects

open Json

namespace Json

attribute [simp] Plain.null Plain.flag Plain.text

@[simp] theorem plain_word (n : Word) : Plain (word n) := .natural n.toNat

@[simp] theorem plain_list {items : List Json} : Plain (list items) ↔ ∀ j ∈ items, Plain j :=
  ⟨fun | .list h => h, .list⟩

@[simp] theorem plain_record {fields : List (String × Json)} :
    Plain (record fields) ↔ ∀ f ∈ fields, Plain f.2 :=
  ⟨fun | .record h => h, .record⟩

@[simp] theorem plain_variant {name : String} {content : Json} :
    Plain (variant name content) ↔ Plain content := by
  simp [variant]

variable {α : Type} {encode : α → Json}

@[simp] theorem plain_ofList (h : ∀ a, Plain (encode a)) (l : List α) :
    Plain (ofList encode l) := by
  simp [ofList, h]

@[simp] theorem plain_texts (l : List String) : Plain (texts l) := by
  simp [texts]

@[simp] theorem plain_ofOption (h : ∀ a, Plain (encode a)) (o : Option α) :
    Plain (ofOption encode o) := by
  cases o <;> simp [ofOption, h]

@[simp] theorem plain_ofEnumMap {κ : Type} [DecidableEq κ] [Labelled κ]
    (h : ∀ a, Plain (encode a)) (m : EnumMap κ α) : Plain (ofEnumMap encode m) := by
  refine .record fun f hf => ?_
  obtain ⟨e, -, rfl⟩ := List.mem_map.1 hf
  exact h e.2

end Json

/-! ## Effects -/

@[simp] theorem plain_optionalEnergyToJson (e : Option Energy) : Plain (optionalEnergyToJson e) :=
  plain_ofOption (fun _ => .text _) e

@[simp] theorem CoinCount.plain_toJson (c : CoinCount) : Plain c.toJson := by
  cases c <;> simp [toJson]

@[simp] theorem DiscardCount.plain_toJson (c : DiscardCount) : Plain c.toJson := by
  cases c <;> simp [toJson]

@[simp] theorem EnergyDiscard.plain_toJson (d : EnergyDiscard) : Plain d.toJson := by
  simp [toJson]

@[simp] theorem FlipConsequence.plain_toJson (c : FlipConsequence) : Plain c.toJson := by
  cases c <;> simp [toJson]

@[simp] theorem EnergySpec.plain_toJson (s : EnergySpec) : Plain s.toJson := by
  cases s <;> simp [toJson]

@[simp] theorem DamageCondition.plain_toJson (c : DamageCondition) : Plain c.toJson := by
  cases c <;> simp [toJson]

@[simp] theorem CardFlow.plain_toJson (f : CardFlow) : Plain f.toJson := by
  cases f <;> simp [toJson]

@[simp] theorem NameFilter.plain_toJson (f : NameFilter) : Plain f.toJson := by
  simp [toJson]

theorem Effect.plain_toJson (e : Effect) : Plain e.toJson := by
  cases e <;> simp [toJson, parameters]

/-! ## Resolutions -/

@[simp] theorem FlipRecord.plain_toJson (r : FlipRecord) : Plain r.toJson := by
  simp [toJson]

@[simp] theorem ConditionChange.plain_toJson (c : ConditionChange) : Plain c.toJson := by
  simp [toJson]

@[simp] theorem EnergyChange.plain_toJson (c : EnergyChange) : Plain c.toJson := by
  simp [toJson]

@[simp] theorem PendingAction.plain_toJson (a : PendingAction) : Plain a.toJson := by
  cases a <;> simp [toJson]

@[simp] theorem EffectRecord.plain_toJson (r : EffectRecord) : Plain r.toJson := by
  simp [toJson]

theorem Resolution.plain_toJson (r : Resolution) : Plain r.toJson := by
  simp [toJson]

/-! ## Settings -/

@[simp] theorem ConditionRule.plain_toJson (r : ConditionRule) : Plain r.toJson := by
  simp [toJson]

theorem Config.plain_toJson (c : Config) : Plain c.toJson := by
  simp [toJson, ConditionRules.toJson]

/-! ## Combatants -/

@[simp] theorem EnergyPool.plain_toJson (p : EnergyPool) : Plain p.toJson := by
  simp [toJson]

@[simp] theorem ConditionEntry.plain_toJson (e : ConditionEntry) : Plain e.toJson := by
  simp [toJson]

@[simp] theorem Conditions.plain_toJson (s : Conditions) : Plain s.toJson := by
  simp [toJson]

@[simp] theorem BenchOccupant.plain_toJson (o : BenchOccupant) : Plain o.toJson := by
  simp [toJson]

theorem Combatant.plain_toJson (c : Combatant) : Plain c.toJson := by
  simp [toJson]

/-! ## Cards -/

@[simp] theorem CostSymbol.plain_toJson (s : CostSymbol) : Plain s.toJson := .text _

@[simp] theorem Attack.plain_toJson (a : Attack) : Plain a.toJson := by
  simp [toJson]

@[simp] theorem Ability.plain_toJson (a : Ability) : Plain a.toJson := by
  simp [toJson]

theorem Card.plain_toJson (c : Card) : Plain c.toJson := by
  simp [toJson]

end CardEffects
