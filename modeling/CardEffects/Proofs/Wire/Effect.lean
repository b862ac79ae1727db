/-
  CardEffects.Proofs.Wire.Effect

  Effects and resolutions are read back from what they are written as, each type of parameters by a
  lemma of its own.  A resolution may also be written in another order, with unknown fields, and
  without damage that was not dealt.

    * `Effect.ofParameters?_parameters` — the parameters of an effect are read by its kind.
    * `Effect.ofJson?_toJson` — effects are read back.
    * `Resolution.faithful` — and so are resolutions, however written.
-/
import CardEffects.Proofs.Wire.Records
import CardEffects.Wire.Resolution

namespace CardEffects

open Json

/-! ## Parameters -/

@[simp] theorem option?_optionalEnergyToJson (e : Option Energy) :
    option? label? (optionalEnergyToJson e) = some e :=
  option?_ofOption label?_label (fun _ => Json.noConfusion) e

@[simp] theorem CoinCount.ofJson?_toJson (c : CoinCount) : ofJson? c.toJson = some c := by
  cases c <;> simp [toJson, ofJson?]

@[simp] theorem DiscardCount.ofJson?_toJson (c : DiscardCount) : ofJson? c.toJson = some c := by
  cases c <;> simp [toJson, ofJson?]

@[simp] theorem EnergyDiscard.ofJson?_toJson (d : EnergyDiscard) : ofJson? d.toJson = some d := by
  simp [toJson, ofJson?]

@[simp] theorem FlipConsequence.ofJson?_toJson (c : FlipConsequence) :
    ofJson? c.toJson = some c := by
  cases c <;> simp [toJson, ofJson?]

@[simp] theorem EnergySpec.ofJson?_toJson (s : EnergySpec) : ofJson? s.toJson = some s := by
  cases s <;> simp [toJson, ofJson?]

@[simp] theorem DamageCondition.ofJson?_toJson (c : DamageCondition) :
    ofJson? c.toJson = some c := by
  cases c <;> simp [toJson, ofJson?]

@[simp] theorem CardFlow.ofJson?_toJson (f : CardFlow) : ofJson? f.toJson = some f := by
  cases f <;> simp [toJson, ofJson?]

@[simp] theorem NameFilter.ofJson?_toJson (f : NameFilter) : ofJson? f.toJson = some f := by
  simp [toJson, ofJson?]

/-! ## Effects -/

namespace Effect

/-- The parameters of an effect are read back by its kind. -/
@[simp] theorem ofParameters?_parameters (e : Effect) :
    ofParameters? e.kind e.parameters = some e := by
  cases e with
  | benchScalingDamage n side filter =>
    have hfilter := option?_ofOption NameFilter.ofJson?_toJson (fun _ => Json.noConfusion) filter
    simp [kind, parameters, ofParameters?, hfilter]
  | _ => simp [kind, parameters, ofParameters?]

theorem ofJson?_toJson (e : Effect) : ofJson? e.toJson = some e := by
  simp [toJson, ofJson?]

end Effect

/-! ## Resolutions -/

@[simp] theorem FlipRecord.ofJson?_toJson (r : FlipRecord) : ofJson? r.toJson = some r := by
  simp [toJson, ofJson?, list?_ofList flag?_flag]

@[simp] theorem ConditionChange.ofJson?_toJson (c : ConditionChange) :
    ofJson? c.toJson = some c := by
  simp [toJson, ofJson?]

@[simp] theorem EnergyChange.ofJson?_toJson (c : EnergyChange) : ofJson? c.toJson = some c := by
  simp [toJson, ofJson?]

@[simp] theorem PendingAction.ofJson?_toJson (a : PendingAction) : ofJson? a.toJson = some a := by
  cases a <;> simp [toJson, ofJson?]

@[simp] theorem EffectRecord.ofJson?_toJson (r : EffectRecord) : ofJson? r.toJson = some r := by
  simp [toJson, ofJson?]

namespace Resolution

/-- A resolution.  Damage that was not dealt may be left out. -/
def Written (r : Resolution) : Json → Prop :=
  WrittenAs
    [⟨"base_damage", Encoded word r.base, False⟩, ⟨"bonus_damage", Encoded word r.bonus, False⟩,
      ⟨"total_damage", Encoded word r.total, False⟩,
      ⟨"attack_negated", Encoded flag r.negated, False⟩,
      ⟨"damage_dealt", OptionOf (Encoded word) r.dealt, r.dealt = none⟩,
      ⟨"knocked_out", Encoded flag r.knockedOut, False⟩,
      ⟨"coin_flips", ListOf (Encoded FlipRecord.toJson) r.flips, False⟩,
      ⟨"status_changes", ListOf (Encoded ConditionChange.toJson) r.conditionChanges, False⟩,
      ⟨"energy_changes", ListOf (Encoded EnergyChange.toJson) r.energyChanges, False⟩,
      ⟨"healed", Encoded word r.healed, False⟩,
      ⟨"pending", ListOf (Encoded PendingAction.toJson) r.pending, False⟩,
      ⟨"effects", ListOf (Encoded EffectRecord.toJson) r.effects, False⟩,
      ⟨"trace", ListOf (Encoded text) r.trace, False⟩]

theorem written_toJson (r : Resolution) : r.Written r.toJson :=
  writtenAs_record rfl
    ⟨rfl, rfl, rfl, rfl, optionOf_ofOption (encoded_self _) r.dealt, rfl,
      listOf_ofList (encoded_self _) r.flips, listOf_ofList (encoded_self _) r.conditionChanges,
      listOf_ofList (encoded_self _) r.energyChanges, rfl,
      listOf_ofList (encoded_self _) r.pending, listOf_ofList (encoded_self _) r.effects,
      listOf_ofList (encoded_self _) r.trace⟩

theorem faithful : Faithful Written ofJson? := by
  intro r j h
  refine h.structure?_bind rfl (by decide) ?_
  rintro field ⟨hbase, hbonus, htotal, hnegated, hdealt, hout, hflips, hconditions, henergy,
    hhealed, hpending, heffects, htrace⟩
  rw [hbase.required faithful_word, hbonus.required faithful_word, htotal.required faithful_word,
    hnegated.required faithful_flag, hdealt.optional faithful_word fun _ => Json.noConfusion,
    hout.required faithful_flag,
    hflips.required (Faithful.encoded FlipRecord.ofJson?_toJson).list,
    hconditions.required (Faithful.encoded ConditionChange.ofJson?_toJson).list,
    henergy.required (Faithful.encoded EnergyChange.ofJson?_toJson).list,
    hhealed.required faithful_word,
    hpending.required (Faithful.encoded PendingAction.ofJson?_toJson).list,
    heffects.required (Faithful.encoded EffectRecord.ofJson?_toJson).list,
    htrace.required faithful_text.list]
  rfl

end Resolution

end CardEffects
