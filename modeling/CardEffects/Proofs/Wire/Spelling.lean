/-
  CardEffects.Proofs.Wire.Spelling

  The ways to write settings, combatants and cards.  Each structure is a record of its fields in any
  order, with any unknown fields among them.  A field with a default may be left out where it has
  that value, and a symbol of a cost may be written by any token that stands for it.

    * `Written` — the ways to write each structure, the encoder's among them (`written_toJson`).
    * `faithful` — its decoder reads all of them back.
-/
import CardEffects.Proofs.Wire.Records
import CardEffects.Wire.Card
import CardEffects.Wire.Combatant
import CardEffects.Wire.Config

namespace CardEffects

open Json

/-! ## Settings -/

namespace ConditionRule

/-- A rule.  Its damage may be left out where it does none, and what it blocks where it blocks
nothing. -/
def Written (r : ConditionRule) : Json → Prop :=
  WrittenAs
    [⟨"kind", Encoded labelText r.condition, False⟩,
      ⟨"between_turn_damage", Encoded word r.damage, r.damage = 0⟩,
      ⟨"removal", Encoded labelText r.removal, False⟩,
      ⟨"blocks", ListOf (Encoded labelText) r.blocks, r.blocks = []⟩]

theorem written_toJson (r : ConditionRule) : r.Written r.toJson :=
  writtenAs_record rfl ⟨rfl, rfl, rfl, listOf_ofList (encoded_self _) r.blocks⟩

theorem faithful : Faithful Written ofJson? := by
  intro r j h
  refine h.structure?_bind rfl (by decide) ?_
  rintro field ⟨hkind, hdamage, hremoval, hblocks⟩
  rw [hkind.required faithful_label, hdamage.orDefault faithful_word,
    hremoval.required faithful_label, hblocks.orDefault faithful_label.list]
  rfl

end ConditionRule

namespace ConditionRules

/-- A table of rules. -/
def Written (t : ConditionRules) : Json → Prop :=
  WrittenAs [⟨"rules", ListOf ConditionRule.Written t.rules, False⟩]

theorem written_toJson (t : ConditionRules) : t.Written t.toJson :=
  writtenAs_record rfl (listOf_ofList ConditionRule.written_toJson t.rules)

theorem faithful : Faithful Written ofJson? := by
  intro t j h
  refine h.structure?_bind rfl (by decide) fun field hrules => ?_
  rw [hrules.required ConditionRule.faithful.list]
  rfl

end ConditionRules

namespace Config

/-- Settings.  Whatever is as in the standard settings may be left out. -/
def Written (c : Config) : Json → Prop :=
  WrittenAs
    [⟨"max_flips_until_tails", Encoded word c.maxFlips, c.maxFlips = standard.maxFlips⟩,
      ⟨"apply_damage_to_defender", Encoded flag c.applyDamage,
        c.applyDamage = standard.applyDamage⟩,
      ⟨"confusion_check", Encoded flag c.confusionCheck,
        c.confusionCheck = standard.confusionCheck⟩,
      ⟨"status", c.conditionRules.Written, c.conditionRules = standard.conditionRules⟩]

theorem written_toJson (c : Config) : c.Written c.toJson :=
  writtenAs_record rfl ⟨rfl, rfl, rfl, c.conditionRules.written_toJson⟩

theorem faithful : Faithful Written ofJson? := by
  intro c j h
  refine h.structure?_bind rfl (by decide) ?_
  rintro field ⟨hflips, hdamage, hcheck, hrules⟩
  rw [hflips.orDefault faithful_word, hdamage.orDefault faithful_flag,
    hcheck.orDefault faithful_flag, hrules.orDefault ConditionRules.faithful]
  rfl

end Config

/-! ## Combatants -/

namespace EnergyPool

/-- A pool of energy. -/
def Written (p : EnergyPool) : Json → Prop :=
  WrittenAs [⟨"units", MapOf (Encoded word) p.units, False⟩]

theorem written_toJson (p : EnergyPool) : p.Written p.toJson :=
  writtenAs_record rfl (mapOf_ofEnumMap (encoded_self _) p.units)

theorem faithful : Faithful Written ofJson? := by
  intro p j h
  refine h.structure?_bind rfl (by decide) fun field hunits => ?_
  rw [hunits.required faithful_word.enumMap]
  rfl

end EnergyPool

namespace ConditionEntry

/-- A condition in force. -/
def Written (e : ConditionEntry) : Json → Prop :=
  WrittenAs
    [⟨"kind", Encoded labelText e.condition, False⟩,
      ⟨"applied_turn", Encoded word e.since, False⟩]

theorem written_toJson (e : ConditionEntry) : e.Written e.toJson :=
  writtenAs_record rfl ⟨rfl, rfl⟩

theorem faithful : Faithful Written ofJson? := by
  intro e j h
  refine h.structure?_bind rfl (by decide) ?_
  rintro field ⟨hkind, hsince⟩
  rw [hkind.required faithful_label, hsince.required faithful_word]
  rfl

end ConditionEntry

namespace Conditions

/-- The conditions in force. -/
def Written (s : Conditions) : Json → Prop :=
  WrittenAs [⟨"active", MapOf ConditionEntry.Written s.active, False⟩]

theorem written_toJson (s : Conditions) : s.Written s.toJson :=
  writtenAs_record rfl (mapOf_ofEnumMap ConditionEntry.written_toJson s.active)

theorem faithful : Faithful Written ofJson? := by
  intro s j h
  refine h.structure?_bind rfl (by decide) fun field hactive => ?_
  rw [hactive.required ConditionEntry.faithful.enumMap]
  rfl

end Conditions

namespace BenchOccupant

/-- A Pokémon on the bench.  Its energy may be left out where it has none. -/
def Written (o : BenchOccupant) : Json → Prop :=
  WrittenAs
    [⟨"name", Encoded text o.name, False⟩, ⟨"hp", Encoded word o.hp, False⟩,
      ⟨"max_hp", Encoded word o.maxHp, False⟩, ⟨"energy", o.energy.Written, o.energy = ∅⟩]

theorem written_toJson (o : BenchOccupant) : o.Written o.toJson :=
  writtenAs_record rfl ⟨rfl, rfl, rfl, o.energy.written_toJson⟩

theorem faithful : Faithful Written ofJson? := by
  intro o j h
  refine h.structure?_bind rfl (by decide) ?_
  rintro field ⟨hname, hhp, hmax, henergy⟩
  rw [hname.required faithful_text, hhp.required faithful_word, hmax.required faithful_word,
    henergy.orDefault EnergyPool.faithful]
  rfl

end BenchOccupant

namespace Combatant

/-- An active Pokémon.  Energy, conditions and bench may be left out where there are none. -/
def Written (c : Combatant) : Json → Prop :=
  WrittenAs
    [⟨"name", Encoded text c.name, False⟩, ⟨"energy_type", Encoded labelText c.energyType, False⟩,
      ⟨"hp", Encoded word c.hp, False⟩, ⟨"max_hp", Encoded word c.maxHp, False⟩,
      ⟨"energy", c.energy.Written, c.energy = ∅⟩,
      ⟨"conditions", c.conditions.Written, c.conditions = ∅⟩,
      ⟨"bench", ListOf (OptionOf BenchOccupant.Written) c.bench, c.bench = []⟩]

theorem written_toJson (c : Combatant) : c.Written c.toJson :=
  writtenAs_record rfl
    ⟨rfl, rfl, rfl, rfl, c.energy.written_toJson, c.conditions.written_toJson,
      listOf_ofList (optionOf_ofOption BenchOccupant.written_toJson) c.bench⟩

theorem faithful : Faithful Written ofJson? := by
  intro c j h
  refine h.structure?_bind rfl (by decide) ?_
  rintro field ⟨hname, htype, hhp, hmax, henergy, hconditions, hbench⟩
  have hslot := BenchOccupant.faithful.option fun _ => WrittenAs.ne_null
  rw [hname.required faithful_text, htype.required faithful_label, hhp.required faithful_word,
    hmax.required faithful_word, henergy.orDefault EnergyPool.faithful,
    hconditions.orDefault Conditions.faithful, hbench.orDefault hslot.list]
  rfl

end Combatant

/-! ## Cards -/

namespace CostSymbol

/-- A symbol of a cost: any token that stands for it. -/
def Written (s : CostSymbol) (j : Json) : Prop :=
  ∃ token : String, j = text token ∧ ofToken? token.toList = some s

theorem written_toJson (s : CostSymbol) : s.Written s.toJson := ⟨s.token, rfl, ofToken?_token s⟩

theorem faithful : Faithful Written ofJson? := by
  rintro s _ ⟨token, rfl, htoken⟩
  exact htoken

end CostSymbol

namespace Attack

/-- An attack.  Cost, damage and text may be left out where there are none. -/
def Written (a : Attack) : Json → Prop :=
  WrittenAs
    [⟨"name", Encoded text a.name, False⟩,
      ⟨"cost", ListOf CostSymbol.Written a.cost, a.cost = []⟩,
      ⟨"damage", Encoded word a.damage, a.damage = 0⟩,
      ⟨"effect", Encoded text a.effect, a.effect = ""⟩]

theorem written_toJson (a : Attack) : a.Written a.toJson :=
  writtenAs_record rfl ⟨rfl, listOf_ofList CostSymbol.written_toJson a.cost, rfl, rfl⟩

theorem faithful : Faithful Written ofJson? := by
  intro a j h
  refine h.structure?_bind rfl (by decide) ?_
  rintro field ⟨hname, hcost, hdamage, heffect⟩
  rw [hname.required faithful_text, hcost.orDefault CostSymbol.faithful.list,
    hdamage.orDefault faithful_word, heffect.orDefault faithful_text]
  rfl

end Attack

namespace Ability

/-- An ability.  Its text may be left out where it has none. -/
def Written (a : Ability) : Json → Prop :=
  WrittenAs
    [⟨"name", Encoded text a.name, False⟩, ⟨"effect", Encoded text a.effect, a.effect = ""⟩]

theorem written_toJson (a : Ability) : a.Written a.toJson := writtenAs_record rfl ⟨rfl, rfl⟩

theorem faithful : Faithful Written ofJson? := by
  intro a j h
  refine h.structure?_bind rfl (by decide) ?_
  rintro field ⟨hname, heffect⟩
  rw [hname.required faithful_text, heffect.orDefault faithful_text]
  rfl

end Ability

namespace Card

/-- A card.  Whatever it has none of may be left out. -/
def Written (c : Card) : Json → Prop :=
  WrittenAs
    [⟨"id", Encoded text c.id, False⟩, ⟨"name", Encoded text c.name, False⟩,
      ⟨"category", Encoded labelText c.category, False⟩, ⟨"hp", Encoded word c.hp, c.hp = 0⟩,
      ⟨"energy_type", OptionOf (Encoded labelText) c.energyType, c.energyType = none⟩,
      ⟨"attacks", ListOf Attack.Written c.attacks, c.attacks = []⟩,
      ⟨"abilities", ListOf Ability.Written c.abilities, c.abilities = []⟩,
      ⟨"effect", Encoded text c.effect, c.effect = ""⟩]

theorem written_toJson (c : Card) : c.Written c.toJson :=
  writtenAs_record rfl
    ⟨rfl, rfl, rfl, rfl, optionOf_ofOption (encoded_self _) c.energyType,
      listOf_ofList Attack.written_toJson c.attacks,
      listOf_ofList Ability.written_toJson c.abilities, rfl⟩

theorem faithful : Faithful Written ofJson? := by
  intro c j h
  refine h.structure?_bind rfl (by decide) ?_
  rintro field ⟨hid, hname, hcategory, hhp, htype, hattacks, habilities, heffect⟩
  have henergy := (@faithful_label Energy _).option fun _ => Json.noConfusion
  rw [hid.required faithful_text, hname.required faithful_text,
    hcategory.required faithful_label, hhp.orDefault faithful_word, htype.orDefault henergy,
    hattacks.orDefault Attack.faithful.list, habilities.orDefault Ability.faithful.list,
    heffect.orDefault faithful_text]
  rfl

end Card

end CardEffects
