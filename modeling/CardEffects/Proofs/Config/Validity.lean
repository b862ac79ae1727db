/-
  CardEffects.Proofs.Config.Validity

  Which settings are valid, and that no others get in.  Settings are valid when coins may be
  flipped at all and every condition has one rule and no more, which is said by counting the rules
  of the table.  Of all faults the cap is reported first, and then that of the first condition
  that does not have one rule.

    * `Config.Valid`, `Config.validate_eq_ok_iff` — the settings that pass.
    * `Config.FirstFault`, `Config.validate_eq_error_iff` — what is reported of all others.
    * `Engine.ofValid_eq_ok_iff`, `loadConfig_eq_ok_iff` — an engine is made, and settings are
      loaded, from valid ones alone.
-/
import CardEffects.Engine
import CardEffects.Load

namespace CardEffects

/-! ## Rules of a table -/

namespace ConditionRules

variable (t : ConditionRules) (k : Condition)

/-- The rules of a table for one condition. -/
def rulesFor : List ConditionRule := t.rules.filter fun r => r.condition == k

/-- The rule that is played by is the first of them. -/
theorem rule_eq : t.rule k = (t.rulesFor k).head?.getD (.standard k) := by
  rw [rule, rulesFor, List.head?_filter]

/-- Where there is one rule it is played by, and the rule of the game never comes in. -/
theorem rulesFor_eq_of_length (h : (t.rulesFor k).length = 1) : t.rulesFor k = [t.rule k] := by
  obtain ⟨r, hr⟩ := List.length_eq_one_iff.1 h
  rw [rule_eq, hr]
  rfl

/-- A table is at fault with regard to a condition that does not have one rule. -/
theorem faultOf?_eq : t.faultOf? k
    = match (t.rulesFor k).length with
      | 0 => some (.missingRule k)
      | 1 => none
      | _ => some (.duplicateRule k) := by
  rw [faultOf?, List.countP_eq_length_filter]
  rfl

theorem faultOf?_eq_none_iff : t.faultOf? k = none ↔ (t.rulesFor k).length = 1 := by
  rw [faultOf?_eq]
  rcases (t.rulesFor k).length with _ | _ | n <;> simp

theorem faultOf?_eq_some_iff (e : EngineError) :
    t.faultOf? k = some e
      ↔ ((t.rulesFor k).length = 0 ∧ e = .missingRule k)
        ∨ 2 ≤ (t.rulesFor k).length ∧ e = .duplicateRule k := by
  rw [faultOf?_eq]
  rcases (t.rulesFor k).length with _ | _ | n <;> simp [eq_comm]

end ConditionRules

/-! ## Valid settings -/

namespace Config

/-- Coins may be flipped, and every condition has exactly one rule. -/
structure Valid (c : Config) : Prop where
  cap : 1 ≤ c.maxFlips.toNat
  rules : ∀ k, (c.conditionRules.rulesFor k).length = 1

/-- The fault that is reported of settings: that of the cap before any other, and else that of the
first condition that does not have exactly one rule. -/
inductive FirstFault (c : Config) : EngineError → Prop
  | cap (h : c.maxFlips.toNat = 0) : FirstFault c .zeroFlipCap
  | missing (k : Condition) (hcap : 1 ≤ c.maxFlips.toNat)
      (hbefore : ∀ l, Enumeration.position l < Enumeration.position k →
        (c.conditionRules.rulesFor l).length = 1)
      (hnone : (c.conditionRules.rulesFor k).length = 0) : FirstFault c (.missingRule k)
  | duplicate (k : Condition) (hcap : 1 ≤ c.maxFlips.toNat)
      (hbefore : ∀ l, Enumeration.position l < Enumeration.position k →
        (c.conditionRules.rulesFor l).length = 1)
      (hmany : 2 ≤ (c.conditionRules.rulesFor k).length) : FirstFault c (.duplicateRule k)

variable {c : Config}

theorem maxFlips_eq_zero_iff : c.maxFlips = 0 ↔ c.maxFlips.toNat = 0 := UInt32.toNat_inj.symm

theorem fault?_eq_none_iff : c.fault? = none ↔ c.Valid := by
  unfold fault?
  split
  next hzero =>
    have hcap : ¬ 1 ≤ c.maxFlips.toNat := by
      rw [maxFlips_eq_zero_iff.1 hzero]
      decide
    exact ⟨fun h => (nomatch h), fun h => absurd h.cap hcap⟩
  next hcap =>
    rw [maxFlips_eq_zero_iff] at hcap
    simp only [List.findSome?_eq_none_iff, Enumeration.mem_all, forall_const,
      ConditionRules.faultOf?_eq_none_iff]
    exact ⟨fun h => ⟨by omega, h⟩, fun h => h.rules⟩

theorem fault?_eq_some_iff {e : EngineError} : c.fault? = some e ↔ c.FirstFault e := by
  unfold fault?
  split
  next hzero =>
    rw [maxFlips_eq_zero_iff] at hzero
    constructor
    · intro h
      obtain rfl := Option.some.inj h
      exact .cap hzero
    · -- without a coin to flip no other fault is reported
      intro h
      cases h with
      | cap => rfl
      | missing k hcap => omega
      | duplicate k hcap => omega
  next hcap =>
    rw [maxFlips_eq_zero_iff] at hcap
    have hsome : 1 ≤ c.maxFlips.toNat := by omega
    simp only [Enumeration.findSome?_all_eq_some_iff, ConditionRules.faultOf?_eq_none_iff,
      ConditionRules.faultOf?_eq_some_iff]
    constructor
    · rintro ⟨k, ⟨hnone, rfl⟩ | ⟨hmany, rfl⟩, hbefore⟩
      · exact .missing k hsome hbefore hnone
      · exact .duplicate k hsome hbefore hmany
    · intro h
      cases h with
      | cap hzero => exact absurd hzero hcap
      | missing k _ hbefore hnone => exact ⟨k, .inl ⟨hnone, rfl⟩, hbefore⟩
      | duplicate k _ hbefore hmany => exact ⟨k, .inr ⟨hmany, rfl⟩, hbefore⟩

theorem validate_eq_ok_iff {c' : Config} : c.validate = .ok c' ↔ c' = c ∧ c.Valid := by
  unfold validate
  cases hfault : c.fault? with
  | none =>
    have hvalid := fault?_eq_none_iff.1 hfault
    exact ⟨fun h => ⟨(Except.ok.inj h).symm, hvalid⟩, fun h => congrArg Except.ok h.1.symm⟩
  | some e =>
    have hinvalid : ¬ c.Valid := fun h => by
      rw [fault?_eq_none_iff.2 h] at hfault
      cases hfault
    exact ⟨fun h => (nomatch h), fun h => absurd h.2 hinvalid⟩

theorem validate_eq_error_iff {e : EngineError} : c.validate = .error e ↔ c.FirstFault e := by
  rw [← fault?_eq_some_iff]
  unfold validate
  cases c.fault? with
  | none => exact ⟨fun h => (nomatch h), fun h => (nomatch h)⟩
  | some e' => exact ⟨fun h => congrArg some (Except.error.inj h),
      fun h => congrArg Except.error (Option.some.inj h)⟩

theorem valid_standard : standard.Valid := (validate_eq_ok_iff.1 validate_standard).2

end Config

/-! ## Ways in -/

/-- An engine is made of valid settings, and of no others. -/
theorem Engine.ofValid_eq_ok_iff {c : Config} {g : Engine} :
    Engine.ofValid c = .ok g ↔ c.Valid ∧ g = .ofConfig c := by
  unfold ofValid
  cases h : c.validate with
  | ok c' =>
    obtain ⟨rfl, hvalid⟩ := Config.validate_eq_ok_iff.1 h
    exact ⟨fun hg => ⟨hvalid, (Except.ok.inj hg).symm⟩, fun hg => congrArg Except.ok hg.2.symm⟩
  | error e =>
    have hinvalid : ¬ c.Valid := fun hvalid => by
      rw [Config.validate_eq_ok_iff.2 ⟨rfl, hvalid⟩] at h
      cases h
    exact ⟨fun hg => (nomatch hg), fun hg => absurd hg.1 hinvalid⟩

/-- Settings are loaded when something is read under the path, and that is valid. -/
theorem loadConfig_eq_ok_iff {path : String} {found : Option Entry} {c : Config} :
    loadConfig path found = .ok c ↔ readConfig path found = .ok c ∧ c.Valid := by
  unfold loadConfig
  cases hread : readConfig path found with
  | error e => exact ⟨fun h => (nomatch h), fun h => (nomatch h.1)⟩
  | ok config =>
    dsimp only
    cases hvalidate : config.validate with
    | ok config' =>
      obtain ⟨rfl, hvalid⟩ := Config.validate_eq_ok_iff.1 hvalidate
      exact ⟨fun h => ⟨h, Except.ok.inj h ▸ hvalid⟩, fun h => h.1⟩
    | error fault =>
      refine ⟨fun h => (nomatch h), fun ⟨hconfig, hvalid⟩ => ?_⟩
      obtain rfl := Except.ok.inj hconfig
      rw [Config.validate_eq_ok_iff.2 ⟨rfl, hvalid⟩] at hvalidate
      cases hvalidate

/-- Settings that are read and not valid are refused under their path, with their first fault. -/
theorem loadConfig_of_fault {path : String} {found : Option Entry} {c : Config} {e : EngineError}
    (hread : readConfig path found = .ok c) (hfault : c.FirstFault e) :
    loadConfig path found = .error (.invalid path e) := by
  unfold loadConfig
  rw [hread]
  dsimp only
  rw [Config.validate_eq_error_iff.2 hfault]

/-- Where nothing is found, the settings are the standard ones. -/
theorem loadConfig_none (path : String) : loadConfig path none = .ok .standard :=
  loadConfig_eq_ok_iff.2 ⟨rfl, Config.valid_standard⟩

end CardEffects
