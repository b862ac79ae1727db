/-
  CardEffects.Proofs.Ledger.Gains

  Where gained energy comes from.  Two kinds of effect produce energy, and what they produce is of
  the type that they name, or of the type of the acting Pokémon where they name none.  So every gain
  in the resolution of a text goes back to a clause of the text that names that type, or names none;
  a clause that asks for colorless energy brings nothing.

    * `Effect.exists_spec_of_gain` — an effect that reports a gain produces energy of that type.
    * `Registry.CarriedOut`, `Registry.exists_carriedOut` — what a run reports was reported by one
      of its effects, on the board that those before it left.
    * `Engine.Gained`, `Engine.Resolves.gained` — so is every gain in a resolution, by an effect
      that was read from clauses of that type.
    * `EnergyAsNamed`, `energyAsNamed` — energy from the clause to the resolution.
-/
import CardEffects.Proofs.Execution
import CardEffects.Proofs.FlipCounts
import CardEffects.Proofs.Plan.Sides
import CardEffects.Proofs.Reading.Account
import CardEffects.Proofs.Reading.EnergyTokens
import CardEffects.Proofs.Upkeep.Battle

namespace CardEffects

/-! ## Gains of one effect -/

/-- No gain is reported. -/
def Outcome.Gainless (o : Outcome) : Prop := ∀ c ∈ o.energyChanges, c.direction ≠ .gain

theorem Outcome.gainless_of_nil {o : Outcome} (h : o.energyChanges = []) : o.Gainless := by
  intro c hc
  rw [h] at hc
  cases hc

namespace Application

variable (s : Setting) (b : Board) (kind : EffectKind)

theorem gainless_inflict (c : Condition) (target : ConditionTarget) :
    (inflict s b kind c target).1.Gainless := by
  unfold inflict
  split
  · exact Outcome.gainless_of_nil rfl
  · dsimp only
    split <;> exact Outcome.gainless_of_nil rfl

theorem gainless_inflictRandom (target : ConditionTarget) :
    (inflictRandom s b target).1.Gainless := by
  unfold inflictRandom
  split
  · exact Outcome.gainless_of_nil rfl
  · split <;> exact Outcome.gainless_of_nil rfl

theorem gainless_heal (target : HealTarget) (amount : Option Word) :
    (heal b kind target amount).1.Gainless := by
  unfold heal
  dsimp only
  split <;> exact Outcome.gainless_of_nil rfl

theorem gainless_conditionalDamage (bonus : Word) (c : DamageCondition) :
    (conditionalDamage s b bonus c).Gainless := by
  unfold conditionalDamage
  split <;> exact Outcome.gainless_of_nil rfl

/-- What is discarded is lost. -/
theorem gainless_discard (d : EnergyDiscard) : (discard b kind d).1.Gainless := by
  unfold discard
  split
  · exact Outcome.gainless_of_nil rfl
  · dsimp only
    split
    · exact Outcome.gainless_of_nil rfl
    · intro c hc
      obtain ⟨u, -, rfl⟩ := List.mem_map.1 hc
      exact nofun

theorem gainless_consequence (note : String) (c : FlipConsequence) :
    (consequence s b note c).1.Gainless := by
  cases c with
  | bonusDamage amount => exact Outcome.gainless_of_nil rfl
  | attackFails => exact Outcome.gainless_of_nil rfl
  | condition c target => exact gainless_inflict s b .coinFlipConditional c target
  | heal amount => exact gainless_heal b .coinFlipConditional .this (some amount)
  | discard d => exact gainless_discard b .coinFlipConditional d

theorem gainless_coinFlipConditional (coins : Word) (wanted : CoinFace) (c : FlipConsequence) :
    (coinFlipConditional s b coins wanted c).1.Gainless := by
  unfold coinFlipConditional
  dsimp only
  split
  · exact gainless_consequence s _ _ c
  · exact Outcome.gainless_of_nil rfl

/-- What is attached is energy of the type given. -/
theorem energy_of_mem_attach {energy : Energy} {units : Word} {target : EnergyTarget}
    {c : EnergyChange} (hc : c ∈ (attach b kind energy units target).1.energyChanges) :
    c.energy = energy := by
  rw [energyChanges_attach] at hc
  split at hc
  · cases hc
  · split at hc <;> rw [List.mem_singleton.1 hc]

end Application

/-- The energy that an effect produces, for the two kinds that produce energy. -/
def Effect.produces? : Effect → Option EnergySpec
  | coinFlipEnergy _ _ spec _ => some spec
  | energyAttach spec _ _ => some spec
  | _ => none

open Application in
/-- Only an effect that produces energy reports a gain, and it is one of that energy. -/
theorem Effect.exists_spec_of_gain {s : Setting} {b : Board} {e : Effect} {c : EnergyChange}
    (hc : c ∈ (e.apply s b).1.energyChanges) (hgain : c.direction = .gain) :
    ∃ spec, e.produces? = some spec ∧ c.energy = energyOf b spec := by
  have hnone {o : Outcome} (h : o.Gainless) (hc : c ∈ o.energyChanges) :
      ∃ spec, e.produces? = some spec ∧ c.energy = energyOf b spec := absurd hgain (h c hc)
  cases e with
  | coinFlipEnergy coins perHeads spec target =>
    have henergy := energy_of_mem_attach (b.flip s coins).2 .coinFlipEnergy hc
    refine ⟨spec, rfl, henergy.trans ?_⟩
    cases spec <;> rfl
  | energyAttach spec n target => exact ⟨spec, rfl, energy_of_mem_attach b .energyAttach hc⟩
  | coinFlipDamage coins perHeads => exact hnone (Outcome.gainless_of_nil rfl) hc
  | coinFlipConditional coins wanted q =>
    exact hnone (gainless_coinFlipConditional s b coins wanted q) hc
  | conditionApply q target => exact hnone (gainless_inflict s b _ q target) hc
  | conditionApplyRandom target => exact hnone (gainless_inflictRandom s b target) hc
  | damageBonus amount => exact hnone (Outcome.gainless_of_nil rfl) hc
  | energyScalingDamage each energy source => exact hnone (Outcome.gainless_of_nil rfl) hc
  | conditionalDamage bonus q => exact hnone (gainless_conditionalDamage s b bonus q) hc
  | benchScalingDamage each side filter => exact hnone (Outcome.gainless_of_nil rfl) hc
  | heal amount target => exact hnone (gainless_heal b _ target (some amount)) hc
  | healFull target => exact hnone (gainless_heal b _ target none) hc
  | energyDiscard d => exact hnone (gainless_discard b _ d) hc
  | searchOrDraw flow => exact hnone (Outcome.gainless_of_nil rfl) hc
  | unparsed text => exact hnone (Outcome.gainless_of_nil rfl) hc

/-! ## Runs -/

namespace Registry

variable (reg : Registry) (s : Setting)

/-- What carrying out the effects before it leaves, keeps up the board. -/
theorem upkept_boardAfter (b : Board) (es : List Effect) : b.Upkept (reg.boardAfter s b es) := by
  induction es generalizing b with
  | nil => exact .refl b
  | cons e es ih => exact (reg.upkept_execute s b e).trans (ih _)

/-- An effect is one of a run, none before it cancels the attack, and `o` is its outcome. -/
def CarriedOut (b : Board) (es : List Effect) (e : Effect) (o : Outcome) : Prop :=
  ∃ before after, es = before ++ e :: after ∧ reg.cancelledAt? s b before = none
    ∧ o = (reg.execute s (reg.boardAfter s b before) e).1

theorem exists_of_mem_outcomesReached {b : Board} {es : List Effect} {o : Outcome}
    (h : o ∈ reg.outcomesReached s b es) : ∃ e, reg.CarriedOut s b es e o := by
  unfold outcomesReached at h
  -- along the effects, up to the one that cancels the attack
  induction es generalizing b with
  | nil => cases h
  | cons e es ih =>
    have hhead : reg.CarriedOut s b (e :: es) e (reg.execute s b e).1 :=
      ⟨[], es, rfl, rfl, rfl⟩
    rw [reached_cons] at h
    split at h
    next =>
      rw [List.take_succ_cons, outcomes] at h
      obtain rfl := List.mem_singleton.1 h
      exact ⟨e, hhead⟩
    next hgoing =>
      rw [List.take_succ_cons, outcomes] at h
      rcases List.mem_cons.1 h with rfl | h
      · exact ⟨e, hhead⟩
      · obtain ⟨e', before, after, rfl, hnone, rfl⟩ := ih h
        refine ⟨e', e :: before, after, rfl, ?_, rfl⟩
        rw [cancelledAt?_cons, if_neg hgoing, hnone]
        rfl

/-- Every change that a run reports was reported by one of its effects. -/
theorem exists_carriedOut {b : Board} {base : Word} {es : List Effect} {c : EnergyChange}
    (h : c ∈ (reg.run s b base es).1.energyChanges) :
    ∃ e o, reg.CarriedOut s b es e o ∧ c ∈ o.energyChanges := by
  rw [reg.gathers_run s b Resolution.energyChanges (fun _ _ _ => rfl) base rfl
    (fun _ _ => rfl) es] at h
  obtain ⟨o, ho, hc⟩ := List.mem_flatMap.1 h
  obtain ⟨e, he⟩ := reg.exists_of_mem_outcomesReached s ho
  exact ⟨e, o, he, hc⟩

/-- An effect that is carried out and reports a gain produces energy of that type. -/
theorem CarriedOut.exists_spec_of_gain {reg : Registry} {s : Setting} {b : Board}
    {es : List Effect} {e : Effect} {o : Outcome} (h : reg.CarriedOut s b es e o)
    {c : EnergyChange} (hc : c ∈ o.energyChanges) (hgain : c.direction = .gain) :
    ∃ spec, e.produces? = some spec ∧ c.energy = Application.energyOf b spec := by
  obtain ⟨before, after, -, -, rfl⟩ := h
  have htype := (reg.upkept_boardAfter s b before).attacker.kept.energyType
  have hnone : ∀ k, (Outcome.notImplemented k).Gainless := fun k => Outcome.gainless_of_nil rfl
  unfold execute at hc
  split at hc
  · exact absurd hgain (hnone _ c hc)
  · split at hc
    · obtain ⟨spec, hspec, henergy⟩ := Effect.exists_spec_of_gain hc hgain
      refine ⟨spec, hspec, henergy.trans ?_⟩
      cases spec with
      | named energy => rfl
      | ownType => exact htype
    · exact absurd hgain (hnone _ c hc)

end Registry

/-! ## Texts -/

namespace Clause

variable {r : RuleName} {f : Found} {e : Effect} {spec : EnergySpec}

/-- Energy is produced by what four of the rules with a place for energy make. -/
theorem mem_energyRules_of_produces (h : r.build f = some e) (hspec : e.produces? = some spec) :
    r ∈ energyRules ∧ e.energy? = some spec.energy? := by
  have hkind := RuleName.kind_build h
  cases e with
  | coinFlipEnergy coins perHeads spec' target =>
    obtain rfl := Option.some.inj hspec
    refine ⟨?_, rfl⟩
    cases r <;> first | decide | cases hkind
  | energyAttach spec' n target =>
    obtain rfl := Option.some.inj hspec
    refine ⟨?_, rfl⟩
    cases r <;> first | decide | cases hkind
  | _ => cases hspec

end Clause

namespace Engine

open Clause

/-- How a gain in a resolution goes back to an effect and its clauses. -/
structure Gained (g : Engine) (turn : Word) (b : Board) (text : String)
    (out : Resolution × Board) (c : EnergyChange) (e : Effect) : Prop where
  /-- The resolution is a run of the effects that the plan keeps.  This is one of them; it was
  carried out, and it reported the gain. -/
  carriedOut : ∃ coins attack base o,
    g.run turn attack { b with coins } text base = out
      ∧ g.registry.CarriedOut { config := g.config, turn, attack } { b with coins }
          (Plan.ofText text).kept e o
      ∧ c ∈ o.energyChanges
  /-- It was made of an accepted match, -/
  read : ∃ r f, (f, e) ∈ Reading.accepted r (normalize text.toList)
  /-- and whatever accepted match it was made of names the type gained, or names none; then it is
  the type of the acting Pokémon. -/
  named : ∀ r f, (f, e) ∈ Reading.accepted r (normalize text.toList) → r ∈ energyRules
    ∧ (∀ t, f.get? .energy = some t → t ∈ c.energy.tokens)
    ∧ (f.get? .energy = none → r ≠ .energyAttachZone ∧ c.energy = b.attacker.energyType)

/-- What is kept of a text was read in it. -/
theorem mem_effects_of_mem_kept {text : String} {e : Effect} (h : e ∈ (Plan.ofText text).kept) :
    e ∈ (Reading.ofText text).effects := (Plan.mem_kept_iff.1 h).1

/-- What a match that is accepted says of the energy that its effect produces. -/
theorem named_of_accepted {r : RuleName} {n : List Char} {f : Found} {e : Effect}
    {spec : EnergySpec} (hacc : (f, e) ∈ Reading.accepted r n) (hspec : e.produces? = some spec) :
    r ∈ energyRules
      ∧ (∀ t, f.get? .energy = some t → ∃ energy, spec = .named energy ∧ t ∈ energy.tokens)
      ∧ (f.get? .energy = none → r ≠ .energyAttachZone ∧ spec = .ownType) := by
  obtain ⟨hfound, -, hbuild⟩ := Reading.mem_accepted_iff.1 hacc
  obtain ⟨hr, henergy⟩ := mem_energyRules_of_produces hbuild hspec
  have hmatch := energyMatch_of_mem_findAll hr hfound
  have hsame : ∀ {eff : Effect} {energy}, r.build f = some eff → eff.energy? = some energy →
      spec.energy? = energy := by
    intro eff energy heff hnamed
    obtain rfl := Option.some.inj (hbuild.symm.trans heff)
    exact Option.some.inj (henergy.symm.trans hnamed)
  refine ⟨hr, fun t ht => ?_, fun hnone => ?_⟩
  · -- with a token that denotes no type nothing would have been made
    by_cases hother : ∀ energy : Energy, t ∉ energy.tokens
    · rw [(hmatch.rejected t ht hother).1] at hbuild
      cases hbuild
    · obtain ⟨energy, htoken⟩ := not_forall_not.1 hother
      obtain ⟨eff, heff, hnamed⟩ := hmatch.typed t energy ht htoken
      refine ⟨energy, ?_, htoken⟩
      have henergy := hsame heff hnamed
      cases spec with
      | named e' => rw [Option.some.inj henergy]
      | ownType => cases henergy
  · obtain ⟨hne, eff, heff, hnamed⟩ := hmatch.untyped hnone
    refine ⟨hne, ?_⟩
    have henergy := hsame heff hnamed
    cases spec with
    | named e' => cases henergy
    | ownType => rfl

/-- **Every gain goes back to a clause.**  Whatever the engine, and however it came to carry out the
text. -/
theorem Resolves.gained {g : Engine} {turn : Word} {b : Board} {text : String}
    {out : Resolution × Board} (h : g.Resolves turn b text out) {c : EnergyChange}
    (hc : c ∈ out.1.energyChanges) (hgain : c.direction = .gain) :
    ∃ e, g.Gained turn b text out c e := by
  rcases h.cases with hstop | ⟨coins, attack, base, hrun⟩
  · -- an attack that is stopped moves no energy
    rw [hstop.energyChanges] at hc
    cases hc
  · have hchanges := hc
    rw [← hrun, run_eq] at hchanges
    dsimp only at hchanges
    rw [(dealDamage_fst _ _ _).2.1] at hchanges
    obtain ⟨e, o, hdone, hco⟩ := g.registry.exists_carriedOut _ hchanges
    obtain ⟨spec, hspec, henergy⟩ := hdone.exists_spec_of_gain hco hgain
    have hkept : e ∈ (Plan.ofText text).kept := by
      obtain ⟨before, after, hes, -⟩ := hdone
      rw [hes]
      exact List.mem_append_right before List.mem_cons_self
    refine ⟨e, ⟨coins, attack, base, o, hrun, hdone, hco⟩, ?_, fun r f hacc => ?_⟩
    · -- text that is kept unread produces nothing
      have heffects := mem_effects_of_mem_kept hkept
      have hne : normalize text.toList ≠ [] := by
        intro hblank
        rw [Reading.ofText, if_pos hblank] at heffects
        cases heffects
      rcases Reading.effects_cases hne with hunread | ⟨-, hread⟩
      · rw [hunread] at heffects
        obtain rfl := List.mem_singleton.1 heffects
        cases hspec
      · exact hread e heffects
    · obtain ⟨hr, htyped, huntyped⟩ := named_of_accepted hacc hspec
      refine ⟨hr, fun t ht => ?_, fun hnone => ?_⟩
      · obtain ⟨energy, rfl, htoken⟩ := htyped t ht
        rw [henergy]
        exact htoken
      · obtain ⟨hzone, rfl⟩ := huntyped hnone
        exact ⟨hzone, henergy⟩

end Engine

/-! ## From the clause to the resolution -/

open Clause in
/-- Energy is as it is named, wherever a text says so. -/
structure EnergyAsNamed : Prop where
  /-- A token denotes at most one of the eight types. -/
  denotes : ∀ t, isToken t = true → ∀ e : Energy,
    t ∈ e.tokens ↔ CostSymbol.ofToken? t = some (.typed e)
  /-- Those that denote none are "colorless" and letters in braces, "c" among them. -/
  others : ∀ t, isToken t = true → ((∀ e : Energy, t ∉ e.tokens)
    ↔ t = "colorless".toList ∨ ∃ c, t = ['\x7b', c, '\x7d'] ∧ c ∉ "grwlpfdm".toList)
  /-- A match names the type that its effect is about; without a type to name it makes none. -/
  clauses : ∀ (text : String), ∀ r ∈ energyRules,
    ∀ f ∈ findAll (RuleName.phrase r) (normalize text.toList),
      EnergyMatch r (normalize text.toList) f
  /-- A rule that is reported has a match with a type, or without a token. -/
  rules : ∀ (text : String), ∀ r ∈ (Reading.ofText text).rules, r ∈ energyRules →
    ∃ f ∈ findAll r.phrase (normalize text.toList), ∀ t, f.get? .energy = some t →
      ∃ e : Energy, t ∈ e.tokens
  /-- Gains are of the types named, or of the acting Pokémon's own. -/
  gains : ∀ (g : Engine) (turn : Word) (b : Board) (text : String) (out : Resolution × Board),
    g.Resolves turn b text out → ∀ c ∈ out.1.energyChanges, c.direction = .gain →
      ∃ e, g.Gained turn b text out c e

open Clause in
/-- A rule that is reported has an accepted match. -/
theorem Reading.exists_accepted_of_mem_rules {text : String} {r : RuleName}
    (h : r ∈ (ofText text).rules) : ∃ f e, (f, e) ∈ accepted r (normalize text.toList) := by
  by_cases hblank : normalize text.toList = []
  · rw [ofText, if_pos hblank] at h
    cases h
  · by_cases hnone : acceptedMatches (normalize text.toList) = []
    · rw [ofText_of_not_accepted hblank hnone] at h
      cases h
    · rw [ofText_of_accepted hblank hnone] at h
      exact mem_rules_iff.1 h

open Clause in
/-- **Energy is as it is named.**  A clause makes an effect about the type that it names, about no
type where it names none, and no effect where its token denotes none; and what is gained goes back
to a clause of the first two kinds. -/
theorem energyAsNamed : EnergyAsNamed where
  denotes t ht e := (ofToken?_eq_typed_iff ht e).symm
  others t ht := not_mem_tokens_iff ht
  clauses text r hr f hf := energyMatch_of_mem_findAll hr hf
  rules text r h hr := by
    obtain ⟨f, e, hacc⟩ := Reading.exists_accepted_of_mem_rules h
    obtain ⟨hfound, -, hbuild⟩ := Reading.mem_accepted_iff.1 hacc
    refine ⟨f, hfound, fun t ht => not_forall_not.1 fun hother => ?_⟩
    -- a match that is turned down is not accepted
    rw [((energyMatch_of_mem_findAll hr hfound).rejected t ht hother).1] at hbuild
    cases hbuild
  gains g turn b text out h c hc hgain := h.gained hc hgain

/-! ### Colorless energy, and water -/

/-- Two clauses of one rule. -/
def rainText : String :=
  "Take a \x7bC\x7d Energy from your Energy Zone and attach it to this Pokémon. Take 2 \x7bW\x7d Energy from your Energy Zone and attach it to this Pokémon."

/-- A board with one Pokémon. -/
def rainBoard : Board where
  attacker := .new "Eevee" .fighting 60
  defender := none
  coins := .ofSeed 0

theorem kept_rainText : (Plan.ofText rainText).kept = [.energyAttach (.named .water) 2 .this] := by
  have heffects : (Reading.ofText rainText).effects = [.energyAttach (.named .water) 2 .this] := by
    refine Clause.effects_ofText (by decide) ?_
    rw [rainText, String.toList_ofList]
    decide +kernel
  rw [Plan.ofText, heffects, Plan.ofEffects, Plan.inOrder_eq_ranked]
  decide

theorem energyChanges_rainText :
    (Engine.standard.resolveText 1 rainBoard rainText 0).1.energyChanges
      = [⟨.gain, .water, 2, .attacker, true⟩] := by
  obtain ⟨-, hchanges, -⟩ := Engine.run_fst .standard 1 none rainBoard rainText 0
  refine hchanges.trans ?_
  rw [Engine.effectsOf, kept_rainText]
  decide

open Clause in
/-- The first clause makes no effect, and what is gained is that of the second. -/
theorem gained_rainText :
    (∃ f ∈ findAll RuleName.energyAttachZone.phrase (normalize rainText.toList),
        f.get? .energy = some ['\x7b', 'c', '\x7d'] ∧ RuleName.energyAttachZone.build f = none)
      ∧ ∃ e, Engine.standard.Gained 1 rainBoard rainText
          (Engine.standard.resolveText 1 rainBoard rainText 0)
          ⟨.gain, .water, 2, .attacker, true⟩ e := by
  constructor
  · have hfound : (findAll RuleName.energyAttachZone.spelled.val (normalize rainText.toList)).any
        (fun f => f.get? .energy == some ['\x7b', 'c', '\x7d']) = true := by
      rw [rainText, String.toList_ofList]
      decide +kernel
    obtain ⟨f, hf, htoken⟩ := List.any_eq_true.1 hfound
    rw [← RuleName.energyAttachZone.spelled.property] at hf
    have ht := eq_of_beq htoken
    have hmatch := energyAsNamed.clauses rainText .energyAttachZone (by decide) f hf
    exact ⟨f, hf, ht, (hmatch.rejected _ ht
      ((energyAsNamed.others _ (by decide)).2 (.inr ⟨'c', rfl, by decide⟩))).1⟩
  · refine energyAsNamed.gains _ _ _ _ _ (.text 0 rfl) _ ?_ rfl
    rw [energyChanges_rainText]
    exact List.mem_singleton_self _

end CardEffects
