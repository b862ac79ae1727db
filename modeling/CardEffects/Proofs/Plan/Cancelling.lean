/-
  CardEffects.Proofs.Plan.Cancelling

  What a plan carries out before an effect that cancels the attack.

    * `Effect.Sparing` — the effects that can stand there: energy for heads, and flips for a
      bonus or for cancelling the attack.  None touches a Pokémon but by attaching energy.
    * `Reading.pairwise_effects` — in a reading, conditional flips before a cancelling one are
      sparing, by the order of the rules.
    * `Plan.pairwise_kept` — in a plan, all effects before a cancelling one are sparing.
-/
import CardEffects.Proofs.Plan.Settlement
import CardEffects.Reading

namespace CardEffects

open Clause

/-! ## Cancelling and sparing effects -/

namespace Effect

/-- The effects that may cancel the attack. -/
def Cancels (e : Effect) : Prop := e.mechanism = .attackNegation

/-- The effects that at most attach energy, add damage or cancel the attack. -/
inductive Sparing : Effect → Prop
  | energy (coins : CoinCount) (perHeads : Word) (energy : EnergySpec) (target : EnergyTarget) :
      Sparing (coinFlipEnergy coins perHeads energy target)
  | bonus (coins : Word) (wanted : CoinFace) (amount : Word) :
      Sparing (coinFlipConditional coins wanted (.bonusDamage amount))
  | cancel (coins : Word) (wanted : CoinFace) :
      Sparing (coinFlipConditional coins wanted .attackFails)

theorem Cancels.sparing {e : Effect} (h : e.Cancels) : e.Sparing := by
  unfold Cancels at h
  cases e with
  | coinFlipConditional coins wanted c => cases c with
    | attackFails => exact .cancel coins wanted
    | _ => cases h
  | _ => cases h

theorem Cancels.kind {e : Effect} (h : e.Cancels) : e.kind = .coinFlipConditional := by
  cases h.sparing with
  | energy => cases h
  | bonus => rfl
  | cancel => rfl

theorem sparing_of_kind {e : Effect} (h : e.kind = .coinFlipEnergy) : e.Sparing := by
  cases e with
  | coinFlipEnergy coins perHeads energy target => exact .energy coins perHeads energy target
  | _ => cases h

/-- How one effect stands before another: if the other may cancel the attack and both are
flips with a consequence, this one is sparing. -/
def SparesBefore (a b : Effect) : Prop :=
  b.Cancels → a.kind = .coinFlipConditional → a.Sparing

end Effect

/-! ## The order of a reading -/

namespace Clause.RuleName

theorem cancels_build {r : RuleName} {f : Found} {e : Effect} (h : r.build f = some e)
    (hc : e.Cancels) : r = coinFail := by
  have hkind : r.kind = .coinFlipConditional := (kind_build h).symm.trans hc.kind
  unfold Effect.Cancels at hc
  -- of the rules for flips with a consequence only one makes a flip that cancels
  cases r <;> try cases hkind
  case coinFail => rfl
  all_goals
    simp only [build, Option.bind_eq_bind, Option.bind_eq_some_iff, Option.some.injEq] at h
  case coinBonus => subst h; cases hc
  case coinHeal => subst h; cases hc
  all_goals
    obtain ⟨_, _, rfl⟩ := h
    cases hc

/-- The bonus and the cancelling flip are sparing. -/
theorem sparing_build {r : RuleName} {f : Found} {e : Effect} (h : r.build f = some e)
    (hr : r = coinBonus ∨ r = coinFail) : e.Sparing := by
  rcases hr with rfl | rfl
  · obtain rfl := Option.some.inj h
    exact .bonus _ _ _
  · obtain rfl := Option.some.inj h
    exact .cancel _ _

/-- Of the rules for flips with a consequence, only the bonus comes before the cancelling one. -/
theorem pairwise_all : (Enumeration.all : List RuleName).Pairwise fun r r' =>
    r' = coinFail → r.kind = .coinFlipConditional → r = coinBonus := by
  decide

end Clause.RuleName

namespace Reading

theorem build_of_mem_accepted {r : RuleName} {normal : List Char} {p : Found × Effect}
    (h : p ∈ accepted r normal) : r.build p.1 = some p.2 := by
  obtain ⟨f, _, hf⟩ := List.mem_filterMap.1 h
  obtain ⟨e, he, rfl⟩ := Option.map_eq_some_iff.1 hf
  exact he

/-- In a reading, flips with a consequence that stand before a cancelling one are sparing. -/
theorem pairwise_effects (text : String) :
    (ofText text).effects.Pairwise Effect.SparesBefore := by
  unfold ofText
  dsimp only
  split
  · exact .nil
  · split
    · exact List.pairwise_singleton _ _
    · rw [List.pairwise_map, List.pairwise_flatMap, allAccepted]
      simp only [List.mem_map, List.pairwise_map]
      refine ⟨?_, RuleName.pairwise_all.imp ?_⟩
      · -- two effects of one rule: when one cancels, the rule is the one for cancelling
        rintro _ ⟨r, -, rfl⟩
        refine List.pairwise_of_forall_mem_list fun p hp q hq hcancels _ => ?_
        have hr := RuleName.cancels_build (build_of_mem_accepted hq) hcancels
        exact RuleName.sparing_build (build_of_mem_accepted hp) (.inr hr)
      · -- effects of two rules: only the rule for the bonus can be the first
        intro r r' hrr p hp q hq hcancels hkind
        have hr' := RuleName.cancels_build (build_of_mem_accepted hq) hcancels
        have hp := build_of_mem_accepted hp
        exact RuleName.sparing_build hp (.inl (hrr hr' ((RuleName.kind_build hp).symm.trans hkind)))

end Reading

/-! ## The order of a plan -/

namespace Plan

/-- Of the kinds in order of priority, only energy for heads comes before flips with a
consequence. -/
theorem pairwise_before_conditional :
    Priority.rankedKinds.Pairwise fun k l => l = .coinFlipConditional → k = .coinFlipEnergy := by
  decide

theorem pairwise_ranked {es : List Effect} (h : es.Pairwise Effect.SparesBefore) :
    (ranked es).Pairwise fun a b => b.Cancels → a.Sparing := by
  unfold ranked
  rw [List.pairwise_flatMap]
  refine ⟨fun k _ => ?_, pairwise_before_conditional.imp ?_⟩
  · -- within one kind the order is that of the reading
    refine (h.filter _).imp_of_mem fun {a b} ha hb hab hcancels => hab hcancels ?_
    have hak : a.kind = k := eq_of_beq (List.mem_filter.1 ha).2
    have hbk : b.kind = k := eq_of_beq (List.mem_filter.1 hb).2
    rw [hak, ← hbk]
    exact hcancels.kind
  · -- a kind ranked before that of a cancelling flip is energy for heads
    intro k l hkl a ha b hb hcancels
    have hak : a.kind = k := eq_of_beq (List.mem_filter.1 ha).2
    have hbl : b.kind = l := eq_of_beq (List.mem_filter.1 hb).2
    exact Effect.sparing_of_kind (hak.trans (hkl (hbl.symm.trans hcancels.kind)))

theorem kept_sublist (kept rest : List Effect) : (settle kept rest).kept.Sublist rest := by
  induction rest generalizing kept with
  | nil => exact .slnil
  | cons e rest ih =>
    unfold settle
    split
    · exact (ih kept).cons e
    · split
      · exact (ih kept).cons e
      · exact (ih (kept ++ [e])).cons_cons e

/-- In the plan of a text, whatever stands before an effect that may cancel the attack is
sparing. -/
theorem pairwise_kept (text : String) :
    (ofText text).kept.Pairwise fun a b => b.Cancels → a.Sparing := by
  have hsub : (ofText text).kept.Sublist (ranked (Reading.ofText text).effects) := by
    rw [← inOrder_eq_ranked]
    exact kept_sublist [] _
  exact (pairwise_ranked (Reading.pairwise_effects text)).sublist hsub

end Plan

end CardEffects
