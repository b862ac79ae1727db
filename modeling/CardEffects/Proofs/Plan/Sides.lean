/-
  CardEffects.Proofs.Plan.Sides

  Which side loses a clause when a plan merges two.  A condition and a loss of energy land on one
  side of the board, but the mechanism does not say on which; so a flip for one side takes the
  place of a plain effect for the other.

    * `Effect.landsOn?` — the side on which an effect lands.
    * `Plan.KeepsSides` — a plan that does not lose a side.
    * `Plan.mem_dropped_mechanism` — what is dropped for its mechanism is beaten.
    * `Plan.sideKept_iff` — an effect dropped for its mechanism gave way to a flip with a
      consequence, and its side keeps that mechanism just when such a flip lands on it.
-/
import CardEffects.Board
import CardEffects.Proofs.Plan.Settlement
import CardEffects.Proofs.Reading.Search

namespace CardEffects

/-! ## Sides -/

namespace Effect

/-- The side on which an effect lands: whose Pokémon gets the condition, or loses the energy. -/
def landsOn? : Effect → Option Side
  | conditionApply _ target => some target.side
  | conditionApplyRandom target => some target.side
  | energyDiscard d => some d.source
  | coinFlipConditional _ _ (.condition _ target) => some target.side
  | coinFlipConditional _ _ (.discard d) => some d.source
  | _ => none

/-- The mechanism tells whether an effect lands on a side, though not on which. -/
theorem isSome_landsOn? (e : Effect) :
    e.landsOn?.isSome
      = match e.mechanism with
        | .condition _ | .randomCondition | .energyLoss => true
        | _ => false := by
  cases e with
  | coinFlipConditional coins wanted c => cases c <;> rfl
  | _ => rfl

/-- With one mechanism both land on a side, or none of them. -/
theorem isSome_landsOn?_congr {e d : Effect} (hm : e.mechanism = d.mechanism) :
    e.landsOn?.isSome = d.landsOn?.isSome := by
  rw [isSome_landsOn?, isSome_landsOn?, hm]

/-- Where effects that land on a side share a mechanism, only flips with a consequence come
before the others. -/
theorem kind_of_beats {e d : Effect} (hm : e.mechanism = d.mechanism)
    (hp : e.priority.before d.priority = true) (hd : d.landsOn?.isSome = true) :
    e.kind = .coinFlipConditional := by
  have he : e.landsOn?.isSome = true := by
    rw [isSome_landsOn?_congr hm, hd]
  cases e with
  | coinFlipConditional => rfl
  | conditionApply c target =>
    cases d with
    | coinFlipConditional => exact absurd (show false = true from hp) Bool.false_ne_true
    | conditionApply => exact absurd (show false = true from hp) Bool.false_ne_true
    | _ => cases hm
  | conditionApplyRandom target =>
    cases d with
    | coinFlipConditional => exact absurd (show false = true from hp) Bool.false_ne_true
    | conditionApplyRandom => exact absurd (show false = true from hp) Bool.false_ne_true
    | _ => cases hm
  | energyDiscard discard =>
    cases d with
    | coinFlipConditional => exact absurd (show false = true from hp) Bool.false_ne_true
    | energyDiscard => exact absurd (show false = true from hp) Bool.false_ne_true
    | _ => cases hm
  | _ => cases he

end Effect

namespace Plan

/-- Whatever lands on a side and is dropped for its mechanism, something with the mechanism that
lands on the same side is kept. -/
def KeepsSides (p : Plan) : Prop :=
  ∀ d k m side, ⟨d, .mechanism k m⟩ ∈ p.dropped → d.landsOn? = some side →
    ∃ w ∈ p.kept, w.mechanism = m ∧ w.landsOn? = some side

/-! ## What is dropped -/

variable {es : List Effect} {d e : Effect} {k : EffectKind} {m : Mechanism}

/-- The plan of any effects keeps those that are not beaten. -/
theorem mem_kept_iff : e ∈ (ofEffects es).kept ↔ e ∈ es ∧ ¬ Beaten es e := by
  rw [kept_ofEffects, mem_survivors, mem_ranked]

/-- What is dropped for its mechanism is beaten, and gives way to the winner. -/
theorem mem_dropped_mechanism (h : ⟨d, .mechanism k m⟩ ∈ (ofEffects es).dropped) :
    d ∈ es ∧ Beaten es d ∧ k = winner es d.mechanism ∧ m = d.mechanism := by
  rw [dropped_ofEffects] at h
  obtain ⟨o, ho, hdropped⟩ := List.mem_filterMap.1 h
  obtain ⟨reason, hreason, heq⟩ := Option.map_eq_some_iff.1 hdropped
  obtain ⟨rfl, rfl⟩ := Dropped.mk.inj heq
  have hmem := mem_ranked.1 (List.fst_mem_of_mem_zipIdx ho)
  unfold dropReason? at hreason
  split at hreason
  next hbeaten =>
    obtain ⟨rfl, rfl⟩ := DropReason.mechanism.inj (Option.some.inj hreason)
    exact ⟨hmem, hbeaten, rfl, rfl⟩
  next =>
    split at hreason
    · cases hreason
    · cases hreason

/-- Flips that land on a side are never beaten. -/
theorem not_beaten_of_flip (hkind : e.kind = .coinFlipConditional)
    (hside : e.landsOn?.isSome = true) : ¬ Beaten es e := by
  rintro ⟨e', -, hm, hp⟩
  have hkind' := Effect.kind_of_beats hm hp hside
  rw [Effect.priority, Effect.priority, hkind, hkind', Priority.before_irrefl] at hp
  cases hp

/-- A beaten effect that lands on a side is won by flips with a consequence. -/
theorem winner_of_beaten (hd : d ∈ es) (hbeaten : Beaten es d)
    (hside : d.landsOn?.isSome = true) : winner es d.mechanism = .coinFlipConditional := by
  obtain ⟨e, he, hem, hp⟩ := hbeaten
  have hkind := Effect.kind_of_beats hem hp hside
  obtain ⟨w, -, hwk, hwm, hfirst⟩ := exists_winner hd
  rw [← hwk, ← hkind]
  have hew := hfirst e he hem
  cases hwe : w.priority.before e.priority with
  | true =>
    -- not even the flip has a higher priority than another
    have heside : e.landsOn?.isSome = true := by
      rw [Effect.isSome_landsOn?_congr hem, hside]
    rw [hkind]
    exact Effect.kind_of_beats (hwm.trans hem.symm) hwe heside
  | false => exact Effect.kind_eq_of_not_before hwe hew

/-- **Merging across sides.**  When the plan of any effects drops one that lands on a side, for
its mechanism, it keeps a flip with a consequence that has the mechanism.  That flip may land on
the other side: what the plan keeps lands on the side of the dropped effect, with its mechanism,
just when one of the effects is a flip for that side. -/
theorem sideKept_iff {side : Side} (h : ⟨d, .mechanism k m⟩ ∈ (ofEffects es).dropped)
    (hside : d.landsOn? = some side) :
    k = .coinFlipConditional ∧ m = d.mechanism
      ∧ (∃ w ∈ (ofEffects es).kept, w.kind = .coinFlipConditional ∧ w.mechanism = m)
      ∧ ((∃ w ∈ (ofEffects es).kept, w.mechanism = m ∧ w.landsOn? = some side)
          ↔ ∃ e ∈ es, e.kind = .coinFlipConditional ∧ e.mechanism = m
              ∧ e.landsOn? = some side) := by
  obtain ⟨hd, hbeaten, rfl, rfl⟩ := mem_dropped_mechanism h
  have hsome : d.landsOn?.isSome = true := by
    rw [hside]
    rfl
  have hwinner := winner_of_beaten hd hbeaten hsome
  obtain ⟨f, hf, hfm, hp⟩ := hbeaten
  have hfkind := Effect.kind_of_beats hfm hp hsome
  have hfside : f.landsOn?.isSome = true := by
    rw [Effect.isSome_landsOn?_congr hfm, hsome]
  refine ⟨hwinner, rfl, ⟨f, ?_, hfkind, hfm⟩, ?_, ?_⟩
  · exact mem_kept_iff.2 ⟨hf, not_beaten_of_flip hfkind hfside⟩
  · rintro ⟨w, hw, hwm, hwside⟩
    obtain ⟨hwes, hwfree⟩ := mem_kept_iff.1 hw
    refine ⟨w, hwes, ?_, hwm, hwside⟩
    -- what is kept beside the flip is not beaten by it, nor does it beat the flip
    have hfw : f.priority.before w.priority = false := by
      rw [← Bool.not_eq_true]
      exact fun hbefore => hwfree ⟨f, hf, hfm.trans hwm.symm, hbefore⟩
    cases hwf : w.priority.before f.priority with
    | true => exact Effect.kind_of_beats (hwm.trans hfm.symm) hwf hfside
    | false => exact (Effect.kind_eq_of_not_before hwf hfw).trans hfkind
  · rintro ⟨e, he, hkind, hem, heside⟩
    refine ⟨e, mem_kept_iff.2 ⟨he, not_beaten_of_flip hkind ?_⟩, hem, heside⟩
    rw [heside]
    rfl

/-! ### Confusion for both sides -/

/-- The opponent may be confused, and this Pokémon is. -/
def confusionText : String :=
  "Flip a coin. If heads, your opponent's Active Pokémon is now Confused. This Pokémon is now Confused."

/-- Both sides may lose energy. -/
def discardText : String :=
  "Flip a coin. If heads, discard an Energy from your opponent's Active Pokémon. Discard a \x7bR\x7d Energy from this Pokémon."

theorem effects_confusionText : (Reading.ofText confusionText).effects
    = [.coinFlipConditional 1 .heads (.condition .confused .opponent),
      .conditionApply .confused .this] := by
  refine Clause.effects_ofText (by decide) ?_
  rw [confusionText, String.toList_ofList]
  decide +kernel

theorem effects_discardText : (Reading.ofText discardText).effects
    = [.coinFlipConditional 1 .heads (.discard ⟨none, .count 1, .opponent⟩),
      .energyDiscard ⟨some .fire, .count 1, .own⟩] := by
  refine Clause.effects_ofText (by decide) ?_
  rw [discardText, String.toList_ofList]
  decide +kernel

theorem plan_confusionText : Plan.ofText confusionText
    = ⟨[.coinFlipConditional 1 .heads (.condition .confused .opponent)],
      [⟨.conditionApply .confused .this,
        .mechanism .coinFlipConditional (.condition .confused)⟩]⟩ := by
  rw [Plan.ofText, effects_confusionText, Plan.ofEffects, Plan.inOrder_eq_ranked]
  decide

theorem plan_discardText : Plan.ofText discardText
    = ⟨[.coinFlipConditional 1 .heads (.discard ⟨none, .count 1, .opponent⟩)],
      [⟨.energyDiscard ⟨some .fire, .count 1, .own⟩,
        .mechanism .coinFlipConditional .energyLoss⟩]⟩ := by
  rw [Plan.ofText, effects_discardText, Plan.ofEffects, Plan.inOrder_eq_ranked]
  decide

/-- The second text has no flip for this Pokémon, so it keeps its energy whatever the coin. -/
theorem sideKept_discardText :
    ¬ ∃ w ∈ (Plan.ofText discardText).kept,
      w.mechanism = .energyLoss ∧ w.landsOn? = some .own := by
  have hdropped : ⟨.energyDiscard ⟨some .fire, .count 1, .own⟩,
      .mechanism .coinFlipConditional .energyLoss⟩ ∈ (Plan.ofText discardText).dropped := by
    rw [plan_discardText]
    exact List.mem_cons_self
  intro hkept
  obtain ⟨e, he, hflip⟩ := (sideKept_iff hdropped rfl).2.2.2.1 hkept
  -- the only flip of the text is for the other side
  rw [effects_discardText] at he
  revert e
  decide

/-- Both texts lose what they say of this Pokémon. -/
theorem merging_loses_sides : ¬ (Plan.ofText confusionText).KeepsSides
    ∧ ¬ (Plan.ofText discardText).KeepsSides := by
  rw [plan_confusionText, plan_discardText]
  constructor
  · intro hkeeps
    have hkept := hkeeps (.conditionApply .confused .this) _ _ .own List.mem_cons_self rfl
    exact absurd hkept (by decide)
  · intro hkeeps
    have hkept := hkeeps (.energyDiscard ⟨some .fire, .count 1, .own⟩) _ _ .own
      List.mem_cons_self rfl
    exact absurd hkept (by decide)

end Plan

end CardEffects
