/-
  CardEffects.Proofs.Cancellation

  What a cancelled attack leaves behind.  Effects behind the cancelling one are skipped, and
  those before it are sparing, so all that is left of them is energy for heads attached to the
  acting Pokémon; and a cancelled attack deals no damage.

    * `Spared` — the boards before and after differ by the gains reported, and in coins.
    * `Registry.spared_runFrom` — a run that ends cancelled spares the board.
    * `Engine.Resolves.spared_of_negated` — so does every text and every attack that ends cancelled.
-/
import CardEffects.Proofs.Plan.Cancelling
import CardEffects.Proofs.Reading.Search
import CardEffects.Proofs.Run

namespace CardEffects

/-! ## Spared boards -/

/-- The pool with the gains applied among some changes, in order. -/
def EnergyPool.withGains (p : EnergyPool) (cs : List EnergyChange) : EnergyPool :=
  (cs.filter EnergyChange.applied).foldl (fun p c => p.attach c.energy c.amount) p

theorem EnergyPool.withGains_append (p : EnergyPool) (cs ds : List EnergyChange) :
    p.withGains (cs ++ ds) = (p.withGains cs).withGains ds := by
  rw [withGains, List.filter_append, List.foldl_append]
  rfl

theorem EnergyPool.withGains_of_not_applied {p : EnergyPool} {cs : List EnergyChange}
    (h : ∀ c ∈ cs, c.applied = false) : p.withGains cs = p := by
  have hnone : cs.filter EnergyChange.applied = [] := by
    rw [List.filter_eq_nil_iff]
    intro c hc
    rw [h c hc]
    decide
  rw [withGains, hnone]
  rfl

/-- Between two boards the given effects did no more than attach energy for heads to the acting
Pokémon, and the changes say which.  Only coins may differ beside that. -/
structure Spared (effects : List Effect) (b : Board) (cs : List EnergyChange) (b' : Board) :
    Prop where
  defender : b'.defender = b.defender
  attacker : b'.attacker = { b.attacker with energy := b.attacker.energy.withGains cs }
  gain : ∀ c ∈ cs, c.direction = .gain
  source : ∀ c ∈ cs, c.applied = true → ∃ coins perHeads energy,
    .coinFlipEnergy coins perHeads energy .this ∈ effects
      ∧ c.energy = Application.energyOf b energy

namespace Spared

variable {effects : List Effect} {b b' b'' : Board} {cs ds : List EnergyChange}

theorem of_coins {coins : Coins} (h : b' = { b with coins }) : Spared effects b [] b' := by
  subst h
  exact ⟨rfl, rfl, by simp, by simp⟩

theorem trans (h : Spared effects b cs b') (h' : Spared effects b' ds b'') :
    Spared effects b (cs ++ ds) b'' where
  defender := h'.defender.trans h.defender
  attacker := by
    rw [h'.attacker, h.attacker, EnergyPool.withGains_append]
  gain := by
    intro c hc
    rcases List.mem_append.1 hc with hc | hc
    · exact h.gain c hc
    · exact h'.gain c hc
  source := by
    intro c hc happlied
    rcases List.mem_append.1 hc with hc | hc
    · exact h.source c hc happlied
    · obtain ⟨coins, perHeads, energy, hmem, henergy⟩ := h'.source c hc happlied
      refine ⟨coins, perHeads, energy, hmem, henergy.trans ?_⟩
      -- the type of the acting Pokémon is the same on both boards
      cases energy with
      | named e => rfl
      | ownType =>
        show b'.attacker.energyType = b.attacker.energyType
        rw [h.attacker]

theorem mono {effects' : List Effect} (h : Spared effects b cs b')
    (hsub : ∀ e ∈ effects, e ∈ effects') : Spared effects' b cs b' where
  defender := h.defender
  attacker := h.attacker
  gain := h.gain
  source := by
    intro c hc happlied
    obtain ⟨coins, perHeads, energy, hmem, henergy⟩ := h.source c hc happlied
    exact ⟨coins, perHeads, energy, hsub _ hmem, henergy⟩

end Spared

/-! ## One effect -/

namespace Application

theorem spared_attach (b : Board) (coins : CoinCount) (perHeads units : Word)
    (energy : EnergySpec) (target : EnergyTarget) :
    Spared [.coinFlipEnergy coins perHeads energy target] b
      (attach b .coinFlipEnergy (energyOf b energy) units target).1.energyChanges
      (attach b .coinFlipEnergy (energyOf b energy) units target).2 := by
  unfold attach
  split
  · exact .of_coins rfl
  · split
    next htarget =>
      -- attached to the acting Pokémon itself: the one change reported is that gain
      subst htarget
      refine ⟨rfl, rfl, by simp, ?_⟩
      intro c hc _
      rw [List.mem_singleton] at hc
      exact ⟨coins, perHeads, energy, List.mem_singleton_self _, by rw [hc]⟩
    next =>
      -- left to be distributed: the gain is not applied, and no Pokémon is touched
      exact ⟨rfl, rfl, by simp, by simp⟩

end Application

namespace Effect

/-- A sparing effect spares the board. -/
theorem Sparing.spared {e : Effect} (he : e.Sparing) (s : Setting) (b : Board) :
    Spared [e] b (e.apply s b).1.energyChanges (e.apply s b).2 := by
  cases he with
  | energy coins perHeads energy target =>
    have hflip : Spared [.coinFlipEnergy coins perHeads energy target] b []
        (b.flip s coins).2 := .of_coins rfl
    exact hflip.trans (Application.spared_attach _ coins perHeads _ energy target)
  | bonus coins wanted amount =>
    simp only [apply, Application.coinFlipConditional]
    split <;> exact .of_coins rfl
  | cancel coins wanted =>
    simp only [apply, Application.coinFlipConditional]
    split <;> exact .of_coins rfl

end Effect

namespace Application

variable (s : Setting) (b : Board) (kind : EffectKind)

theorem negates_inflict (c : Condition) (target : ConditionTarget) :
    (inflict s b kind c target).1.negates = false := by
  unfold inflict
  split
  · rfl
  · dsimp only
    split <;> rfl

theorem negates_inflictRandom (target : ConditionTarget) :
    (inflictRandom s b target).1.negates = false := by
  unfold inflictRandom
  split
  · rfl
  · split <;> rfl

theorem negates_heal (target : HealTarget) (amount : Option Word) :
    (heal b kind target amount).1.negates = false := by
  unfold heal
  dsimp only
  split <;> rfl

theorem negates_attach (energy : Energy) (units : Word) (target : EnergyTarget) :
    (attach b kind energy units target).1.negates = false := by
  unfold attach
  split
  · rfl
  · split <;> rfl

theorem negates_discard (d : EnergyDiscard) : (discard b kind d).1.negates = false := by
  unfold discard
  split
  · rfl
  · dsimp only
    split <;> rfl

theorem negates_conditionalDamage (bonus : Word) (c : DamageCondition) :
    (conditionalDamage s b bonus c).negates = false := by
  unfold conditionalDamage
  split <;> rfl

theorem eq_attackFails_of_negates {s : Setting} {b : Board} {note : String} {c : FlipConsequence}
    (h : (consequence s b note c).1.negates = true) : c = .attackFails := by
  cases c with
  | attackFails => rfl
  | bonusDamage amount => cases h
  | condition c target =>
    have hfalse := negates_inflict s b .coinFlipConditional c target
    exact absurd (hfalse.symm.trans h) (by decide)
  | heal amount =>
    have hfalse := negates_heal b .coinFlipConditional .this (some amount)
    exact absurd (hfalse.symm.trans h) (by decide)
  | discard d =>
    have hfalse := negates_discard b .coinFlipConditional d
    exact absurd (hfalse.symm.trans h) (by decide)

end Application

open Application in
/-- Only an effect that may cancel the attack does. -/
theorem Effect.cancels_of_negates {e : Effect} {s : Setting} {b : Board}
    (h : (e.apply s b).1.negates = true) : e.Cancels := by
  have hnot : (e.apply s b).1.negates ≠ false := by
    rw [h]
    decide
  cases e with
  | coinFlipConditional coins wanted c =>
    -- the only effect whose outcome may negate, and only through its consequence
    simp only [apply, Application.coinFlipConditional] at h
    split at h
    · rw [eq_attackFails_of_negates h]
      rfl
    · cases h
  | coinFlipEnergy coins perHeads energy target =>
    exact absurd (negates_attach _ _ _ _ _) hnot
  | conditionApply c target => exact absurd (negates_inflict s b _ c target) hnot
  | conditionApplyRandom target => exact absurd (negates_inflictRandom s b target) hnot
  | conditionalDamage bonus c => exact absurd (negates_conditionalDamage s b bonus c) hnot
  | heal amount target => exact absurd (negates_heal b _ target _) hnot
  | healFull target => exact absurd (negates_heal b _ target _) hnot
  | energyAttach energy n target => exact absurd (negates_attach b _ _ n target) hnot
  | energyDiscard d => exact absurd (negates_discard b _ d) hnot
  | coinFlipDamage coins perHeads => cases h
  | damageBonus amount => cases h
  | energyScalingDamage each energy source => cases h
  | benchScalingDamage each side filter => cases h
  | searchOrDraw flow => cases h
  | unparsed text => cases h

/-! ## Runs that end cancelled -/

namespace Registry

/-- Effects that cannot cancel the attack do not. -/
theorem negated_runFrom {s : Setting} {r : Resolution} {b : Board} {es : List Effect}
    (hr : r.negated = false) (hes : ∀ e ∈ es, ¬ e.Cancels) :
    (standard.runFrom s r b es).1.negated = false := by
  refine runFrom_induction (P := fun r _ => r.negated = false) hr ?_
  intro e he r b hr
  rw [step_of_not_negated s b e hr]
  show (r.negated || (e.apply s b).1.negates) = false
  rw [hr, Bool.false_or, ← Bool.not_eq_true]
  exact fun h => hes e he (Effect.cancels_of_negates h)

/-- A run of effects, sparing ones before each that may cancel the attack, spares the board when
it ends cancelled. -/
theorem spared_runFrom {s : Setting} {r : Resolution} {b : Board} {es : List Effect}
    (hes : es.Pairwise fun a b => b.Cancels → a.Sparing) (hr : r.negated = false)
    (hend : (standard.runFrom s r b es).1.negated = true) :
    ∃ cs, (standard.runFrom s r b es).1.energyChanges = r.energyChanges ++ cs
      ∧ Spared es b cs (standard.runFrom s r b es).2 := by
  -- along the effects, as long as the attack is not cancelled
  induction es generalizing r b with
  | nil => exact absurd (hr.symm.trans hend) (by decide)
  | cons e es ih =>
    obtain ⟨he, hes⟩ := List.pairwise_cons.1 hes
    rw [runFrom_cons, step_of_not_negated s b e hr] at hend ⊢
    -- an effect that is not sparing neither cancels the attack nor stands before one that does
    have hsparing : e.Sparing := by
      by_contra hnot
      have hnext : (r.absorb (e.apply s b).1 e.describe).negated = false := by
        show (r.negated || (e.apply s b).1.negates) = false
        rw [hr, Bool.false_or, ← Bool.not_eq_true]
        exact fun h => hnot (Effect.cancels_of_negates h).sparing
      have hfalse := negated_runFrom (s := s) (b := (e.apply s b).2) hnext
        fun e' he' hc => hnot (he e' he' hc)
      exact absurd (hfalse.symm.trans hend) (by decide)
    have hfirst := hsparing.spared s b
    cases hnext : (r.absorb (e.apply s b).1 e.describe).negated with
    | true =>
      -- cancelled here: the rest is skipped
      rw [runFrom_of_negated standard s _ es hnext]
      exact ⟨(e.apply s b).1.energyChanges, rfl, hfirst.mono (by simp)⟩
    | false =>
      obtain ⟨cs, hcs, hspared⟩ := ih hes hnext hend
      refine ⟨(e.apply s b).1.energyChanges ++ cs, ?_,
        (hfirst.mono (by simp)).trans (hspared.mono fun e' he' => List.mem_cons_of_mem e he')⟩
      rw [hcs, ← List.append_assoc]
      rfl

end Registry

/-! ## Texts and attacks that end cancelled -/

namespace Engine

theorem spared_run (c : Config) (turn : Word) (attack : Option Attack) (b : Board)
    (text : String) (base : Word)
    (h : ((ofConfig c).run turn attack b text base).1.negated = true) :
    Spared (Plan.ofText text).kept b
      ((ofConfig c).run turn attack b text base).1.energyChanges
      ((ofConfig c).run turn attack b text base).2 := by
  obtain ⟨hneg, hchanges, -⟩ := run_fst c turn attack b text base
  rw [hneg] at h
  have hspared : ∃ cs, (effectsOf c turn attack b text base).1.energyChanges = [] ++ cs
      ∧ Spared (Plan.ofText text).kept b cs (effectsOf c turn attack b text base).2 :=
    Registry.spared_runFrom (Plan.pairwise_kept text) rfl h
  obtain ⟨cs, hcs, hspared⟩ := hspared
  rw [hchanges, hcs, List.nil_append]
  rcases run_snd c turn attack b text base with hsame | ⟨d, hp, -, hpos, -⟩
  · rw [hsame]
    exact hspared
  · -- no damage is dealt, for there is none
    rw [total_effectsOf c turn attack b text base h] at hpos
    exact absurd hpos (by decide)

/-- **A cancelled attack spares the board.**  When a text, an attack or an ability ends
cancelled, the defender is exactly as before, and so is the acting Pokémon but for the energy
that flips for energy in the same text attached to it first; where the plan of the text keeps no
such flip aimed at it, nothing of it has changed. -/
theorem Resolves.spared_of_negated {c : Config} {turn : Word} {b : Board} {text : String}
    {r : Resolution} {b' : Board} (h : (ofConfig c).Resolves turn b text (r, b'))
    (hneg : r.negated = true) :
    Spared (Plan.ofText text).kept b r.energyChanges b'
      ∧ ((∀ coins perHeads energy,
            .coinFlipEnergy coins perHeads energy .this ∉ (Plan.ofText text).kept) →
          b'.attacker = b.attacker) := by
  have hspared : Spared (Plan.ofText text).kept b r.energyChanges b' := by
    rcases h.cases with hstop | ⟨coins, attack, base, hrun⟩
    · -- an attack that is stopped flips a coin at most
      obtain ⟨coins, hboard⟩ := hstop.board
      rw [show r.energyChanges = [] from hstop.energyChanges]
      exact .of_coins hboard
    · have hcoins : Spared (Plan.ofText text).kept b [] { b with coins } := .of_coins rfl
      have hrun' := spared_run c turn attack { b with coins } text base
        (by rw [hrun]; exact hneg)
      rw [hrun] at hrun'
      exact hcoins.trans hrun'
  refine ⟨hspared, fun hnone => ?_⟩
  -- an applied gain would be that of a flip the plan keeps
  have hunapplied : ∀ ch ∈ r.energyChanges, ch.applied = false := by
    intro ch hch
    rw [← Bool.not_eq_true]
    intro happlied
    obtain ⟨coins, perHeads, energy, hmem, -⟩ := hspared.source ch hch happlied
    exact hnone coins perHeads energy hmem
  rw [hspared.attacker, EnergyPool.withGains_of_not_applied hunapplied]

/-! ### A flip for energy in front of a cancelling flip -/

/-- Energy on heads, and the attack cancelled on tails. -/
def flipText : String :=
  "Flip a coin. If heads, take a \x7bR\x7d Energy from your Energy Zone and attach it to this Pokémon. Flip a coin. If tails, this attack does nothing."

/-- A board whose first coins come up heads, then tails. -/
def flipBoard : Board where
  attacker := .new "Charmander" .fire 100
  defender := some (.new "Eevee" .fire 100)
  coins := .ofSeed 6

/-- Both flips are kept, the one for energy first. -/
theorem kept_flipText : (Plan.ofText flipText).kept
    = [.coinFlipEnergy (.fixed 1) 1 (.named .fire) .this,
      .coinFlipConditional 1 .tails .attackFails] := by
  have heffects : (Reading.ofText flipText).effects
      = [.coinFlipEnergy (.fixed 1) 1 (.named .fire) .this,
        .coinFlipConditional 1 .tails .attackFails] := by
    refine Clause.effects_ofText (by decide) ?_
    rw [flipText, String.toList_ofList]
    decide
  rw [Plan.ofText, heffects, Plan.ofEffects, Plan.inOrder_eq_ranked]
  decide

/-- The attack is cancelled, and reports the energy attached. -/
theorem resolveText_flipText :
    ((ofConfig .standard).resolveText 1 flipBoard flipText 30).1.negated = true
      ∧ ((ofConfig .standard).resolveText 1 flipBoard flipText 30).1.energyChanges
        = [⟨.gain, .fire, 1, .attacker, true⟩] := by
  obtain ⟨hneg, hchanges, -⟩ := run_fst .standard 1 none flipBoard flipText 30
  rw [resolveText, hneg, hchanges, effectsOf, kept_flipText]
  decide +kernel

/-- The Pokémon of a cancelled attack is not always as it was before. -/
theorem cancelled_attack_attaches :
    ((ofConfig .standard).resolveText 1 flipBoard flipText 30).1.negated = true
      ∧ ((ofConfig .standard).resolveText 1 flipBoard flipText 30).2.attacker
        ≠ flipBoard.attacker := by
  obtain ⟨hneg, hchanges⟩ := resolveText_flipText
  have hspared : Spared (Plan.ofText flipText).kept flipBoard
      ((ofConfig .standard).resolveText 1 flipBoard flipText 30).1.energyChanges
      ((ofConfig .standard).resolveText 1 flipBoard flipText 30).2 :=
    spared_run .standard 1 none flipBoard flipText 30 hneg
  rw [hchanges] at hspared
  refine ⟨hneg, fun hsame => ?_⟩
  -- with the gain attached there is one unit where there was none
  have hattacker := hspared.attacker.symm.trans hsame
  have hcount := congrArg (fun m : Combatant => m.energy.count .fire) hattacker
  exact absurd hcount (by decide)

/-- In that attack nothing but the energy reported has changed. -/
theorem spared_flipText :
    ((ofConfig .standard).resolveText 1 flipBoard flipText 30).1.negated = true
      ∧ ((ofConfig .standard).resolveText 1 flipBoard flipText 30).2.defender = flipBoard.defender
      ∧ ((ofConfig .standard).resolveText 1 flipBoard flipText 30).2.attacker
        = { flipBoard.attacker with
            energy :=
              flipBoard.attacker.energy.withGains [⟨.gain, .fire, 1, .attacker, true⟩] } := by
  obtain ⟨hneg, hchanges⟩ := resolveText_flipText
  have hspared : Spared (Plan.ofText flipText).kept flipBoard
      ((ofConfig .standard).resolveText 1 flipBoard flipText 30).1.energyChanges
      ((ofConfig .standard).resolveText 1 flipBoard flipText 30).2 :=
    (Resolves.spared_of_negated (.text 30 (Prod.eta _).symm) hneg).1
  rw [hchanges] at hspared
  exact ⟨hneg, hspared.defender, hspared.attacker⟩

end Engine

end CardEffects
