/-
  CardEffects.Proofs.Deed

  What carrying out one effect can do to a board.  Whatever the effect, it comes to one of six
  deeds: nothing at all, a condition inflicted, hit points restored, energy attached, energy left
  to the caller, or energy discarded.  Each is reported as it is done; coins may be drawn in any
  case.

    * `Deed` — the deeds, each with what it does and what it reports.
    * `Effect.deed_apply` — carrying out an effect is one of them.
    * `Registry.deed_execute` — so it is whatever handler is in the place of its kind.
-/
import CardEffects.Registry

namespace CardEffects

/-! ## Deeds -/

/-- What an outcome reports of the board: the conditions inflicted, the energy that came or
went, and the hit points restored.  An effect that is carried out is not reported as skipped. -/
structure Outcome.Reports (o : Outcome) (conditions : List ConditionChange)
    (energy : List EnergyChange) (healed : Word) : Prop where
  status : o.status ≠ .skipped
  conditionChanges : o.conditionChanges = conditions
  energyChanges : o.energyChanges = energy
  healed : o.healed = healed

/-- What one effect does to a board, in terms of what it reports. -/
inductive Deed (s : Setting) (b : Board) (o : Outcome) : Board → Prop where
  /-- Nothing, but for coins. -/
  | idle (coins : Coins) (report : o.Reports [] [] 0) : Deed s b o { b with coins }
  /-- A condition is inflicted, or found in force. -/
  | inflicted (coins : Coins) {side : Side} {m : Combatant} (c : Condition)
      (active : b.active? side = some m)
      (report : o.Reports [⟨c, side.participant, (m.inflict c s.turn).1⟩] [] 0) :
      Deed s b o { b.put side (m.inflict c s.turn).2 with coins }
  /-- Hit points are restored, as many as are missing. -/
  | healed (coins : Coins) (target : HealTarget) (amount : Option Word)
      (report : o.Reports [] [] (b.attacker.healTarget target amount).1) :
      Deed s b o { b with attacker := (b.attacker.healTarget target amount).2, coins }
  /-- Energy is attached to the acting Pokémon. -/
  | attached (coins : Coins) (energy : Energy) {units : Word} (pos : units ≠ 0)
      (report : o.Reports [] [⟨.gain, energy, units, .attacker, true⟩] 0) :
      Deed s b o { b with attacker := b.attacker.withEnergy energy units, coins }
  /-- Energy waits for the caller to place it. -/
  | waiting (coins : Coins) (energy : Energy) {units : Word} (pos : units ≠ 0)
      (report : o.Reports [] [⟨.gain, energy, units, .bench, false⟩] 0) :
      Deed s b o { b with coins }
  /-- Energy is discarded, with `drawn` as the coins that pick the units. -/
  | discarded (drawn : Coins) {m : Combatant} (d : EnergyDiscard)
      (active : b.active? d.source = some m)
      (report : o.Reports [] (((m.energy.discardBy drawn d).1.filter fun u => u.2 ≠ 0).map
        fun u => ⟨.loss, u.1, u.2, d.source.participant, true⟩) 0) :
      Deed s b o { b.put d.source { m with energy := (m.energy.discardBy drawn d).2.1 } with
        coins := (m.energy.discardBy drawn d).2.2 }

namespace Deed

variable {s : Setting} {b b' : Board} {o o' : Outcome}

private theorem put_coins (coins coins' : Coins) (side : Side) (m : Combatant) :
    { ({ b with coins } : Board).put side m with coins := coins' }
      = { b.put side m with coins := coins' } := by
  cases side <;> rfl

private theorem active?_coins (coins : Coins) (side : Side) :
    ({ b with coins } : Board).active? side = b.active? side := by
  cases side <;> rfl

/-- The coins a deed starts from are no part of it. -/
theorem of_coins {coins : Coins} (h : Deed s { b with coins } o b') : Deed s b o b' := by
  cases h with
  | idle coins' report => exact .idle coins' report
  | inflicted coins' c active report =>
    rw [active?_coins] at active
    rw [put_coins]
    exact .inflicted coins' c active report
  | healed coins' target amount report => exact .healed coins' target amount report
  | attached coins' energy pos report => exact .attached coins' energy pos report
  | waiting coins' energy pos report => exact .waiting coins' energy pos report
  | discarded drawn d active report =>
    rw [active?_coins] at active
    rw [put_coins]
    exact .discarded drawn d active report

/-- What else an outcome says is no part of the deed: its kind, its notes, its flips. -/
theorem congr (h : Deed s b o b') (hstatus : o'.status = o.status)
    (hconditions : o'.conditionChanges = o.conditionChanges)
    (henergy : o'.energyChanges = o.energyChanges) (hhealed : o'.healed = o.healed) :
    Deed s b o' b' := by
  have hreports : ∀ {conditions energy healed}, o.Reports conditions energy healed →
      o'.Reports conditions energy healed := fun h =>
    ⟨hstatus ▸ h.status, hconditions.trans h.conditionChanges, henergy.trans h.energyChanges,
      hhealed.trans h.healed⟩
  cases h with
  | idle coins report => exact .idle coins (hreports report)
  | inflicted coins c active report => exact .inflicted coins c active (hreports report)
  | healed coins target amount report => exact .healed coins target amount (hreports report)
  | attached coins energy pos report => exact .attached coins energy pos (hreports report)
  | waiting coins energy pos report => exact .waiting coins energy pos (hreports report)
  | discarded drawn d active report => exact .discarded drawn d active (hreports report)

/-- What is done is not skipped. -/
theorem status (h : Deed s b o b') : o.status ≠ .skipped := by
  cases h with
  | idle _ report | waiting _ _ _ report | attached _ _ _ report | inflicted _ _ _ report
  | healed _ _ _ report | discarded _ _ _ report => exact report.status

end Deed

/-! ## Handlers -/

namespace Application

variable (s : Setting) (b : Board) (kind : EffectKind)

/-- A Pokémon put in a place takes no coins. -/
theorem put_self (side : Side) (m : Combatant) :
    { b.put side m with coins := b.coins } = b.put side m := by
  cases side <;> rfl

private theorem deed_noEffect (note : String) : Deed s b (.noEffect kind note) b :=
  .idle b.coins ⟨nofun, rfl, rfl, rfl⟩

theorem deed_inflict (c : Condition) (target : ConditionTarget) :
    Deed s b (inflict s b kind c target).1 (inflict s b kind c target).2 := by
  unfold inflict
  split
  · exact deed_noEffect s b kind _
  next m hm =>
    dsimp only
    rw [← put_self]
    refine .inflicted b.coins c hm ?_
    split
    next h => exact ⟨nofun, by rw [h], rfl, rfl⟩
    next h => exact ⟨nofun, by rw [h], rfl, rfl⟩

/-- A condition picked at random is inflicted: it is one of those not in force. -/
theorem deed_inflictRandom (target : ConditionTarget) :
    Deed s b (inflictRandom s b target).1 (inflictRandom s b target).2 := by
  unfold inflictRandom
  split
  · exact deed_noEffect s b _ _
  next m hm =>
    split
    next c m' coins h =>
      unfold Combatant.inflictRandom at h
      dsimp only at h
      split at h
      next c' hc =>
        cases h
        have hmissing : m.conditions.contains c = false := by
          have hmem := (List.mem_filter.1 (List.mem_of_getElem? hc)).2
          simpa using hmem
        have happlied : (m.inflict c s.turn).1 = .applied := by
          simp [Combatant.inflict, Conditions.insert, hmissing]
        exact .inflicted _ c hm ⟨nofun, by rw [happlied], rfl, rfl⟩
      · cases h
    · exact deed_noEffect s b _ _

theorem deed_heal (target : HealTarget) (amount : Option Word) :
    Deed s b (heal b kind target amount).1 (heal b kind target amount).2 := by
  unfold heal
  dsimp only
  split
  next h => exact .healed b.coins target amount ⟨nofun, rfl, rfl, h.symm⟩
  next => exact .healed b.coins target amount ⟨nofun, rfl, rfl, rfl⟩

theorem deed_attach (energy : Energy) (units : Word) (target : EnergyTarget) :
    Deed s b (attach b kind energy units target).1 (attach b kind energy units target).2 := by
  unfold attach
  split
  · exact deed_noEffect s b kind _
  next hunits =>
    split
    · exact .attached b.coins energy hunits ⟨nofun, rfl, rfl, rfl⟩
    · exact .waiting b.coins energy hunits ⟨nofun, rfl, rfl, rfl⟩

theorem deed_discard (d : EnergyDiscard) :
    Deed s b (discard b kind d).1 (discard b kind d).2 := by
  unfold discard
  split
  · exact deed_noEffect s b kind _
  next m hm =>
    dsimp only
    split
    -- a discard that finds nothing is reported as such, and reports no loss
    next hnone => exact .discarded b.coins d hm ⟨nofun, rfl, by rw [hnone]; rfl, rfl⟩
    next => exact .discarded b.coins d hm ⟨nofun, rfl, rfl, rfl⟩

theorem deed_ofBonus (bonus : Word) (notes : List String) :
    Deed s b (.ofBonus kind bonus notes) b := by
  refine .idle b.coins ⟨?_, rfl, rfl, rfl⟩
  show (if 0 < bonus then EffectStatus.applied else .noEffect) ≠ .skipped
  split <;> exact nofun

theorem deed_conditionalDamage (bonus : Word) (c : DamageCondition) :
    Deed s b (conditionalDamage s b bonus c) b := by
  unfold conditionalDamage
  split
  · exact deed_ofBonus s b _ bonus _
  · exact deed_noEffect s b _ _

/-! ## Handlers that flip coins -/

theorem deed_consequence (note : String) (c : FlipConsequence) :
    Deed s b (consequence s b note c).1 (consequence s b note c).2 := by
  cases c with
  | bonusDamage amount => exact .idle b.coins ⟨nofun, rfl, rfl, rfl⟩
  | attackFails => exact .idle b.coins ⟨nofun, rfl, rfl, rfl⟩
  | condition c target =>
    exact (deed_inflict s b .coinFlipConditional c target).congr rfl rfl rfl rfl
  | heal amount =>
    exact (deed_heal s b .coinFlipConditional .this (some amount)).congr rfl rfl rfl rfl
  | discard d => exact (deed_discard s b .coinFlipConditional d).congr rfl rfl rfl rfl

theorem deed_coinFlipConditional (coins : Word) (wanted : CoinFace) (c : FlipConsequence) :
    Deed s b (coinFlipConditional s b coins wanted c).1
      (coinFlipConditional s b coins wanted c).2 := by
  unfold coinFlipConditional
  dsimp only
  split
  · exact (deed_consequence s _ _ c).of_coins.congr rfl rfl rfl rfl
  · exact .idle _ ⟨nofun, rfl, rfl, rfl⟩

theorem deed_coinFlipEnergy (coins : CoinCount) (perHeads : Word) (energy : EnergySpec)
    (target : EnergyTarget) :
    Deed s b (coinFlipEnergy s b coins perHeads energy target).1
      (coinFlipEnergy s b coins perHeads energy target).2 :=
  (deed_attach s (b.flip s coins).2 .coinFlipEnergy _ _ target).of_coins.congr rfl rfl rfl rfl

theorem deed_coinFlipDamage (coins : CoinCount) (perHeads : Word) :
    Deed s b (coinFlipDamage s b coins perHeads).1 (coinFlipDamage s b coins perHeads).2 :=
  (deed_ofBonus s (b.flip s coins).2 .coinFlipDamage _ []).of_coins.congr rfl rfl rfl rfl

end Application

/-! ## Effects -/

open Application in
/-- Carrying out an effect is one deed. -/
theorem Effect.deed_apply (s : Setting) (b : Board) (e : Effect) :
    Deed s b (e.apply s b).1 (e.apply s b).2 := by
  cases e with
  | coinFlipDamage coins perHeads => exact deed_coinFlipDamage s b coins perHeads
  | coinFlipEnergy coins perHeads energy target =>
    exact deed_coinFlipEnergy s b coins perHeads energy target
  | coinFlipConditional coins wanted c => exact deed_coinFlipConditional s b coins wanted c
  | conditionApply c target => exact deed_inflict s b .conditionApply c target
  | conditionApplyRandom target => exact deed_inflictRandom s b target
  | damageBonus amount => exact deed_ofBonus s b .damageBonus amount _
  | energyScalingDamage each energy source => exact deed_ofBonus s b .energyScalingDamage _ _
  | conditionalDamage bonus c => exact deed_conditionalDamage s b bonus c
  | benchScalingDamage each side filter => exact deed_ofBonus s b .benchScalingDamage _ _
  | heal amount target => exact deed_heal s b .heal target (some amount)
  | healFull target => exact deed_heal s b .healFull target none
  | energyAttach energy n target => exact deed_attach s b .energyAttach _ n target
  | energyDiscard d => exact deed_discard s b .energyDiscard d
  | searchOrDraw flow => exact .idle b.coins ⟨nofun, rfl, rfl, rfl⟩
  | unparsed text => exact .idle b.coins ⟨nofun, rfl, rfl, rfl⟩

/-- Whatever handler is in the place of its kind, what is done for an effect is one deed. -/
theorem Registry.deed_execute (reg : Registry) (s : Setting) (b : Board) (e : Effect) :
    Deed s b (reg.execute s b e).1 (reg.execute s b e).2 := by
  have hnone : ∀ k, Deed s b (.notImplemented k) b := fun k =>
    .idle b.coins ⟨nofun, rfl, rfl, rfl⟩
  unfold execute
  split
  · exact hnone _
  · split
    · exact e.deed_apply s b
    · exact hnone _

end CardEffects
