/-
  CardEffects.Proofs.Truthful

  What the status of an effect says.  An effect is reported as applied when it changed the damage
  or something that can be seen on the board: hit points, the energy of each type, conditions.  It
  is reported as deferred, or as to be handled by hand, when it left work to the caller.  The one
  exception is a flip for a bonus of no damage: when its coins come up as wanted it is reported as
  applied, and changes nothing.

    * `Board.Alike` — boards on which the same can be seen.
    * `Outcome.Changes` — an effect changed the damage or the board.
    * `Truthful` — the status says so, and `truthful_inflict` … `truthful_consequence`, for each
      handler.
    * `Effect.PromisesNothing` — the flip for no damage.
    * `Registry.status_tells` — every effect carried out by its own handler.
-/
import CardEffects.Proofs.Deed
import CardEffects.Proofs.Ledger.Account
import CardEffects.Proofs.Mending

namespace CardEffects

/-! ## What can be seen of a board -/

/-- Two Pokémon on the bench with the same hit points and as much energy of each type. -/
structure BenchOccupant.Alike (o o' : BenchOccupant) : Prop where
  hp : o'.hp = o.hp
  energy : ∀ t, o'.energy.count t = o.energy.count t

/-- Two active Pokémon with the same hit points, as much energy of each type and the same
conditions in force, and benches alike. -/
structure Combatant.Alike (m m' : Combatant) : Prop where
  hp : m'.hp = m.hp
  energy : ∀ t, m'.energy.count t = m.energy.count t
  conditions : ∀ c, m'.conditions.contains c = m.conditions.contains c
  bench : List.Forall₂ (Option.Rel BenchOccupant.Alike) m.bench m'.bench

/-- Two boards with both sides alike.  Coins cannot be seen. -/
structure Board.Alike (b b' : Board) : Prop where
  attacker : b.attacker.Alike b'.attacker
  defender : Option.Rel Combatant.Alike b.defender b'.defender

theorem BenchOccupant.Alike.refl (o : BenchOccupant) : o.Alike o := ⟨rfl, fun _ => rfl⟩

theorem alike_bench (l : List (Option BenchOccupant)) :
    List.Forall₂ (Option.Rel BenchOccupant.Alike) l l :=
  List.forall₂_same.2 fun slot _ => optionRel_refl BenchOccupant.Alike.refl slot

theorem Combatant.Alike.refl (m : Combatant) : m.Alike m :=
  ⟨rfl, fun _ => rfl, fun _ => rfl, alike_bench m.bench⟩

namespace Board

variable {b b' : Board}

/-- Coins taken make no difference. -/
theorem Alike.coins (b : Board) (coins : Coins) : b.Alike { b with coins } :=
  ⟨.refl _, optionRel_refl Combatant.Alike.refl _⟩

theorem Alike.refl (b : Board) : b.Alike b := .coins b b.coins

theorem alike_attacker_iff {m : Combatant} {coins : Coins} :
    b.Alike { b with attacker := m, coins } ↔ b.attacker.Alike m :=
  ⟨fun h => h.attacker, fun h => ⟨h, optionRel_refl Combatant.Alike.refl _⟩⟩

/-- A Pokémon put in its own place makes the difference that it makes there. -/
theorem alike_put_iff {side : Side} {m m' : Combatant} {coins : Coins}
    (hm : b.active? side = some m) : b.Alike { b.put side m' with coins } ↔ m.Alike m' := by
  constructor
  · intro h
    cases side with
    | own =>
      obtain rfl := Option.some.inj hm
      exact h.attacker
    | opponent =>
      have hdefender : Option.Rel Combatant.Alike b.defender (some m') := h.defender
      rw [show b.defender = some m from hm] at hdefender
      exact Option.rel_some_some.1 hdefender
  · intro h
    have hput := rel_put Combatant.Alike.refl hm h
    exact ⟨hput.1, hput.2⟩

end Board

/-! ## Changes, and what is said of them -/

/-- An outcome adds damage or cancels the attack, or the board does not look as before. -/
def Outcome.Changes (o : Outcome) (b b' : Board) : Prop :=
  0 < o.bonus ∨ o.negates = true ∨ ¬ b.Alike b'

/-- The status of an outcome tells whether something changed, and whether work is left. -/
structure Truthful (b : Board) (o : Outcome) (b' : Board) : Prop where
  applied : o.status = .applied ↔ o.Changes b b'
  waiting : o.status = .deferred ∨ o.status = .needsManual ↔ o.pending ≠ []

namespace Truthful

variable {b b' : Board} {o o' : Outcome}

/-- Nothing changed, and none of the two statuses that say more was given. -/
theorem of_idle (hstatus : o.status ≠ .applied) (hbonus : o.bonus = 0)
    (hnegates : o.negates = false) (hboard : b.Alike b')
    (hwaiting : o.status = .deferred ∨ o.status = .needsManual ↔ o.pending ≠ []) :
    Truthful b o b' := by
  refine ⟨⟨fun h => absurd h hstatus, ?_⟩, hwaiting⟩
  rintro (h | h | h)
  · rw [hbonus] at h
    exact absurd h (by decide)
  · rw [hnegates] at h
    cases h
  · exact absurd hboard h

theorem noEffect (kind : EffectKind) (note : String) (hboard : b.Alike b') :
    Truthful b (.noEffect kind note) b' :=
  of_idle EffectStatus.noConfusion rfl rfl hboard (by simp [Outcome.noEffect])

/-- The board changed, the outcome is reported as applied, and no work is left. -/
theorem of_changed (hstatus : o.status = .applied) (hboard : ¬ b.Alike b')
    (hpending : o.pending = []) : Truthful b o b' :=
  ⟨⟨fun _ => .inr (.inr hboard), fun _ => hstatus⟩,
    by simp [hstatus], fun h => absurd hpending h⟩

/-- The coins that an effect starts from make no difference. -/
theorem of_coins {coins : Coins} (h : Truthful { b with coins } o b') : Truthful b o b' := by
  have halike : Board.Alike { b with coins } b' ↔ b.Alike b' :=
    ⟨fun h => ⟨h.attacker, h.defender⟩, fun h => ⟨h.attacker, h.defender⟩⟩
  refine ⟨h.applied.trans ?_, h.waiting⟩
  unfold Outcome.Changes
  rw [halike]

/-- Notes and flips make no difference. -/
theorem congr (h : Truthful b o b') (hstatus : o'.status = o.status) (hbonus : o'.bonus = o.bonus)
    (hnegates : o'.negates = o.negates) (hpending : o'.pending = o.pending) :
    Truthful b o' b' := by
  refine ⟨?_, by rw [hstatus, hpending]; exact h.waiting⟩
  unfold Outcome.Changes
  rw [hstatus, hbonus, hnegates]
  exact h.applied

end Truthful

/-! ## Healing -/

/-- A bench that is mended looks as before exactly when nothing was restored. -/
theorem alike_bench_iff {l l' : List (Option BenchOccupant)} (h : Mended l l') :
    List.Forall₂ (Option.Rel BenchOccupant.Alike) l l' ↔ restoredSlots l l' = 0 := by
  induction h with
  | nil => exact ⟨fun _ => rfl, fun _ => .nil⟩
  | cons hslot _ ih =>
    rw [List.forall₂_cons, restoredSlots_cons, Nat.add_eq_zero_iff, ih]
    refine and_congr_left fun _ => ?_
    cases hslot with
    | none => exact ⟨fun _ => rfl, fun _ => .none⟩
    | @some o o' ho =>
      have hle := ho.hp.le
      rw [Option.rel_some_some]
      show o.Alike o' ↔ o'.hp.toNat - o.hp.toNat = 0
      constructor
      · intro halike
        rw [halike.hp, Nat.sub_self]
      · intro hzero
        exact ⟨Word.ext (by omega), fun t => by rw [ho.energy]⟩

namespace Combatant

/-- A Pokémon that recovers looks as before exactly when nothing was restored. -/
theorem alike_iff_of_recovers {m m' : Combatant} (h : m.Recovers m')
    (henergy : m'.energy = m.energy) (hconditions : m'.conditions = m.conditions) :
    m.Alike m' ↔ m.restored m' = 0 := by
  have hle := h.hp.le
  rw [restored, Nat.add_eq_zero_iff, ← alike_bench_iff h.bench]
  constructor
  · intro halike
    exact ⟨by rw [halike.hp, Nat.sub_self], halike.bench⟩
  · rintro ⟨hzero, hbench⟩
    exact ⟨Word.ext (by omega), fun t => by rw [henergy], fun c => by rw [hconditions],
      hbench⟩

/-- Healing reports nothing exactly when nobody looks better for it. -/
theorem alike_healTarget_iff (m : Combatant) (target : HealTarget) (amount : Option Word) :
    m.Alike (m.healTarget target amount).2 ↔ (m.healTarget target amount).1 = 0 := by
  have hfst := m.healTarget_fst target amount
  have hsame : (m.healTarget target amount).2.energy = m.energy
      ∧ (m.healTarget target amount).2.conditions = m.conditions := by
    cases target <;> exact ⟨rfl, rfl⟩
  rw [alike_iff_of_recovers (m.recovers_healTarget target amount) hsame.1 hsame.2,
    ← UInt32.toNat_inj, hfst, UInt32.toNat_zero, Word.limit]
  omega

/-! ## Conditions -/

/-- A condition that is inflicted can be seen exactly when it was not in force. -/
theorem alike_inflict_iff (m : Combatant) (c : Condition) (turn : Word) :
    m.Alike (m.inflict c turn).2 ↔ (m.inflict c turn).1 = .alreadyPresent := by
  unfold inflict Conditions.insert
  cases hc : m.conditions.contains c with
  | true =>
    simp only [if_true]
    exact ⟨fun _ => trivial, fun _ => .refl m⟩
  | false =>
    simp only [Bool.false_eq_true, if_false, reduceCtorEq, iff_false]
    intro halike
    -- the new entry stands where there was none
    have hget := halike.conditions c
    rw [hc] at hget
    simp [Conditions.contains, EnumMap.contains, EnumMap.get?_insert] at hget

/-! ## Energy -/

/-- Another pool can be seen when it holds another number of units of some type. -/
theorem alike_energy_iff (m : Combatant) (energy : EnergyPool) :
    m.Alike { m with energy } ↔ ∀ t, energy.count t = m.energy.count t :=
  ⟨fun h => h.energy, fun h => ⟨rfl, h, fun _ => rfl, alike_bench m.bench⟩⟩

end Combatant

/-- Units that are counted by type are none when there is none of any type. -/
theorem EnergyPool.filter_eq_nil_iff (us : List (Energy × Word)) :
    us.filter (fun u => u.2 ≠ 0) = [] ↔ ∀ t, unitsOf us t = 0 := by
  induction us with
  | nil => simp
  | cons u us ih =>
    have hzero : u.2.toNat = 0 ↔ u.2 = 0 := by
      rw [← UInt32.toNat_inj, UInt32.toNat_zero]
    simp only [unitsOf_cons, Nat.add_eq_zero_iff, forall_and]
    by_cases hu : u.2 = 0
    · rw [List.filter_cons_of_neg (by simpa using hu), ih, hzero.2 hu]
      simp
    · rw [List.filter_cons_of_pos (by simpa using hu)]
      refine ⟨fun h => absurd h (List.cons_ne_nil _ _), fun h => ?_⟩
      -- its own type shows the units
      have hnone := h.1 u.1
      rw [if_pos rfl, hzero] at hnone
      exact absurd hnone hu

/-- What is discarded is missing afterwards. -/
theorem EnergyPool.discardBy_eq_nil_iff (p : EnergyPool) (coins : Coins) (d : EnergyDiscard) :
    (p.discardBy coins d).1.filter (fun u => u.2 ≠ 0) = []
      ↔ ∀ t, (p.discardBy coins d).2.1.count t = p.count t := by
  rw [filter_eq_nil_iff]
  refine forall_congr' fun t => ?_
  have hcount := p.count_discardBy coins d t
  rw [← UInt32.toNat_inj]
  omega

/-! ## Handlers -/

namespace Application

variable (s : Setting) (b : Board) (kind : EffectKind)

theorem truthful_inflict (c : Condition) (target : ConditionTarget) :
    Truthful b (inflict s b kind c target).1 (inflict s b kind c target).2 := by
  unfold inflict
  split
  · exact .noEffect kind _ (.refl b)
  next m hm =>
    have hseen : b.Alike (b.put target.side (m.inflict c s.turn).2)
        ↔ (m.inflict c s.turn).1 = .alreadyPresent := by
      rw [← put_self, Board.alike_put_iff hm]
      exact m.alike_inflict_iff c s.turn
    dsimp only
    cases hout : (m.inflict c s.turn).1 with
    | applied =>
      rw [hout] at hseen
      exact .of_changed rfl (fun h => absurd (hseen.1 h) (by decide)) rfl
    | alreadyPresent =>
      exact .of_idle EffectStatus.noConfusion rfl rfl (hseen.2 hout) (by simp)

theorem truthful_inflictRandom (target : ConditionTarget) :
    Truthful b (inflictRandom s b target).1 (inflictRandom s b target).2 := by
  unfold inflictRandom
  split
  · exact .noEffect _ _ (.refl b)
  next m hm =>
    split
    next c m' coins h =>
      unfold Combatant.inflictRandom at h
      dsimp only at h
      split at h
      next c' hc =>
        cases h
        -- the condition is picked among those not in force
        have hmissing : m.conditions.contains c = false := by
          have hmem := (List.mem_filter.1 (List.mem_of_getElem? hc)).2
          simpa using hmem
        have happlied : (m.inflict c s.turn).1 = .applied := by
          simp [Combatant.inflict, Conditions.insert, hmissing]
        refine .of_changed rfl ?_ rfl
        rw [Board.alike_put_iff hm, m.alike_inflict_iff, happlied]
        decide
      · cases h
    · exact .noEffect _ _ (.refl b)

theorem truthful_heal (target : HealTarget) (amount : Option Word) :
    Truthful b (heal b kind target amount).1 (heal b kind target amount).2 := by
  have hseen : b.Alike { b with attacker := (b.attacker.healTarget target amount).2 }
      ↔ (b.attacker.healTarget target amount).1 = 0 :=
    Board.alike_attacker_iff.trans (b.attacker.alike_healTarget_iff target amount)
  unfold heal
  dsimp only
  split
  next hzero => exact .noEffect kind _ (hseen.2 hzero)
  next hsome => exact .of_changed rfl (fun h => hsome (hseen.1 h)) rfl

/-- Energy that is attached can be seen, unless the count is full. -/
theorem truthful_attach (energy : Energy) (units : Word) (target : EnergyTarget)
    (hroom : ∀ t, (b.attacker.energy.count t).toNat
      + gained (attach b kind energy units target).1.energyChanges t ≤ Word.limit) :
    Truthful b (attach b kind energy units target).1 (attach b kind energy units target).2 := by
  unfold attach at hroom ⊢
  split
  · exact .noEffect kind _ (.refl b)
  next hunits =>
    rw [if_neg hunits] at hroom
    have hpos := Word.toNat_pos hunits
    split
    next hthis =>
      rw [if_pos hthis] at hroom
      have hfits := hroom energy
      refine .of_changed rfl (fun halike => ?_) rfl
      -- there are as many more units as were attached
      have hcount := congrArg UInt32.toNat (halike.attacker.energy energy)
      change ((b.attacker.energy.attach energy units).count energy).toNat = _ at hcount
      rw [EnergyPool.count_attach, if_pos rfl, Word.toNat_add] at hcount
      simp [gained, unitsIn] at hfits
      omega
    next =>
      exact .of_idle EffectStatus.noConfusion rfl rfl (.refl b) (by simp)

theorem truthful_discard (d : EnergyDiscard) :
    Truthful b (discard b kind d).1 (discard b kind d).2 := by
  unfold discard
  split
  · exact .noEffect kind _ (.refl b)
  next m hm =>
    rcases hdiscarded : m.energy.discardBy b.coins d with ⟨units, energy, coins⟩
    have hnothing := m.energy.discardBy_eq_nil_iff b.coins d
    rw [hdiscarded] at hnothing
    -- the board looks as before when the pool does
    have hseen : b.Alike { b.put d.source { m with energy } with coins }
        ↔ units.filter (fun u => u.2 ≠ 0) = [] := by
      rw [Board.alike_put_iff hm, m.alike_energy_iff energy]
      exact hnothing.symm
    dsimp only
    split
    next hnone => exact .noEffect kind _ (hseen.2 hnone)
    next hsome => exact .of_changed rfl (fun h => hsome (hseen.1 h)) rfl

/-- A bonus is applied when there is one. -/
theorem truthful_ofBonus (bonus : Word) (notes : List String) {b' : Board} (h : b.Alike b') :
    Truthful b (.ofBonus kind bonus notes) b' := by
  by_cases hpos : 0 < bonus
  · refine ⟨⟨fun _ => .inl hpos, fun _ => if_pos hpos⟩, ?_⟩
    simp [Outcome.ofBonus, hpos]
  · have hzero : bonus = 0 := by
      rw [UInt32.pos_iff_ne_zero] at hpos
      exact Classical.not_not.1 hpos
    refine .of_idle ?_ hzero rfl h ?_
    · simp [Outcome.ofBonus, hpos]
    · simp [Outcome.ofBonus, hpos]

theorem truthful_conditionalDamage (bonus : Word) (c : DamageCondition) :
    Truthful b (conditionalDamage s b bonus c) b := by
  unfold conditionalDamage
  split
  · exact truthful_ofBonus b _ bonus _ (.refl b)
  · exact .noEffect _ _ (.refl b)

/-- A note in front makes no difference. -/
theorem truthful_lead {out : Outcome × Board} (h : Truthful b out.1 out.2) (note : String) :
    Truthful b (consequence.lead note out).1 (consequence.lead note out).2 :=
  h.congr rfl rfl rfl rfl

/-- A consequence is told truly, unless it is a bonus of no damage. -/
theorem truthful_consequence (note : String) (c : FlipConsequence) (h : c ≠ .bonusDamage 0) :
    Truthful b (consequence s b note c).1 (consequence s b note c).2 := by
  cases c with
  | bonusDamage amount =>
    have hpos : 0 < amount := by
      rw [UInt32.pos_iff_ne_zero]
      rintro rfl
      exact h rfl
    exact ⟨⟨fun _ => .inl hpos, fun _ => rfl⟩, by simp [consequence]⟩
  | attackFails => exact ⟨⟨fun _ => .inr (.inl rfl), fun _ => rfl⟩, by simp [consequence]⟩
  | condition c target =>
    exact truthful_lead b (truthful_inflict s b .coinFlipConditional c target) note
  | heal amount =>
    exact truthful_lead b (truthful_heal b .coinFlipConditional .this (some amount)) note
  | discard d => exact truthful_lead b (truthful_discard b .coinFlipConditional d) note

end Application

/-! ## Effects -/

/-- A flip for a bonus of no damage, with coins that come up as wanted. -/
def Effect.PromisesNothing (b : Board) : Effect → Prop
  | coinFlipConditional coins wanted (.bonusDamage amount) =>
    amount = 0 ∧ Application.allShow wanted (b.coins.flips (max coins.toNat 1)).1 = true
  | _ => False

/-- Nothing that an effect attaches to the acting Pokémon fills up a count. -/
def Outcome.HasRoom (o : Outcome) (b : Board) : Prop :=
  ∀ t, (b.attacker.energy.count t).toNat + gained o.energyChanges t ≤ Word.limit

namespace Application

theorem truthful_coinFlipConditional (s : Setting) (b : Board) (coins : Word) (wanted : CoinFace)
    (c : FlipConsequence) (h : ¬ (Effect.coinFlipConditional coins wanted c).PromisesNothing b) :
    Truthful b (coinFlipConditional s b coins wanted c).1
      (coinFlipConditional s b coins wanted c).2 := by
  unfold coinFlipConditional
  dsimp only
  split
  next hall =>
    have hsome : c ≠ .bonusDamage 0 := by
      rintro rfl
      exact h ⟨rfl, hall⟩
    exact (truthful_consequence s _ _ c hsome).of_coins.congr rfl rfl rfl rfl
  next =>
    exact (Truthful.noEffect .coinFlipConditional
      (describeFlips (b.coins.flips (max coins.toNat 1)).1 ++ ", nothing happens")
      (.coins b _)).congr rfl rfl rfl rfl

/-- The exception: applied, with no damage added and nothing else changed. -/
theorem coinFlipConditional_of_promisesNothing (s : Setting) {b : Board} {e : Effect}
    (h : e.PromisesNothing b) :
    (e.apply s b).1.status = .applied ∧ ¬ (e.apply s b).1.Changes b (e.apply s b).2
      ∧ (e.apply s b).1.pending = [] := by
  cases e with
  | coinFlipConditional coins wanted c =>
    cases c with
    | bonusDamage amount =>
      obtain ⟨rfl, hall⟩ := h
      simp only [Effect.apply, coinFlipConditional, hall, if_true, consequence]
      refine ⟨trivial, ?_, trivial⟩
      rintro (hbonus | hnegates | hboard)
      · exact absurd (show (0 : Word) < 0 from hbonus) (by decide)
      · cases hnegates
      · exact hboard (.coins b _)
    | _ => exact h.elim
  | _ => exact h.elim

end Application

open Application in
/-- The status of every effect is told truly, but for that exception. -/
theorem Effect.truthful_apply (s : Setting) (b : Board) (e : Effect)
    (hroom : (e.apply s b).1.HasRoom b) (h : ¬ e.PromisesNothing b) :
    Truthful b (e.apply s b).1 (e.apply s b).2 := by
  have hsame := Board.Alike.refl b
  cases e with
  | coinFlipDamage coins perHeads =>
    exact (truthful_ofBonus b .coinFlipDamage _ [] (.coins b _)).congr rfl rfl rfl rfl
  | coinFlipEnergy coins perHeads energy target =>
    exact (truthful_attach (b.flip s coins).2 .coinFlipEnergy _ _ target hroom).of_coins.congr
      rfl rfl rfl rfl
  | coinFlipConditional coins wanted c => exact truthful_coinFlipConditional s b coins wanted c h
  | conditionApply c target => exact truthful_inflict s b .conditionApply c target
  | conditionApplyRandom target => exact truthful_inflictRandom s b target
  | damageBonus amount => exact truthful_ofBonus b .damageBonus amount _ hsame
  | energyScalingDamage each energy source =>
    exact truthful_ofBonus b .energyScalingDamage _ _ hsame
  | conditionalDamage bonus c => exact truthful_conditionalDamage s b bonus c
  | benchScalingDamage each side filter => exact truthful_ofBonus b .benchScalingDamage _ _ hsame
  | heal amount target => exact truthful_heal b .heal target (some amount)
  | healFull target => exact truthful_heal b .healFull target none
  | energyAttach energy n target => exact truthful_attach b .energyAttach _ n target hroom
  | energyDiscard d => exact truthful_discard b .energyDiscard d
  | searchOrDraw flow =>
    refine .of_idle EffectStatus.noConfusion rfl rfl hsame ?_
    simp [apply, Application.searchOrDraw]
  | unparsed text =>
    refine .of_idle EffectStatus.noConfusion rfl rfl hsame ?_
    simp [apply, Application.unparsed]

/-! ## What a status tells -/

/-- What the status of an outcome tells of an effect that was carried out. -/
structure Effect.Told (e : Effect) (b : Board) (o : Outcome) (b' : Board) : Prop where
  /-- Applied is what changed the damage or the board, and a flip for no damage that came up. -/
  applied : o.status = .applied ↔ o.Changes b b' ∨ e.PromisesNothing b
  /-- What is not reported as applied changed nothing. -/
  otherwise : o.status ≠ .applied → o.bonus = 0 ∧ o.negates = false ∧ b.Alike b'
  /-- A flip for no damage changes nothing either. -/
  exception : e.PromisesNothing b → ¬ o.Changes b b'
  /-- Work is left exactly when the status says so. -/
  waiting : o.status = .deferred ∨ o.status = .needsManual ↔ o.pending ≠ []

/-- **What a status tells.**  With the built-in handlers, whatever the effect, the board and the
coins: an effect is reported as applied when it added damage, cancelled the attack or changed hit
points, energy or conditions, provided that no count of energy is full, and otherwise it changed
nothing of that; it is reported as deferred or as to be handled by hand when it left work to the
caller.  One effect is reported as applied without changing anything: a flip for a bonus of no
damage, when the coins come up as wanted. -/
theorem Registry.status_tells (s : Setting) (b : Board) (e : Effect)
    (hroom : (standard.execute s b e).1.HasRoom b) :
    e.Told b (standard.execute s b e).1 (standard.execute s b e).2 := by
  rw [execute_standard] at hroom ⊢
  by_cases h : e.PromisesNothing b
  · obtain ⟨hstatus, hnone, hpending⟩ :=
      Application.coinFlipConditional_of_promisesNothing s h
    exact ⟨⟨fun _ => .inr h, fun _ => hstatus⟩, fun hne => absurd hstatus hne, fun _ => hnone,
      by simp [hstatus, hpending]⟩
  · have htrue := e.truthful_apply s b hroom h
    refine ⟨by rw [htrue.applied]; simp [h], fun hne => ?_, fun hp => absurd hp h, htrue.waiting⟩
    -- had anything changed, the status would say applied
    have hnone : ¬ (e.apply s b).1.Changes b (e.apply s b).2 := fun hc => hne (htrue.applied.2 hc)
    simp only [Outcome.Changes, not_or, UInt32.pos_iff_ne_zero, Classical.not_not] at hnone
    obtain ⟨hbonus, hnegates, hboard⟩ := hnone
    exact ⟨hbonus, Bool.eq_false_iff.2 hnegates, hboard⟩

namespace Registry

/-- A turn in which no attack is used. -/
def idleTurn : Setting := { config := .standard, turn := 1 }

/-- The board of two Pokémon without energy, with a coin that comes up heads. -/
def headsBoard : Board where
  attacker := .new "Charmander" .fire 100
  defender := some (.new "Eevee" .fire 100)
  coins := .ofSeed 2

/-- Two units attached are reported as applied, and can be seen. -/
theorem told_attach :
    (standard.execute idleTurn headsBoard (.energyAttach (.named .fire) 2 .this)).1.Changes
      headsBoard (standard.execute idleTurn headsBoard (.energyAttach (.named .fire) 2 .this)).2
      := by
  have hchanges : (standard.execute idleTurn headsBoard
      (.energyAttach (.named .fire) 2 .this)).1.energyChanges
      = [⟨.gain, .fire, 2, .attacker, true⟩] := by decide
  have hroom : (standard.execute idleTurn headsBoard
      (.energyAttach (.named .fire) 2 .this)).1.HasRoom headsBoard := by
    intro t
    rw [hchanges]
    cases t <;> decide
  have htold := status_tells idleTurn headsBoard (.energyAttach (.named .fire) 2 .this) hroom
  exact (htold.applied.1 (by decide)).resolve_right id

/-- The flip for no damage is reported as applied on heads, where nothing changed, though no count
of energy is full. -/
theorem applied_without_change :
    (standard.execute idleTurn headsBoard
        (.coinFlipConditional 1 .heads (.bonusDamage 0))).1.HasRoom headsBoard
      ∧ ¬ ((standard.execute idleTurn headsBoard
            (.coinFlipConditional 1 .heads (.bonusDamage 0))).1.status = .applied
          ↔ (standard.execute idleTurn headsBoard
              (.coinFlipConditional 1 .heads (.bonusDamage 0))).1.Changes headsBoard
            (standard.execute idleTurn headsBoard
              (.coinFlipConditional 1 .heads (.bonusDamage 0))).2) := by
  have hheads : (Effect.coinFlipConditional 1 .heads (.bonusDamage 0)).PromisesNothing headsBoard :=
    ⟨rfl, by decide +kernel⟩
  obtain ⟨hstatus, hnone, -⟩ :=
    Application.coinFlipConditional_of_promisesNothing idleTurn hheads
  have hchanges : (standard.execute idleTurn headsBoard
      (.coinFlipConditional 1 .heads (.bonusDamage 0))).1.energyChanges = [] := by decide +kernel
  refine ⟨fun t => ?_, ?_⟩
  · rw [hchanges]
    cases t <;> decide
  · rw [execute_standard]
    exact fun htrue => hnone (htrue.1 hstatus)

end Registry

end CardEffects
