/-
  CardEffects.Proofs.Ledger.Account

  The energy ledger of a text.  Between two boards the changes reported account for the energy
  of both active Pokémon, type by type; what waits for the caller is reported as not applied
  and listed as pending; the energy on the benches stays as it is.

    * `Ledger` — the account, of an effect or of a whole text; `Ledger.trans` joins two.
    * `Effect.ledger_apply` — every effect keeps its account, whatever board it meets.
    * `Engine.Resolves.ledger` — so does every text, attack and ability.
-/
import CardEffects.Proofs.Ledger.Pool
import CardEffects.Proofs.Plan.Ranking
import CardEffects.Proofs.Reading.Search
import CardEffects.Proofs.Run

namespace CardEffects

/-! ## What the changes say -/

/-- The units of one type in the changes that pass a test. -/
def unitsIn (test : EnergyChange → Bool) (cs : List EnergyChange) (t : Energy) : Nat :=
  Word.sum ((cs.filter fun c => test c && c.energy == t).map fun c => c.amount)

/-- The units of a type attached to the acting Pokémon. -/
def gained : List EnergyChange → Energy → Nat :=
  unitsIn fun c => c.direction == .gain && c.applied && c.target == .attacker

/-- The units of a type discarded from a participant. -/
def lost (who : Participant) : List EnergyChange → Energy → Nat :=
  unitsIn fun c => c.direction == .loss && c.target == who

/-- The gains that are not applied, in order. -/
def unplaced (cs : List EnergyChange) : List (Energy × Word) :=
  (cs.filter fun c => c.direction == .gain && !c.applied).map fun c => (c.energy, c.amount)

/-- The units a pending action leaves to be distributed. -/
def PendingAction.distribution? : PendingAction → Option (Energy × Word)
  | distributeEnergy energy amount _ => some (energy, amount)
  | draw _ => none
  | search _ => none
  | manualEffect _ => none

/-- The units left to be distributed, in order. -/
def distributions (ps : List PendingAction) : List (Energy × Word) :=
  ps.filterMap PendingAction.distribution?

theorem unitsIn_append (test : EnergyChange → Bool) (cs ds : List EnergyChange) (t : Energy) :
    unitsIn test (cs ++ ds) t = unitsIn test cs t + unitsIn test ds t := by
  simp [unitsIn]

theorem unplaced_append (cs ds : List EnergyChange) :
    unplaced (cs ++ ds) = unplaced cs ++ unplaced ds := by
  simp [unplaced]

theorem distributions_append (ps qs : List PendingAction) :
    distributions (ps ++ qs) = distributions ps ++ distributions qs := by
  simp [distributions]

/-- The losses a discard reports. -/
def losses (who : Participant) (us : List (Energy × Word)) : List EnergyChange :=
  us.map fun u => ⟨.loss, u.1, u.2, who, true⟩

theorem gained_losses (who : Participant) (us : List (Energy × Word)) (t : Energy) :
    gained (losses who us) t = 0 := by
  induction us with
  | nil => rfl
  | cons u us ih => simpa [gained, unitsIn, losses] using ih

theorem unplaced_losses (who : Participant) (us : List (Energy × Word)) :
    unplaced (losses who us) = [] := by
  induction us with
  | nil => rfl
  | cons u us ih => simpa [unplaced, losses] using ih

/-- A discard that leaves out the types without a unit reports all units. -/
theorem lost_losses (who : Participant) (us : List (Energy × Word)) (t : Energy) :
    lost who (losses who (us.filter fun u => u.2 ≠ 0)) t = EnergyPool.unitsOf us t := by
  induction us with
  | nil => rfl
  | cons u us ih =>
    rw [EnergyPool.unitsOf_cons, ← ih]
    by_cases hu : u.2 = 0
    · simp [hu]
    · by_cases ht : u.1 = t <;> simp [lost, unitsIn, losses, hu, ht]

theorem direction_of_mem_losses {who : Participant} {us : List (Energy × Word)}
    {c : EnergyChange} (h : c ∈ losses who us) : c.direction = .loss := by
  obtain ⟨u, -, rfl⟩ := List.mem_map.1 h
  rfl

theorem pos_of_mem_losses {who : Participant} {us : List (Energy × Word)} {c : EnergyChange}
    (h : c ∈ losses who (us.filter fun u => u.2 ≠ 0)) : 0 < c.amount.toNat := by
  obtain ⟨u, hu, rfl⟩ := List.mem_map.1 h
  have hne : u.2 ≠ 0 := by simpa using (List.mem_filter.1 hu).2
  exact Word.toNat_pos hne

theorem lost_losses_of_ne {who other : Participant} (h : who ≠ other)
    (us : List (Energy × Word)) (t : Energy) : lost other (losses who us) t = 0 := by
  induction us with
  | nil => rfl
  | cons u us ih => simpa [lost, unitsIn, losses, h] using ih

/-! ## One Pokémon -/

/-- From `m` to `m'` the given units came and went, where all that came fits in a count, and
the energy on the bench is the same. -/
structure Balanced (gains losses : Energy → Nat) (m m' : Combatant) : Prop where
  counts : ∀ t, (m.energy.count t).toNat + gains t ≤ Word.limit →
    (m'.energy.count t).toNat + losses t = (m.energy.count t).toNat + gains t
  bench : m'.bench.map (Option.map BenchOccupant.energy)
    = m.bench.map (Option.map BenchOccupant.energy)

theorem Balanced.of_eq {m m' : Combatant} (henergy : m'.energy = m.energy)
    (hbench : m'.bench.map (Option.map BenchOccupant.energy)
      = m.bench.map (Option.map BenchOccupant.energy)) :
    Balanced (fun _ => 0) (fun _ => 0) m m' :=
  ⟨fun t _ => by rw [henergy], hbench⟩

theorem Balanced.refl (m : Combatant) : Balanced (fun _ => 0) (fun _ => 0) m m := .of_eq rfl rfl

theorem Balanced.trans {g g' l l' : Energy → Nat} {m m' m'' : Combatant}
    (h : Balanced g l m m') (h' : Balanced g' l' m' m'') :
    Balanced (fun t => g t + g' t) (fun t => l t + l' t) m m'' := by
  refine ⟨fun t hfits => ?_, h'.bench.trans h.bench⟩
  -- the losses of the first only make room for the gains of the second
  have hfirst := h.counts t (by omega)
  have hsecond := h'.counts t (by omega)
  omega

theorem Balanced.congr {g g' l l' : Energy → Nat} {m m' : Combatant} (h : Balanced g l m m')
    (hg : ∀ t, g' t = g t) (hl : ∀ t, l' t = l t) : Balanced g' l' m m' := by
  obtain rfl : g' = g := funext hg
  obtain rfl : l' = l := funext hl
  exact h

/-! ## The ledger -/

/-- The changes and the pending actions reported account for what happened between two boards:
no gain or loss of the acting Pokémon and no loss of the defender is left out, each change is of
some units, a gain is with the acting Pokémon or waits as a pending action, and the benches
keep their energy. -/
structure Ledger (b : Board) (cs : List EnergyChange) (ps : List PendingAction) (b' : Board) :
    Prop where
  attacker : Balanced (gained cs) (lost .attacker cs) b.attacker b'.attacker
  defender : Option.Rel (Balanced (fun _ => 0) (lost .defender cs)) b.defender b'.defender
  positive : ∀ c ∈ cs, 0 < c.amount.toNat
  target : ∀ c ∈ cs, c.direction = .gain →
    c.target = if c.applied then .attacker else .bench
  waiting : unplaced cs = distributions ps

namespace Ledger

variable {b b' b'' : Board} {cs ds : List EnergyChange} {ps qs : List PendingAction}

private theorem rel_refl {o : Option Combatant} :
    Option.Rel (Balanced (fun _ => 0) (fun _ => 0)) o o := by
  cases o with
  | none => exact .none
  | some d => exact .some (.refl d)

/-- Without changes, an effect keeps its account when it leaves all energy alone. -/
theorem of_nil (hattacker : Balanced (fun _ => 0) (fun _ => 0) b.attacker b'.attacker)
    (hdefender : Option.Rel (Balanced (fun _ => 0) (fun _ => 0)) b.defender b'.defender)
    (hps : distributions ps = []) : Ledger b [] ps b' where
  attacker := hattacker
  defender := hdefender
  positive := by simp
  target := by simp
  waiting := hps.symm

theorem refl (b : Board) (hps : distributions ps = []) : Ledger b [] ps b :=
  of_nil (.refl _) rel_refl hps

/-- The account of an effect that leaves both sides alone. -/
theorem of_same (hattacker : b'.attacker = b.attacker) (hdefender : b'.defender = b.defender)
    (hps : distributions ps = []) : Ledger b [] ps b' := by
  refine of_nil ?_ ?_ hps
  · rw [hattacker]
    exact .refl _
  · rw [hdefender]
    exact rel_refl

/-- The accounts of two effects, the second after the first, are one. -/
theorem trans (h : Ledger b cs ps b') (h' : Ledger b' ds qs b'') :
    Ledger b (cs ++ ds) (ps ++ qs) b'' where
  attacker := (h.attacker.trans h'.attacker).congr (unitsIn_append _ cs ds)
    (unitsIn_append _ cs ds)
  defender := by
    -- a defender stays there throughout, or there is none throughout
    have hd := h.defender
    have hd' := h'.defender
    generalize b.defender = o at hd
    generalize b'.defender = o' at hd hd'
    generalize b''.defender = o'' at hd'
    cases hd with
    | none => cases hd' with | none => exact .none
    | some h₁ =>
      cases hd' with
      | some h₂ => exact .some ((h₁.trans h₂).congr (fun _ => rfl) (unitsIn_append _ cs ds))
  positive := by
    intro c hc
    rcases List.mem_append.1 hc with hc | hc
    · exact h.positive c hc
    · exact h'.positive c hc
  target := by
    intro c hc
    rcases List.mem_append.1 hc with hc | hc
    · exact h.target c hc
    · exact h'.target c hc
  waiting := by rw [unplaced_append, distributions_append, h.waiting, h'.waiting]

/-- A discard reports what it took from one side, and nothing else. -/
theorem of_losses {d : EnergyDiscard} {m : Combatant} {left : EnergyPool}
    {us : List (Energy × Word)} (hm : b.active? d.source = some m)
    (hcount : ∀ t, (left.count t).toNat + EnergyPool.unitsOf us t = (m.energy.count t).toNat) :
    Ledger b (losses d.source.participant (us.filter fun u => u.2 ≠ 0)) []
      (b.put d.source { m with energy := left }) := by
  have hbal : Balanced (fun _ => 0) (lost d.source.participant
      (losses d.source.participant (us.filter fun u => u.2 ≠ 0))) m { m with energy := left } := by
    refine ⟨fun t _ => ?_, rfl⟩
    rw [lost_losses]
    exact hcount t
  have hgain : ∀ {who : Participant}, ∀ c ∈ losses who (us.filter fun u => u.2 ≠ 0),
      c.direction = .gain → c.target = if c.applied then .attacker else .bench := by
    intro who c hc hgain
    rw [direction_of_mem_losses hc] at hgain
    cases hgain
  -- the side that is discarded from changes, and the other has no losses
  cases hsource : d.source with
  | own =>
    rw [hsource] at hm hbal
    obtain rfl := Option.some.inj hm
    refine ⟨hbal.congr (gained_losses _ _) fun _ => rfl, ?_, fun _ hc => pos_of_mem_losses hc,
      hgain, unplaced_losses _ _⟩
    have hnone : lost .defender (losses .attacker (us.filter fun u => u.2 ≠ 0))
        = fun _ => 0 := funext (lost_losses_of_ne (by decide) _)
    show Option.Rel (Balanced _ (lost .defender (losses .attacker _))) b.defender b.defender
    rw [hnone]
    exact rel_refl
  | opponent =>
    rw [hsource] at hm hbal
    refine ⟨(Balanced.refl _).congr (gained_losses _ _) (lost_losses_of_ne (by decide) _), ?_,
      fun _ hc => pos_of_mem_losses hc, hgain, unplaced_losses _ _⟩
    show Option.Rel _ b.defender (some _)
    rw [show b.defender = some m from hm]
    exact .some hbal

/-- Coins are not in the ledger. -/
theorem of_coins {coins : Coins} (h : Ledger { b with coins } cs ps b') : Ledger b cs ps b' :=
  ⟨h.attacker, h.defender, h.positive, h.target, h.waiting⟩

theorem to_coins (coins : Coins) (h : Ledger b cs ps b') : Ledger b cs ps { b' with coins } :=
  ⟨h.attacker, h.defender, h.positive, h.target, h.waiting⟩

end Ledger

/-! ## Effects that leave energy alone -/

namespace Application

open Ledger

variable {b : Board}

/-- Putting a Pokémon with the energy it had in its own place. -/
theorem ledger_put {side : Side} {m m' : Combatant} {ps : List PendingAction}
    (hm : b.active? side = some m) (henergy : m'.energy = m.energy) (hbench : m'.bench = m.bench)
    (hps : distributions ps = []) : Ledger b [] ps (b.put side m') := by
  have hbal : Balanced (fun _ => 0) (fun _ => 0) m m' := .of_eq henergy (by rw [hbench])
  cases side with
  | own =>
    obtain rfl := Option.some.inj hm
    exact of_nil hbal rel_refl hps
  | opponent =>
    refine of_nil (.refl _) ?_ hps
    show Option.Rel _ b.defender (some m')
    rw [show b.defender = some m from hm]
    exact .some hbal

theorem ledger_inflict (s : Setting) (b : Board) (kind : EffectKind) (c : Condition)
    (target : ConditionTarget) :
    Ledger b (inflict s b kind c target).1.energyChanges (inflict s b kind c target).1.pending
      (inflict s b kind c target).2 := by
  unfold inflict
  split
  · exact .refl b rfl
  next m hm =>
    dsimp only
    split <;> exact ledger_put hm rfl rfl rfl

theorem ledger_inflictRandom (s : Setting) (b : Board) (target : ConditionTarget) :
    Ledger b (inflictRandom s b target).1.energyChanges (inflictRandom s b target).1.pending
      (inflictRandom s b target).2 := by
  unfold inflictRandom
  split
  · exact .refl b rfl
  next m hm =>
    split
    next c m' coins h =>
      -- whichever condition is picked, it is recorded beside the others
      have hm' : m'.energy = m.energy ∧ m'.bench = m.bench := by
        unfold Combatant.inflictRandom at h
        dsimp only at h
        split at h
        · cases h
          exact ⟨rfl, rfl⟩
        · cases h
      exact (ledger_put hm hm'.1 hm'.2 rfl).to_coins coins
    · exact .refl b rfl

theorem ledger_heal (b : Board) (kind : EffectKind) (target : HealTarget)
    (amount : Option Word) :
    Ledger b (heal b kind target amount).1.energyChanges (heal b kind target amount).1.pending
      (heal b kind target amount).2 := by
  have hhealed : Balanced (fun _ => 0) (fun _ => 0) b.attacker
      (b.attacker.healTarget target amount).2 := by
    cases target with
    | this => exact .of_eq rfl rfl
    | anyOwn => exact .of_eq rfl rfl
    | eachOwn =>
      refine .of_eq rfl ?_
      -- healing an occupant changes hit points only
      simp only [Combatant.healTarget, Combatant.healBench, Combatant.heal, List.map_map]
      refine List.map_congr_left fun o _ => ?_
      cases o <;> rfl
  unfold heal
  dsimp only
  split <;> exact of_nil hhealed rel_refl rfl

/-! ## Effects that move energy -/

theorem ledger_attach (b : Board) (kind : EffectKind) (energy : Energy) (units : Word)
    (target : EnergyTarget) :
    Ledger b (attach b kind energy units target).1.energyChanges
      (attach b kind energy units target).1.pending (attach b kind energy units target).2 := by
  unfold attach
  split
  · exact .refl b rfl
  next hunits =>
    have hpos := Word.toNat_pos hunits
    split
    next =>
      -- attached here, and counted as far as it fits
      refine ⟨⟨fun t hfits => ?_, rfl⟩, rel_refl, by simpa using hpos, by simp, rfl⟩
      show ((b.attacker.energy.attach energy units).count t).toNat + 0 = _
      rw [EnergyPool.count_attach]
      by_cases ht : t = energy
      · subst ht
        simp [gained, unitsIn] at hfits ⊢
        omega
      · simp [gained, unitsIn, Ne.symm ht, ht]
    next =>
      -- left pending, and no pool is touched
      exact ⟨⟨fun t _ => rfl, rfl⟩, rel_refl, by simpa using hpos, by simp, rfl⟩

theorem ledger_discard (b : Board) (kind : EffectKind) (d : EnergyDiscard) :
    Ledger b (discard b kind d).1.energyChanges (discard b kind d).1.pending
      (discard b kind d).2 := by
  unfold discard
  split
  · exact .refl b rfl
  next m hm =>
    have hcount := m.energy.count_discardBy b.coins d
    generalize m.energy.discardBy b.coins d = r at hcount
    obtain ⟨us, left, coins⟩ := r
    dsimp only at hcount ⊢
    have hledger := (of_losses hm hcount).to_coins coins
    -- a discard that finds nothing is reported as such, but its account is the same
    split
    next hnone =>
      rw [hnone] at hledger
      exact hledger
    next => exact hledger

/-! ## Effects that flip coins -/

theorem ledger_consequence (s : Setting) (b : Board) (note : String) (c : FlipConsequence) :
    Ledger b (consequence s b note c).1.energyChanges (consequence s b note c).1.pending
      (consequence s b note c).2 := by
  cases c with
  | bonusDamage amount => exact .refl b rfl
  | attackFails => exact .refl b rfl
  | condition c target => exact ledger_inflict s b .coinFlipConditional c target
  | heal amount => exact ledger_heal b .coinFlipConditional .this (some amount)
  | discard d => exact ledger_discard b .coinFlipConditional d

theorem ledger_coinFlipConditional (s : Setting) (b : Board) (coins : Word) (wanted : CoinFace)
    (c : FlipConsequence) :
    Ledger b (coinFlipConditional s b coins wanted c).1.energyChanges
      (coinFlipConditional s b coins wanted c).1.pending
      (coinFlipConditional s b coins wanted c).2 := by
  unfold coinFlipConditional
  dsimp only
  split
  · exact (ledger_consequence s _ _ c).of_coins
  · exact .of_same rfl rfl rfl

theorem ledger_coinFlipEnergy (s : Setting) (b : Board) (coins : CoinCount) (perHeads : Word)
    (energy : EnergySpec) (target : EnergyTarget) :
    Ledger b (coinFlipEnergy s b coins perHeads energy target).1.energyChanges
      (coinFlipEnergy s b coins perHeads energy target).1.pending
      (coinFlipEnergy s b coins perHeads energy target).2 :=
  (ledger_attach (b.flip s coins).2 .coinFlipEnergy _ _ target).of_coins

end Application

/-! ## Texts -/

open Application in
/-- Whatever an effect does to a board, the changes it reports account for it. -/
theorem Effect.ledger_apply (s : Setting) (b : Board) (e : Effect) :
    Ledger b (e.apply s b).1.energyChanges (e.apply s b).1.pending (e.apply s b).2 := by
  cases e with
  | coinFlipDamage coins perHeads => exact .of_same rfl rfl rfl
  | coinFlipEnergy coins perHeads energy target =>
    exact ledger_coinFlipEnergy s b coins perHeads energy target
  | coinFlipConditional coins wanted c => exact ledger_coinFlipConditional s b coins wanted c
  | conditionApply c target => exact ledger_inflict s b .conditionApply c target
  | conditionApplyRandom target => exact ledger_inflictRandom s b target
  | damageBonus amount => exact .refl b rfl
  | energyScalingDamage each energy source => exact .refl b rfl
  | conditionalDamage bonus c =>
    simp only [apply, Application.conditionalDamage]
    split <;> exact .refl b rfl
  | benchScalingDamage each side filter => exact .refl b rfl
  | heal amount target => exact ledger_heal b .heal target (some amount)
  | healFull target => exact ledger_heal b .healFull target none
  | energyAttach energy n target => exact ledger_attach b .energyAttach _ n target
  | energyDiscard d => exact ledger_discard b .energyDiscard d
  | searchOrDraw flow => cases flow <;> exact .refl b rfl
  | unparsed text => exact .refl b rfl

/-- A step carries the account on. -/
theorem Registry.ledger_step {s : Setting} {b b' : Board} {r : Resolution}
    (h : Ledger b r.energyChanges r.pending b') (e : Effect) :
    Ledger b (standard.step s r b' e).1.energyChanges (standard.step s r b' e).1.pending
      (standard.step s r b' e).2 := by
  cases hneg : r.negated with
  | true =>
    rw [step_of_negated standard s b' e hneg]
    exact h
  | false =>
    rw [step_of_not_negated s b' e hneg]
    exact h.trans (e.ledger_apply s b')

theorem Registry.ledger_run (s : Setting) (b : Board) (base : Word) (es : List Effect) :
    Ledger b (standard.run s b base es).1.energyChanges (standard.run s b base es).1.pending
      (standard.run s b base es).2 :=
  runFrom_induction (P := fun r b' => Ledger b r.energyChanges r.pending b') (.refl b rfl)
    fun e _ _ _ h => ledger_step h e

namespace Engine

theorem ledger_run (c : Config) (turn : Word) (attack : Option Attack) (b : Board)
    (text : String) (base : Word) :
    Ledger b ((ofConfig c).run turn attack b text base).1.energyChanges
      ((ofConfig c).run turn attack b text base).1.pending
      ((ofConfig c).run turn attack b text base).2 := by
  have h : Ledger b (effectsOf c turn attack b text base).1.energyChanges
      (effectsOf c turn attack b text base).1.pending
      (effectsOf c turn attack b text base).2 := Registry.ledger_run _ b base _
  obtain ⟨-, hchanges, hpending⟩ := run_fst c turn attack b text base
  rw [hchanges, hpending]
  rcases run_snd c turn attack b text base with hsame | ⟨d, hp, hd, -, hdealt⟩
  · rw [hsame]
    exact h
  · -- damage changes hit points, which are not in the ledger
    rw [hdealt]
    generalize effectsOf c turn attack b text base = out at h hd ⊢
    have hafter : Ledger out.2 [] [] { out.2 with defender := some { d with hp } } := by
      refine .of_nil (.refl _) ?_ rfl
      rw [hd]
      exact .some (.of_eq rfl rfl)
    have hboth := h.trans hafter
    rw [List.append_nil, List.append_nil] at hboth
    exact hboth

/-- **The energy ledger.**  For any text, attack or ability carried out with the built-in
handlers, whatever the settings, the coins and the board, the changes in the resolution account
for the energy: the acting Pokémon has what it had, with the gains applied to it and without its
losses, of every type whose gains fit in a count; the defender has what it had without its
losses.  Every change is of some units; the gains not applied are for the bench and stand, in
order, for the distributions pending; and no Pokémon on a bench has its energy changed. -/
theorem Resolves.ledger {c : Config} {turn : Word} {b : Board} {text : String} {r : Resolution}
    {b' : Board} (h : (ofConfig c).Resolves turn b text (r, b')) :
    Ledger b r.energyChanges r.pending b' := by
  rcases h.cases with hstop | ⟨coins, attack, base, hrun⟩
  · -- an attack that is stopped moves no energy
    obtain ⟨coins, hboard⟩ := hstop.board
    obtain rfl : b' = { b with coins } := hboard
    rw [show r.energyChanges = [] from hstop.energyChanges,
      show r.pending = [] from hstop.pending]
    exact .of_same rfl rfl rfl
  · have hledger := ledger_run c turn attack { b with coins } text base
    rw [hrun] at hledger
    exact hledger.of_coins

/-! ### A unit discarded for two taken -/

/-- One unit lost, and two gained. -/
def exchangeText : String :=
  "Discard a \x7bR\x7d Energy from this Pokémon. Take 2 \x7bR\x7d Energy from your Energy Zone and attach it to this Pokémon."

/-- A board where the acting Pokémon has one unit. -/
def exchangeBoard : Board where
  attacker := { Combatant.new "Charmander" .fire 100 with energy := .ofUnits [(.fire, 1)] }
  defender := some (.new "Eevee" .fire 100)
  coins := .ofSeed 0

theorem kept_exchangeText : (Plan.ofText exchangeText).kept
    = [.energyDiscard ⟨some .fire, .count 1, .own⟩, .energyAttach (.named .fire) 2 .this] := by
  have heffects : (Reading.ofText exchangeText).effects
      = [.energyAttach (.named .fire) 2 .this, .energyDiscard ⟨some .fire, .count 1, .own⟩] := by
    refine Clause.effects_ofText (by decide) ?_
    rw [exchangeText, String.toList_ofList]
    decide
  rw [Plan.ofText, heffects, Plan.ofEffects, Plan.inOrder_eq_ranked]
  decide

theorem energyChanges_exchangeText :
    ((ofConfig .standard).resolveText 1 exchangeBoard exchangeText 0).1.energyChanges
      = [⟨.loss, .fire, 1, .attacker, true⟩, ⟨.gain, .fire, 2, .attacker, true⟩] := by
  obtain ⟨-, hchanges, -⟩ := run_fst .standard 1 none exchangeBoard exchangeText 0
  refine hchanges.trans ?_
  rw [effectsOf, kept_exchangeText]
  decide

/-- Two units are there afterwards. -/
theorem ledger_exchangeText :
    (((ofConfig .standard).resolveText 1 exchangeBoard exchangeText 0).2.attacker.energy.count
      .fire).toNat = 2 := by
  have hledger : Ledger exchangeBoard
      ((ofConfig .standard).resolveText 1 exchangeBoard exchangeText 0).1.energyChanges
      ((ofConfig .standard).resolveText 1 exchangeBoard exchangeText 0).1.pending
      ((ofConfig .standard).resolveText 1 exchangeBoard exchangeText 0).2 :=
    Resolves.ledger (.text 0 (Prod.eta _).symm)
  rw [energyChanges_exchangeText] at hledger
  -- one unit before, one lost and two gained
  have hgained : gained [⟨.loss, .fire, 1, .attacker, true⟩, ⟨.gain, .fire, 2, .attacker, true⟩]
      .fire = 2 := by decide
  have hlost : lost .attacker
      [⟨.loss, .fire, 1, .attacker, true⟩, ⟨.gain, .fire, 2, .attacker, true⟩] .fire = 1 := by
    decide
  have hbefore : (exchangeBoard.attacker.energy.count .fire).toNat = 1 := by decide
  have hcounts := hledger.attacker.counts .fire
    (by rw [hgained, hbefore]; decide)
  rw [hgained, hlost, hbefore] at hcounts
  omega

end Engine

end CardEffects
