/-
  CardEffects.Proofs.FlipCounts

  How many coins an effect flips, and what it makes of them.  An effect that flips coins leaves
  one record: the next coins of the board, as many as its count comes to on the board that it
  meets, with the heads among them.  Damage and energy are so much for each heads, as far as a
  word holds; a consequence comes about when all coins show the wanted face, and does what the
  effect of that meaning does by itself.

    * `Coins.flipsUntilTails_shape` — heads up to the first tails, or up to the cap.
    * `CoinCount.Flipped` — flips of a count on a board, and `CoinCount.flipped_flip`.
    * `Outcome.Recorded` — the one record of an outcome.
    * `FlipConsequence.carriedOut` — a consequence as an effect of its own.
    * `Effect.Counts` — what each kind of effect makes of its coins, and `Effect.counts_apply`.
    * `Registry.counts_run` — so does every effect of a run, on the board it meets.
-/
import CardEffects.Proofs.Replay.Flips

namespace CardEffects

/-! ## Shapes of flips -/

/-- Flips until tails are heads and then one tails, or as many heads as are allowed. -/
theorem Coins.flipsUntilTails_shape (c : Coins) (cap : Nat) :
    (∃ h < cap, (c.flipsUntilTails cap).1 = List.replicate h true ++ [false])
      ∨ (c.flipsUntilTails cap).1 = List.replicate cap true := by
  have hlength := c.length_flips cap
  rw [flipsUntilTails_eq]
  rcases upToTails_cases (c.flips cap).1 with ⟨h, rest, hflips, htails⟩ | ⟨hflips, hall⟩
  · refine .inl ⟨h, ?_, htails⟩
    rw [hflips, List.length_append, List.length_replicate, List.length_cons] at hlength
    omega
  · rw [hlength] at hflips
    exact .inr (hall.trans hflips)

/-- Flips that a count comes to on a board. -/
def CoinCount.Flipped (s : Setting) (b : Board) (count : CoinCount) (flips : List Bool) : Prop :=
  match count with
  | .untilTails =>
    (∃ h < s.config.maxFlips.toNat, flips = List.replicate h true ++ [false])
      ∨ flips = List.replicate s.config.maxFlips.toNat true
  | count => flips.length = (b.coinTotal s count).toNat

namespace CoinCount

variable {s : Setting} {b : Board} {count : CoinCount}

theorem flipped_flip (s : Setting) (b : Board) (count : CoinCount) :
    count.Flipped s b (b.flip s count).1 := by
  cases count with
  | untilTails => exact b.coins.flipsUntilTails_shape _
  | fixed n => exact b.coins.length_flips _
  | perPokemonInPlay => exact b.coins.length_flips _
  | perBenchOccupant side => exact b.coins.length_flips _
  | perEnergyAttached e => exact b.coins.length_flips _

/-- There are never more flips than a word can count. -/
theorem Flipped.length_le {flips : List Bool} (h : count.Flipped s b flips) :
    flips.length ≤ Word.limit := by
  have hcap := Word.toNat_le_limit (b.coinTotal s count)
  cases count with
  | untilTails =>
    -- the coin total is the cap, and heads are fewer when a tails ends them
    change s.config.maxFlips.toNat ≤ Word.limit at hcap
    rcases h with ⟨h, hlt, rfl⟩ | rfl
    · rw [List.length_append, List.length_replicate, List.length_singleton]
      omega
    · rw [List.length_replicate]
      exact hcap
  | fixed n => exact Nat.le_trans (Nat.le_of_eq h) hcap
  | perPokemonInPlay => exact Nat.le_trans (Nat.le_of_eq h) hcap
  | perBenchOccupant side => exact Nat.le_trans (Nat.le_of_eq h) hcap
  | perEnergyAttached e => exact Nat.le_trans (Nat.le_of_eq h) hcap

end CoinCount

/-! ## Records -/

/-- An outcome has one record: the next coins of the board, with the heads among them. -/
structure Outcome.Recorded (o : Outcome) (b : Board) (kind : EffectKind) (flips : List Bool) :
    Prop where
  record : ∃ heads : Word, heads.toNat = flips.count true ∧ o.flips = [⟨kind, flips, heads⟩]
  next : (b.coins.flips flips.length).1 = flips

theorem Outcome.recorded_of_gives {o : Outcome} {b : Board} {kind : EffectKind}
    {flips : List Bool} {left : Coins} (hflips : o.flips = [.ofFlips kind flips])
    (hlength : flips.length ≤ Word.limit) (hgives : b.coins.Gives flips left) :
    o.Recorded b kind flips :=
  ⟨⟨Coins.headsCount flips, Coins.toNat_headsCount hlength, hflips⟩, congrArg Prod.fst hgives⟩

/-! ## Consequences -/

/-- Two outcomes tell of the same deeds on the same board: they may differ in what they say of
coins, in their notes, and in their kind and status. -/
structure Outcome.SameDeeds (out out' : Outcome × Board) : Prop where
  bonus : out.1.bonus = out'.1.bonus
  negates : out.1.negates = out'.1.negates
  conditionChanges : out.1.conditionChanges = out'.1.conditionChanges
  energyChanges : out.1.energyChanges = out'.1.energyChanges
  healed : out.1.healed = out'.1.healed
  pending : out.1.pending = out'.1.pending
  board : out.2 = out'.2

/-- Flips and notes added to an outcome leave its deeds alone. -/
theorem Outcome.SameDeeds.noted {out out' : Outcome × Board} (h : SameDeeds out out')
    (flips : List FlipRecord) (notes : List String) :
    SameDeeds ({ out.1 with flips, notes }, out.2) out' :=
  ⟨h.bonus, h.negates, h.conditionChanges, h.energyChanges, h.healed, h.pending, h.board⟩

/-- What a consequence does: what the effect of that meaning does by itself, or the attack is
cancelled. -/
def FlipConsequence.carriedOut (s : Setting) (b : Board) : FlipConsequence → Outcome × Board
  | bonusDamage amount => (Effect.damageBonus amount).apply s b
  | attackFails => ({ kind := .coinFlipConditional, status := .applied, negates := true }, b)
  | condition c target => (Effect.conditionApply c target).apply s b
  | heal amount => (Effect.heal amount .this).apply s b
  | discard d => (Effect.energyDiscard d).apply s b

namespace Application

variable (s : Setting) (b : Board)

theorem sameDeeds_inflict (kind kind' : EffectKind) (c : Condition) (target : ConditionTarget) :
    Outcome.SameDeeds (inflict s b kind c target) (inflict s b kind' c target) := by
  unfold inflict
  split
  · exact ⟨rfl, rfl, rfl, rfl, rfl, rfl, rfl⟩
  · dsimp only
    split <;> exact ⟨rfl, rfl, rfl, rfl, rfl, rfl, rfl⟩

theorem sameDeeds_heal (kind kind' : EffectKind) (target : HealTarget) (amount : Option Word) :
    Outcome.SameDeeds (heal b kind target amount) (heal b kind' target amount) := by
  unfold heal
  dsimp only
  split <;> exact ⟨rfl, rfl, rfl, rfl, rfl, rfl, rfl⟩

theorem sameDeeds_discard (kind kind' : EffectKind) (d : EnergyDiscard) :
    Outcome.SameDeeds (discard b kind d) (discard b kind' d) := by
  unfold discard
  split
  · exact ⟨rfl, rfl, rfl, rfl, rfl, rfl, rfl⟩
  · dsimp only
    split <;> exact ⟨rfl, rfl, rfl, rfl, rfl, rfl, rfl⟩

/-- A consequence does what the effect of that meaning does. -/
theorem sameDeeds_consequence (note : String) (c : FlipConsequence) :
    Outcome.SameDeeds (consequence s b note c) (c.carriedOut s b) := by
  cases c with
  | bonusDamage amount => exact ⟨rfl, rfl, rfl, rfl, rfl, rfl, rfl⟩
  | attackFails => exact ⟨rfl, rfl, rfl, rfl, rfl, rfl, rfl⟩
  | condition c target =>
    exact (sameDeeds_inflict s b .coinFlipConditional .conditionApply c target).noted _ _
  | heal amount =>
    exact (sameDeeds_heal b .coinFlipConditional .heal .this (some amount)).noted _ _
  | discard d => exact (sameDeeds_discard b .coinFlipConditional .energyDiscard d).noted _ _

/-- Which flips show the wanted face. -/
theorem allShow_iff (wanted : CoinFace) (flips : List Bool) :
    allShow wanted flips = true ↔ ∀ heads ∈ flips, heads = true ↔ wanted = .heads := by
  rw [allShow, List.all_eq_true]
  refine forall₂_congr fun heads _ => ?_
  cases heads <;> cases wanted <;> decide

end Application

/-! ## Effects -/

/-- Whether an effect flips coins. -/
def Effect.flipsCoins : Effect → Bool
  | coinFlipDamage .. | coinFlipEnergy .. | coinFlipConditional .. => true
  | _ => false

/-- What an effect makes of its coins. -/
inductive Effect.Counts (s : Setting) (b : Board) : Effect → Outcome × Board → Prop where
  /-- Damage for each heads, as far as it fits. -/
  | damage {coins : CoinCount} {perHeads : Word} {out : Outcome × Board} (flips : List Bool)
      (recorded : out.1.Recorded b .coinFlipDamage flips) (total : coins.Flipped s b flips)
      (bonus : out.1.bonus.toNat = min (flips.count true * perHeads.toNat) Word.limit)
      (most : out.1.bonus.toNat ≤ flips.length * perHeads.toNat) :
      Counts s b (.coinFlipDamage coins perHeads) out
  /-- Energy for each heads, as far as it fits, in one change; or none. -/
  | energy {coins : CoinCount} {perHeads : Word} {energy : EnergySpec} {target : EnergyTarget}
      {out : Outcome × Board} (flips : List Bool) (units : Word)
      (recorded : out.1.Recorded b .coinFlipEnergy flips) (total : coins.Flipped s b flips)
      (count : units.toNat = min (flips.count true * perHeads.toNat) Word.limit)
      (changes : out.1.energyChanges =
        if units = 0 then []
        else if target = .this then
          [⟨.gain, Application.energyOf b energy, units, .attacker, true⟩]
        else [⟨.gain, Application.energyOf b energy, units, .bench, false⟩]) :
      Counts s b (.coinFlipEnergy coins perHeads energy target) out
  /-- A consequence when all coins show the wanted face, and nothing otherwise. -/
  | conditional {coins : Word} {wanted : CoinFace} {c : FlipConsequence} {out : Outcome × Board}
      (flips : List Bool) (recorded : out.1.Recorded b .coinFlipConditional flips)
      (total : flips.length = max coins.toNat 1)
      (shown : (∀ heads ∈ flips, heads = true ↔ wanted = .heads) →
        Outcome.SameDeeds out
          (c.carriedOut s { b with coins := (b.coins.flips flips.length).2 }))
      (missed : (¬ ∀ heads ∈ flips, heads = true ↔ wanted = .heads) →
        Outcome.SameDeeds out ({ kind := .coinFlipConditional, status := .noEffect },
          { b with coins := (b.coins.flips flips.length).2 })) :
      Counts s b (.coinFlipConditional coins wanted c) out
  /-- All other effects record no flips. -/
  | other {e : Effect} {out : Outcome × Board} (flipless : e.flipsCoins = false)
      (unrecorded : out.1.flips = []) : Counts s b e out

/-- The records that an effect leaves are one, or none. -/
theorem Effect.Counts.kinds {s : Setting} {b : Board} {e : Effect} {out : Outcome × Board}
    (h : e.Counts s b out) :
    out.1.flips.map FlipRecord.kind = ([e].filter flipsCoins).map Effect.kind := by
  cases h with
  | damage flips recorded | energy flips units recorded | conditional flips recorded =>
    obtain ⟨heads, -, hflips⟩ := recorded.record
    rw [hflips]
    rfl
  | other flipless unrecorded =>
    rw [unrecorded, List.filter_cons_of_neg (by rw [flipless]; decide)]
    rfl

namespace Application

variable (s : Setting) (b : Board)

theorem flips_inflictRandom (target : ConditionTarget) :
    (inflictRandom s b target).1.flips = [] := by
  unfold inflictRandom
  split
  · rfl
  · split <;> rfl

theorem flips_discard (kind : EffectKind) (d : EnergyDiscard) :
    (discard b kind d).1.flips = [] := by
  unfold discard
  split
  · rfl
  · dsimp only
    split <;> rfl

theorem counts_coinFlipDamage (coins : CoinCount) (perHeads : Word) :
    (Effect.coinFlipDamage coins perHeads).Counts s b (coinFlipDamage s b coins perHeads) := by
  have hflipped := CoinCount.flipped_flip s b coins
  have hheads := Coins.toNat_headsCount hflipped.length_le
  have hbonus : (Word.mul (Coins.headsCount (b.flip s coins).1) perHeads).toNat
      = min ((b.flip s coins).1.count true * perHeads.toNat) Word.limit := by
    rw [Word.toNat_mul, hheads]
  refine .damage (b.flip s coins).1 ?_ hflipped hbonus ?_
  · exact Outcome.recorded_of_gives rfl hflipped.length_le (b.gives_flip s coins)
  · -- no more heads than flips
    have hmost : (b.flip s coins).1.count true * perHeads.toNat
        ≤ (b.flip s coins).1.length * perHeads.toNat :=
      Nat.mul_le_mul_right _ List.count_le_length
    exact Nat.le_trans (Nat.le_of_eq hbonus) (Nat.le_trans (Nat.min_le_left _ _) hmost)

/-- What is attached is reported in one change. -/
theorem energyChanges_attach (kind : EffectKind) (energy : Energy) (units : Word)
    (target : EnergyTarget) :
    (attach b kind energy units target).1.energyChanges =
      if units = 0 then []
      else if target = .this then [⟨.gain, energy, units, .attacker, true⟩]
      else [⟨.gain, energy, units, .bench, false⟩] := by
  unfold attach
  split
  · rfl
  · split <;> rfl

theorem kind_attach (kind : EffectKind) (energy : Energy) (units : Word)
    (target : EnergyTarget) : (attach b kind energy units target).1.kind = kind := by
  unfold attach
  split
  · rfl
  · split <;> rfl

theorem counts_coinFlipEnergy (coins : CoinCount) (perHeads : Word) (energy : EnergySpec)
    (target : EnergyTarget) :
    (Effect.coinFlipEnergy coins perHeads energy target).Counts s b
      (coinFlipEnergy s b coins perHeads energy target) := by
  have hflipped := CoinCount.flipped_flip s b coins
  have hheads := Coins.toNat_headsCount hflipped.length_le
  -- the energy is attached after the flips, and flips no coin
  let units := Word.mul (Coins.headsCount (b.flip s coins).1) perHeads
  let attached := attach (b.flip s coins).2 .coinFlipEnergy (energyOf b energy) units target
  have hflips : (coinFlipEnergy s b coins perHeads energy target).1.flips
      = [.ofFlips .coinFlipEnergy (b.flip s coins).1] := by
    show attached.1.flips ++ [FlipRecord.ofFlips attached.1.kind (b.flip s coins).1] = _
    have hquiet := quiet_attach (b.flip s coins).2 .coinFlipEnergy (energyOf b energy) units target
    have hkind := kind_attach (b.flip s coins).2 .coinFlipEnergy (energyOf b energy) units target
    rw [hquiet.flips, hkind, List.nil_append]
  refine .energy (b.flip s coins).1 units ?_ hflipped ?_
    (energyChanges_attach (b.flip s coins).2 .coinFlipEnergy _ units target)
  · exact Outcome.recorded_of_gives hflips hflipped.length_le (b.gives_flip s coins)
  · show (Word.mul _ _).toNat = _
    rw [Word.toNat_mul, hheads]

theorem counts_coinFlipConditional (coins : Word) (wanted : CoinFace) (c : FlipConsequence) :
    (Effect.coinFlipConditional coins wanted c).Counts s b
      (coinFlipConditional s b coins wanted c) := by
  have hlength := b.coins.length_flips (max coins.toNat 1)
  have hfits : (b.coins.flips (max coins.toNat 1)).1.length ≤ Word.limit := by
    rw [hlength]
    exact Nat.max_le.2 ⟨Word.toNat_le_limit coins, by decide⟩
  refine .conditional (b.coins.flips (max coins.toNat 1)).1
    (Outcome.recorded_of_gives rfl hfits (b.coins.gives_flips _)) hlength ?_ ?_
  · intro hshown
    have hall := (allShow_iff wanted _).2 hshown
    rw [hlength]
    unfold coinFlipConditional
    simp only [hall, if_true]
    exact (sameDeeds_consequence s _ _ c).noted _ _
  · intro hmissed
    have hall : allShow wanted (b.coins.flips (max coins.toNat 1)).1 = false := by
      rw [← Bool.not_eq_true, allShow_iff]
      exact hmissed
    rw [hlength]
    unfold coinFlipConditional
    simp only [hall, Bool.false_eq_true, if_false]
    exact ⟨rfl, rfl, rfl, rfl, rfl, rfl, rfl⟩

end Application

open Application in
/-- Every effect counts its coins. -/
theorem Effect.counts_apply (s : Setting) (b : Board) (e : Effect) :
    e.Counts s b (e.apply s b) := by
  cases e with
  | coinFlipDamage coins perHeads => exact counts_coinFlipDamage s b coins perHeads
  | coinFlipEnergy coins perHeads energy target =>
    exact counts_coinFlipEnergy s b coins perHeads energy target
  | coinFlipConditional coins wanted c => exact counts_coinFlipConditional s b coins wanted c
  | conditionApply c target =>
    exact .other rfl (quiet_inflict s b .conditionApply c target).flips
  | conditionApplyRandom target => exact .other rfl (flips_inflictRandom s b target)
  | conditionalDamage bonus c => exact .other rfl (quiet_conditionalDamage s b bonus c).flips
  | heal amount target => exact .other rfl (quiet_heal b .heal target (some amount)).flips
  | healFull target => exact .other rfl (quiet_heal b .healFull target none).flips
  | energyAttach energy n target =>
    exact .other rfl (quiet_attach b .energyAttach (energyOf b energy) n target).flips
  | energyDiscard d => exact .other rfl (flips_discard b .energyDiscard d)
  | damageBonus amount => exact .other rfl rfl
  | energyScalingDamage each energy source => exact .other rfl rfl
  | benchScalingDamage each side filter => exact .other rfl rfl
  | searchOrDraw flow => exact .other rfl rfl
  | unparsed text => exact .other rfl rfl

/-! ## Runs -/

namespace Registry

variable (reg : Registry) (s : Setting) (b : Board)

/-- The records of effects carried out one after the other are those of the effects that flip
coins, in order. -/
theorem kinds_outcomes (es : List Effect) :
    ((standard.outcomes s b es).flatMap Outcome.flips).map FlipRecord.kind
      = (es.filter Effect.flipsCoins).map Effect.kind := by
  -- along the effects; what the first leaves is what it counts, whatever the board
  induction es generalizing b with
  | nil => rfl
  | cons e es ih =>
    have hfirst : (standard.execute s b e).1.flips.map FlipRecord.kind
        = ([e].filter Effect.flipsCoins).map Effect.kind := by
      rw [execute_standard]
      exact (e.counts_apply s b).kinds
    rw [outcomes, List.flatMap_cons, List.map_append, ih, hfirst, ← List.map_append,
      ← List.filter_append, List.singleton_append]

/-- What a run makes of coins. -/
structure CountsFlips (es : List Effect) (out : Resolution × Board) : Prop where
  /-- Every effect has its status, and the effects that were not skipped are those reached. -/
  reached : ∀ i e, es[i]? = some e → ∃ record, out.1.effects[i]? = some record
    ∧ record.description = e.describe
    ∧ (record.status ≠ .skipped ↔ i < standard.reached s b es)
  /-- Each of them counts its coins on the board that those before it left. -/
  counted : ∀ i e, es[i]? = some e → i < standard.reached s b es →
    ∃ o, (standard.outcomesReached s b es)[i]? = some o
      ∧ e.Counts s (standard.boardAfter s b (es.take i))
          (o, standard.boardAfter s b (es.take (i + 1)))
  /-- The run records what they record. -/
  flips : out.1.flips = (standard.outcomesReached s b es).flatMap Outcome.flips
  /-- That is one record for each that flips coins, in order. -/
  kinds : out.1.flips.map FlipRecord.kind
    = ((es.take (standard.reached s b es)).filter Effect.flipsCoins).map Effect.kind
  bonus : out.1.bonus.toNat
    = min (Word.sum ((standard.outcomesReached s b es).map Outcome.bonus)) Word.limit
  energyChanges : out.1.energyChanges
    = (standard.outcomesReached s b es).flatMap Outcome.energyChanges

/-- **Coins are counted.**  Whatever effects are carried out, on whatever board: each effect that
flips coins, unless it is skipped, leaves one record, with as many flips as its count comes to on
the board that it meets, and makes of the heads what it promises; no other effect leaves one. -/
theorem counts_run (base : Word) (es : List Effect) :
    CountsFlips s b es (standard.run s b base es) where
  reached i e he := by
    have hdescribed : (standard.run s b base es).1.effects.map EffectRecord.description
        = es.map Effect.describe := standard.described_runFrom s b (.start base) es
    have hplace := congrArg (·[i]?) hdescribed
    simp only [List.getElem?_map, he, Option.map_some] at hplace
    obtain ⟨record, hrecord, hdescription⟩ := Option.map_eq_some_iff.1 hplace
    refine ⟨record, hrecord, hdescription, ?_⟩
    rw [← Nat.not_le, ← standard.skipped_run s b base es i record hrecord]
  counted i e he hi := by
    -- up to this place, all effects and the effects reached are the same
    have htake : (es.take (standard.reached s b es))[i]? = some e := by
      rw [List.getElem?_take_of_lt hi, he]
    obtain ⟨ho, hboard⟩ := standard.getElem?_outcomes s b _ htake
    have hshort : ∀ {n}, n ≤ standard.reached s b es →
        (es.take (standard.reached s b es)).take n = es.take n := fun hn => by
      rw [List.take_take, Nat.min_eq_left hn]
    rw [hshort hi, hshort (Nat.le_of_lt hi)] at hboard
    rw [hshort (Nat.le_of_lt hi)] at ho
    refine ⟨_, ho, ?_⟩
    rw [hboard, execute_standard]
    exact e.counts_apply s _
  flips := standard.gathers_run s b _ (fun _ _ _ => rfl) base rfl (fun _ _ => rfl) es
  kinds := by
    have hflips : (standard.run s b base es).1.flips
        = (standard.outcomesReached s b es).flatMap Outcome.flips :=
      standard.gathers_run s b _ (fun _ _ _ => rfl) base rfl (fun _ _ => rfl) es
    rw [hflips]
    exact kinds_outcomes s b _
  bonus := standard.sums_run s b _ (fun _ _ _ => rfl) base rfl (fun _ _ => rfl) es
  energyChanges := standard.gathers_run s b _ (fun _ _ _ => rfl) base rfl (fun _ _ => rfl) es

end Registry

end CardEffects
