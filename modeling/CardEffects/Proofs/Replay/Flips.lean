/-
  CardEffects.Proofs.Replay.Flips

  The coins that effects take, and the flips that they record.  Flips come from a source of coins
  one after the other, so a list of flips taken in parts is one long flip.  Effects that pick at
  random take more than flips; all others take the flips that they record, and nothing else.

    * `Coins.Gives` — flipping gives a list, and leaves a source; lists taken in turn are one.
    * `Effect.draws` — the effects that pick at random.
    * `Effect.gives_apply` — an effect takes the flips it records, unless it picked at random.
    * `Registry.gives_run` — so does a run.
-/
import CardEffects.Proofs.Execution
import CardEffects.Proofs.Replay.Sequence

namespace CardEffects

/-! ## Flips in turn -/

namespace Coins

/-- Flipping as many coins as a list is long gives that list, and leaves the source `c'`. -/
def Gives (c : Coins) (l : List Bool) (c' : Coins) : Prop := c.flips l.length = (l, c')

instance (c : Coins) (l : List Bool) (c' : Coins) : Decidable (c.Gives l c') :=
  inferInstanceAs (Decidable (_ = _))

variable {c c' c'' : Coins} {l l' : List Bool}

theorem gives_nil (c : Coins) : c.Gives [] c := rfl

theorem gives_face (c : Coins) : c.Gives [c.face 0] (c.advance 1) := rfl

theorem Gives.append (h : c.Gives l c') (h' : c'.Gives l' c'') : c.Gives (l ++ l') c'' := by
  unfold Gives at h h' ⊢
  rw [List.length_append, flips_add, h, h']

/-- Between two sources there are only so many coins. -/
theorem Gives.length_eq (h : c.Gives l c') (h' : c.Gives l' c') : l.length = l'.length := by
  have hdrawn : c.drawn + l.length = c'.drawn := congrArg (fun out => out.2.drawn) h
  have hdrawn' : c.drawn + l'.length = c'.drawn := congrArg (fun out => out.2.drawn) h'
  omega

theorem gives_flips (c : Coins) (n : Nat) : c.Gives (c.flips n).1 (c.flips n).2 := by
  unfold Gives
  rw [length_flips]

/-- Flips up to the first tails are flips. -/
theorem gives_flipsUntilTails (c : Coins) (cap : Nat) :
    c.Gives (c.flipsUntilTails cap).1 (c.flipsUntilTails cap).2 := by
  rw [flipsUntilTails_eq]
  exact flips_of_isPrefix (prefix_upToTails _)

end Coins

theorem Board.gives_flip (s : Setting) (b : Board) (count : CoinCount) :
    b.coins.Gives (b.flip s count).1 (b.flip s count).2.coins := by
  cases count with
  | untilTails => exact b.coins.gives_flipsUntilTails _
  | fixed n => exact b.coins.gives_flips _
  | perPokemonInPlay => exact b.coins.gives_flips _
  | perBenchOccupant side => exact b.coins.gives_flips _
  | perEnergyAttached e => exact b.coins.gives_flips _

/-! ## Random picks -/

/-- Whether a discard picks its units at random. -/
def EnergyDiscard.draws (d : EnergyDiscard) : Bool := d.energy.isNone && d.count != .all

/-- Whether an effect may pick at random: a condition, or units of energy to discard. -/
def Effect.draws : Effect → Bool
  | conditionApplyRandom _ => true
  | energyDiscard d => d.draws
  | coinFlipConditional _ _ (.discard d) => d.draws
  | _ => false

namespace EnergyPool

/-- A random discard that finds nothing leaves the coins alone. -/
theorem coins_discardRandom (p : EnergyPool) (coins : Coins) (n : Nat)
    (h : (p.discardRandom coins n).1 = []) : (p.discardRandom coins n).2.2 = coins := by
  cases n with
  | zero => rfl
  | succ n =>
    unfold discardRandom at h ⊢
    dsimp only at h ⊢
    split at h
    · rfl
    · cases h

theorem nil_of_tally {units : List Energy} (h : (tally units).filter (fun u => u.2 ≠ 0) = []) :
    units = [] := by
  cases units with
  | nil => rfl
  | cons e units =>
    have hmem : (e, Word.clamp ((e :: units).count e)) ∈ tally (e :: units) :=
      List.mem_map.2 ⟨e, Enumeration.mem_all e, rfl⟩
    have hzero := List.filter_eq_nil_iff.1 h _ hmem
    simp only [ne_eq, decide_not, Bool.not_eq_true', decide_eq_false_iff_not,
      Decidable.not_not] at hzero
    have hcount := congrArg UInt32.toNat hzero
    rw [Word.toNat_clamp, List.count_cons_self, UInt32.toNat_zero, Word.limit] at hcount
    omega

/-- Only a random discard of some units takes coins. -/
theorem coins_discardBy (p : EnergyPool) (coins : Coins) (d : EnergyDiscard)
    (h : d.draws = true → (p.discardBy coins d).1.filter (fun u => u.2 ≠ 0) = []) :
    (p.discardBy coins d).2.2 = coins := by
  obtain ⟨energy, count, source⟩ := d
  cases energy with
  | some e => cases count <;> rfl
  | none =>
    cases count with
    | all => rfl
    | count n => exact p.coins_discardRandom coins n.toNat (nil_of_tally (h rfl))

end EnergyPool

/-! ## Handlers -/

namespace Application

/-- No coin is flipped, nor taken otherwise. -/
structure Quiet (b : Board) (out : Outcome × Board) : Prop where
  flips : out.1.flips = []
  coins : out.2.coins = b.coins

variable (s : Setting) (b : Board) (kind : EffectKind)

theorem coins_put (side : Side) (m : Combatant) : (b.put side m).coins = b.coins := by
  cases side <;> rfl

theorem quiet_inflict (c : Condition) (target : ConditionTarget) :
    Quiet b (inflict s b kind c target) := by
  unfold inflict
  split
  · exact ⟨rfl, rfl⟩
  · dsimp only
    split <;> exact ⟨rfl, coins_put b _ _⟩

theorem quiet_inflictRandom (target : ConditionTarget)
    (h : (inflictRandom s b target).1.status ≠ .applied) :
    Quiet b (inflictRandom s b target) := by
  unfold inflictRandom at h ⊢
  split
  · exact ⟨rfl, rfl⟩
  next m hm =>
    simp only [hm] at h
    split
    next c m' coins hrandom =>
      simp only [hrandom] at h
      exact absurd rfl h
    next => exact ⟨rfl, rfl⟩

theorem quiet_heal (target : HealTarget) (amount : Option Word) :
    Quiet b (heal b kind target amount) := by
  unfold heal
  dsimp only
  split <;> exact ⟨rfl, rfl⟩

theorem quiet_attach (energy : Energy) (units : Word) (target : EnergyTarget) :
    Quiet b (attach b kind energy units target) := by
  unfold attach
  split
  · exact ⟨rfl, rfl⟩
  · split <;> exact ⟨rfl, rfl⟩

theorem quiet_discard (d : EnergyDiscard)
    (h : (discard b kind d).1.status = .applied → d.draws = false) :
    Quiet b (discard b kind d) := by
  unfold discard at h ⊢
  split
  · exact ⟨rfl, rfl⟩
  next m hm =>
    simp only [hm] at h
    dsimp only
    split
    next hnone => exact ⟨rfl, m.energy.coins_discardBy b.coins d fun _ => hnone⟩
    next hsome =>
      rw [if_neg hsome] at h
      refine ⟨rfl, m.energy.coins_discardBy b.coins d fun hdraws => ?_⟩
      exact absurd hdraws (by rw [h rfl]; decide)

theorem quiet_conditionalDamage (bonus : Word) (c : DamageCondition) :
    Quiet b (conditionalDamage s b bonus c, b) := by
  unfold conditionalDamage
  split <;> exact ⟨rfl, rfl⟩

/-- A consequence takes no coins of its own. -/
theorem coins_consequence (note : String) (c : FlipConsequence)
    (h : ∀ d, c = .discard d → (consequence s b note c).1.status = .applied →
      d.draws = false) :
    (consequence s b note c).2.coins = b.coins := by
  cases c with
  | bonusDamage amount => rfl
  | attackFails => rfl
  | condition c target => exact (quiet_inflict s b .coinFlipConditional c target).coins
  | heal amount => exact (quiet_heal b .coinFlipConditional .this (some amount)).coins
  | discard d => exact (quiet_discard b .coinFlipConditional d (h d rfl)).coins

/-- A conditional flip records its coins, whatever they show and whatever comes of them. -/
theorem gives_coinFlipConditional (coins : Word) (wanted : CoinFace) (c : FlipConsequence)
    (h : ∀ d, c = .discard d → (coinFlipConditional s b coins wanted c).1.status = .applied →
      d.draws = false) :
    b.coins.Gives ((coinFlipConditional s b coins wanted c).1.flips.flatMap FlipRecord.flips)
      (coinFlipConditional s b coins wanted c).2.coins := by
  have hflips := b.coins.gives_flips (max coins.toNat 1)
  have hrecord : (coinFlipConditional s b coins wanted c).1.flips.flatMap FlipRecord.flips
      = (b.coins.flips (max coins.toNat 1)).1 := List.append_nil _
  rw [hrecord]
  unfold coinFlipConditional at h ⊢
  dsimp only at h ⊢
  split
  next hall =>
    simp only [hall, if_true] at h
    rw [coins_consequence s _ _ c h]
    exact hflips
  next => exact hflips

end Application

/-! ## Effects -/

open Application in
/-- An effect takes the flips that it records, in that order, and no other coins; unless it may
pick at random, and did something. -/
theorem Effect.gives_apply (s : Setting) (b : Board) (e : Effect)
    (h : (e.apply s b).1.status = .applied → e.draws = false) :
    b.coins.Gives ((e.apply s b).1.flips.flatMap FlipRecord.flips) (e.apply s b).2.coins := by
  have hquiet : ∀ {out : Outcome × Board}, Quiet b out →
      b.coins.Gives (out.1.flips.flatMap FlipRecord.flips) out.2.coins := by
    intro out hout
    rw [hout.flips, hout.coins]
    exact b.coins.gives_nil
  cases e with
  | coinFlipDamage coins perHeads =>
    have hrecord : ((coinFlipDamage coins perHeads).apply s b).1.flips.flatMap FlipRecord.flips
        = (b.flip s coins).1 := List.append_nil _
    rw [hrecord]
    exact b.gives_flip s coins
  | coinFlipEnergy coins perHeads energy target =>
    -- the energy is attached after the flips, and takes none
    let attached := attach (b.flip s coins).2 .coinFlipEnergy
      (energyOf (b.flip s coins).2 energy)
      (Word.mul (Coins.headsCount (b.flip s coins).1) perHeads) target
    have hattach : Quiet (b.flip s coins).2 attached := quiet_attach _ _ _ _ target
    have hcoins : ((coinFlipEnergy coins perHeads energy target).apply s b).2.coins
        = (b.flip s coins).2.coins := hattach.coins
    have hflips : ((coinFlipEnergy coins perHeads energy target).apply s b).1.flips
        = attached.1.flips ++ [.ofFlips attached.1.kind (b.flip s coins).1] := rfl
    have hrecord : ((coinFlipEnergy coins perHeads energy target).apply s b).1.flips.flatMap
        FlipRecord.flips = (b.flip s coins).1 := by
      rw [hflips, hattach.flips]
      exact List.append_nil _
    rw [hcoins, hrecord]
    exact b.gives_flip s coins
  | coinFlipConditional coins wanted c =>
    refine gives_coinFlipConditional s b coins wanted c ?_
    rintro d rfl
    exact h
  | conditionApply c target => exact hquiet (quiet_inflict s b .conditionApply c target)
  | conditionApplyRandom target =>
    refine hquiet (quiet_inflictRandom s b target fun happlied => ?_)
    exact Bool.noConfusion (h happlied)
  | damageBonus amount => exact hquiet ⟨rfl, rfl⟩
  | energyScalingDamage each energy source => exact hquiet ⟨rfl, rfl⟩
  | conditionalDamage bonus c => exact hquiet (quiet_conditionalDamage s b bonus c)
  | benchScalingDamage each side filter => exact hquiet ⟨rfl, rfl⟩
  | heal amount target => exact hquiet (quiet_heal b .heal target (some amount))
  | healFull target => exact hquiet (quiet_heal b .healFull target none)
  | energyAttach energy n target => exact hquiet (quiet_attach b .energyAttach _ n target)
  | energyDiscard d => exact hquiet (quiet_discard b .energyDiscard d h)
  | searchOrDraw flow => exact hquiet ⟨rfl, rfl⟩
  | unparsed text => exact hquiet ⟨rfl, rfl⟩

/-! ## Runs -/

namespace Registry

variable (reg : Registry) (s : Setting)

theorem gives_execute (b : Board) (e : Effect)
    (h : (reg.execute s b e).1.status = .applied → e.draws = false) :
    b.coins.Gives ((reg.execute s b e).1.flips.flatMap FlipRecord.flips)
      (reg.execute s b e).2.coins := by
  unfold execute at h ⊢
  split
  · exact b.coins.gives_nil
  next handler hget =>
    simp only [hget] at h
    split
    next hown =>
      rw [if_pos hown] at h
      exact e.gives_apply s b h
    next => exact b.coins.gives_nil

/-- Effects carried out one after the other take the flips that they record, in that order. -/
theorem gives_boardAfter (b : Board) (es : List Effect)
    (h : ∀ (i : Nat) (e : Effect) (o : Outcome), es[i]? = some e →
      (reg.outcomes s b es)[i]? = some o → o.status = .applied → e.draws = false) :
    b.coins.Gives (((reg.outcomes s b es).flatMap Outcome.flips).flatMap FlipRecord.flips)
      (reg.boardAfter s b es).coins := by
  induction es generalizing b with
  | nil => exact b.coins.gives_nil
  | cons e es ih =>
    have hfirst := reg.gives_execute s b e (h 0 e _ rfl rfl)
    have hrest := ih (reg.execute s b e).2 fun i e' o he' ho => h (i + 1) e' o he' ho
    rw [outcomes, List.flatMap_cons, List.flatMap_append]
    exact hfirst.append hrest

end Registry

/-! ## What resolutions record -/

namespace Resolution

/-- All flips that a resolution records, in order. -/
def recorded (r : Resolution) : List Bool := r.flips.flatMap FlipRecord.flips

/-- None of the effects that were carried out and did something may pick at random. -/
def Drawless (r : Resolution) (es : List Effect) : Prop :=
  ∀ (i : Nat) (e : Effect) (record : EffectRecord), es[i]? = some e →
    r.effects[i]? = some record → record.status = .applied → e.draws = false

end Resolution

/-- A run takes the flips that it records: effects behind a cancelled attack take none. -/
theorem Registry.gives_run (reg : Registry) (s : Setting) (b : Board) (base : Word)
    (es : List Effect) (h : (reg.run s b base es).1.Drawless es) :
    b.coins.Gives (reg.run s b base es).1.recorded (reg.run s b base es).2.coins := by
  have hflips : (reg.run s b base es).1.flips
      = (reg.outcomesReached s b es).flatMap Outcome.flips :=
    reg.gathers_run s b _ (fun _ _ _ => rfl) base rfl (fun _ _ => rfl) es
  have hboard : (reg.run s b base es).2
      = reg.boardAfter s b (es.take (reg.reached s b es)) := by
    rw [run, runFrom_eq reg s b es rfl]
  rw [Resolution.recorded, hflips, hboard]
  refine reg.gives_boardAfter s b _ fun i e o he ho happlied => ?_
  -- the effect at this place was reached, and its record is that of its outcome
  have hi : i < reg.reached s b es := by
    obtain ⟨hlt, -⟩ := List.getElem?_eq_some_iff.1 he
    exact Nat.lt_of_lt_of_le hlt (List.length_take_le _ _)
  rw [List.getElem?_take_of_lt hi] at he
  refine h i e ⟨o.kind, o.status, e.describe⟩ he ?_ happlied
  rw [effects_run, List.getElem?_append_left, List.getElem?_zipWith]
  · rw [he, show (reg.outcomesReached s b es)[i]? = some o from ho]
  · rw [List.length_zipWith, length_outcomesReached]
    exact Nat.lt_min.2 ⟨hi, (List.getElem?_eq_some_iff.1 he).1⟩

end CardEffects
