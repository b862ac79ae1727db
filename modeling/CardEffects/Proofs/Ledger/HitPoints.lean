/-
  CardEffects.Proofs.Ledger.HitPoints

  The hit points of a text.  Its effects restore hit points on the acting side and leave those of
  the other side alone; what they report as healed is what they restored.  Damage is dealt at the
  end, to the active Pokémon of the other side, and is reported as it is taken.

    * `Treatment` — what effects do to hit points; `Treatment.trans` joins two.
    * `Deed.treatment` — every effect is a treatment.
    * `HitPointLedger` — the account of a text, with the damage.
    * `Engine.Resolves.hitPoints` — every text, attack and ability keeps it.
-/
import CardEffects.Proofs.Attack
import CardEffects.Proofs.Execution
import CardEffects.Proofs.Ledger.Account
import CardEffects.Proofs.Mending

namespace CardEffects

/-! ## Treatments -/

/-- The hit points of a Pokémon stay as they are, and so does its bench. -/
structure Combatant.Unharmed (m m' : Combatant) : Prop where
  maxHp : m'.maxHp = m.maxHp
  hp : m'.hp = m.hp
  bench : m'.bench = m.bench

theorem Combatant.Unharmed.refl (m : Combatant) : m.Unharmed m := ⟨rfl, rfl, rfl⟩

theorem Combatant.Unharmed.trans {m m' m'' : Combatant} (h : m.Unharmed m')
    (h' : m'.Unharmed m'') : m.Unharmed m'' :=
  ⟨h'.maxHp.trans h.maxHp, h'.hp.trans h.hp, h'.bench.trans h.bench⟩

/-- What effects do to the hit points on a board: on the acting side some are restored, and
reported as far as they fit in a count; those of the defender stay as they are. -/
structure Treatment (b : Board) (healed : Word) (b' : Board) : Prop where
  attacker : b.attacker.Recovers b'.attacker
  healed : healed.toNat = min (b.attacker.restored b'.attacker) Word.limit
  defender : Option.Rel Combatant.Unharmed b.defender b'.defender

namespace Treatment

variable {b b' b'' : Board} {x y : Word}

/-- Nobody is harmed, and nobody healed. -/
theorem of_unharmed (h : b.attacker.Unharmed b'.attacker)
    (hdefender : Option.Rel Combatant.Unharmed b.defender b'.defender) : Treatment b 0 b' := by
  refine ⟨.of_eq h.maxHp h.hp h.bench, ?_, hdefender⟩
  rw [Combatant.restored_of_eq h.hp h.bench]
  rfl

/-- Coins are no part of a treatment. -/
theorem idle (b : Board) (coins : Coins) : Treatment b 0 { b with coins } :=
  of_unharmed (.refl _) (optionRel_refl .refl _)

/-- A Pokémon that is not harmed is put in its own place. -/
theorem of_put {side : Side} {m m' : Combatant} (coins : Coins) (hm : b.active? side = some m)
    (h : m.Unharmed m') : Treatment b 0 { b.put side m' with coins } :=
  have hput := Board.rel_put .refl hm h
  of_unharmed hput.1 hput.2

/-- Two treatments in turn report the sum of what they report, as far as it fits. -/
theorem trans (h : Treatment b x b') (h' : Treatment b' y b'') :
    Treatment b (Word.add x y) b'' where
  attacker := h.attacker.trans h'.attacker
  healed := by
    rw [Word.toNat_add, h.healed, h'.healed, Combatant.restored_trans h.attacker h'.attacker]
    omega
  defender := optionRel_trans h.defender h'.defender fun _ _ _ => .trans

end Treatment

/-- Whatever an effect does is a treatment, and only healing restores hit points. -/
theorem Deed.treatment {s : Setting} {b b' : Board} {o : Outcome} (h : Deed s b o b') :
    Treatment b o.healed b' := by
  cases h with
  | idle coins report =>
    rw [report.healed]
    exact .idle b coins
  | inflicted coins c active report =>
    rw [report.healed]
    exact .of_put coins active ⟨rfl, rfl, rfl⟩
  | healed coins target amount report =>
    rw [report.healed]
    exact ⟨b.attacker.recovers_healTarget target amount, b.attacker.healTarget_fst target amount,
      (Treatment.idle b coins).defender⟩
  | attached coins energy pos report =>
    rw [report.healed]
    exact .of_unharmed ⟨rfl, rfl, rfl⟩ (Treatment.idle b coins).defender
  | waiting coins energy pos report =>
    rw [report.healed]
    exact .idle b coins
  | discarded drawn d active report =>
    rw [report.healed]
    exact .of_put _ active ⟨rfl, rfl, rfl⟩

namespace Registry

variable (reg : Registry) (s : Setting)

/-- A step carries a treatment on; an effect that is skipped adds nothing. -/
theorem treatment_step {b b' : Board} {r : Resolution} (h : Treatment b r.healed b')
    (e : Effect) :
    Treatment b (reg.step s r b' e).1.healed (reg.step s r b' e).2 := by
  cases hneg : r.negated with
  | true =>
    rw [step_of_negated reg s b' e hneg]
    exact h
  | false =>
    rw [step_of_going reg s b' e hneg]
    exact h.trans (reg.deed_execute s b' e).treatment

theorem treatment_run (b : Board) (base : Word) (es : List Effect) :
    Treatment b (reg.run s b base es).1.healed (reg.run s b base es).2 :=
  runFrom_induction (P := fun r b' => Treatment b r.healed b') (.idle b b.coins)
    fun e _ _ _ h => reg.treatment_step s h e

end Registry

/-! ## The account -/

/-- The account of the hit points on a board between two moments, with what a resolution says
about it. -/
structure HitPointLedger (c : Config) (b : Board) (r : Resolution) (b' : Board) : Prop where
  /-- On the acting side hit points rise, no further than to the maximum. -/
  attacker : b.attacker.Recovers b'.attacker
  /-- One above its maximum is neither healed nor lowered to it, nor is one on the bench. -/
  above : (b.attacker.maxHp ≤ b.attacker.hp → b'.attacker.hp = b.attacker.hp)
    ∧ List.Forall₂ (Option.Rel fun o o' => o.maxHp ≤ o.hp → o'.hp = o.hp)
        b.attacker.bench b'.attacker.bench
  /-- What is healed is what was restored to each, if all that is missing fits in a count. -/
  healed : b.attacker.missing ≤ Word.limit →
    r.healed.toNat = b.attacker.restored b'.attacker
  /-- The defender loses the damage dealt, and its bench loses nothing. -/
  defender : Option.Rel
    (fun d d' => d'.hp.toNat + (r.dealt.getD 0).toNat = d.hp.toNat ∧ d'.bench = d.bench)
    b.defender b'.defender
  /-- Damage is dealt where the settings say so, there is a defender, and there is damage. -/
  dealt : r.dealt.isSome = true
    ↔ c.applyDamage = true ∧ b.defender.isSome = true ∧ 0 < r.total
  amount : ∀ n ∈ r.dealt, ∀ d ∈ b.defender, n.toNat = min r.total.toNat d.hp.toNat
  /-- A defender is knocked out by damage that leaves it no hit points. -/
  knockedOut : r.knockedOut = true
    ↔ r.dealt.isSome = true ∧ ∃ d' ∈ b'.defender, d'.hp = 0

namespace Treatment

variable {b b' : Board} {r : Resolution}

private theorem above (h : Treatment b r.healed b') :
    (b.attacker.maxHp ≤ b.attacker.hp → b'.attacker.hp = b.attacker.hp)
      ∧ List.Forall₂ (Option.Rel fun o o' => o.maxHp ≤ o.hp → o'.hp = o.hp)
          b.attacker.bench b'.attacker.bench := by
  exact ⟨h.attacker.hp.eq_of_above,
    h.attacker.bench.imp fun _ _ hslot => optionRel_imp hslot fun _ _ ho => ho.hp.eq_of_above⟩

/-- What was missing bounds what was restored, so the report is exact when it fits. -/
private theorem healed_eq (h : Treatment b r.healed b') (hfits : b.attacker.missing ≤ Word.limit) :
    r.healed.toNat = b.attacker.restored b'.attacker := by
  have hle := h.attacker.restored_le
  have hhealed := h.healed
  omega

/-- Without damage a treatment is the whole account. -/
theorem hitPointLedger (h : Treatment b r.healed b') (c : Config) (hdealt : r.dealt = none)
    (hout : r.knockedOut = false)
    (hno : ¬ (c.applyDamage = true ∧ b.defender.isSome = true ∧ 0 < r.total)) :
    HitPointLedger c b r b' where
  attacker := h.attacker
  above := h.above
  healed := h.healed_eq
  defender := by
    rw [hdealt]
    exact optionRel_imp h.defender fun _ _ hd => ⟨by rw [hd.hp]; rfl, hd.bench⟩
  dealt := by
    rw [hdealt]
    exact ⟨fun h => absurd h (by decide), fun h => absurd h hno⟩
  amount := by
    rw [hdealt]
    exact fun n hn => nomatch hn
  knockedOut := by
    rw [hout, hdealt]
    exact ⟨nofun, fun h => nomatch h.1⟩

/-- A hit after a treatment takes its damage from the defender, down to no hit points. -/
private theorem hitPointLedger_hit (h : Treatment b r.healed b') {c : Config} {d : Combatant}
    (hd : b'.defender = some d) (happly : c.applyDamage = true) (htotal : 0 < r.total)
    (line : String) :
    HitPointLedger c b
      ({ r with
          dealt := some (d.takeDamage r.total).1
          knockedOut := (d.takeDamage r.total).2.isKnockedOut : Resolution }.tracing line)
      { b' with defender := some (d.takeDamage r.total).2 } := by
  -- the defender that is hit has the hit points it came with
  obtain ⟨d₀, hb, hsame⟩ := exists_of_optionRel_some (hd ▸ h.defender)
  have htaken : (d.takeDamage r.total).1.toNat = min r.total.toNat d₀.hp.toNat := by
    rw [← hsame.hp]
    exact Word.toNat_least _ _
  have hleft : (d.takeDamage r.total).2.hp.toNat + (d.takeDamage r.total).1.toNat
      = d₀.hp.toNat := by
    have hrest : (d.takeDamage r.total).2.hp.toNat
        = d.hp.toNat - (d.takeDamage r.total).1.toNat := Word.toNat_sub _ _
    rw [hrest, htaken, hsame.hp]
    omega
  refine ⟨h.attacker, h.above, h.healed_eq, ?_, ?_, ?_, ?_⟩
  · rw [hb]
    exact .some ⟨hleft, hsame.bench⟩
  · rw [hb]
    exact ⟨fun _ => ⟨happly, rfl, htotal⟩, fun _ => rfl⟩
  · intro n hn d' hd'
    obtain rfl := Option.some.inj hn
    obtain rfl := Option.some.inj (hb.symm.trans hd')
    exact htaken
  · show (d.takeDamage r.total).2.isKnockedOut = true ↔ _
    rw [Combatant.isKnockedOut, beq_iff_eq]
    refine ⟨fun hzero => ⟨rfl, _, rfl, hzero⟩, ?_⟩
    rintro ⟨-, d', hd', hzero⟩
    rw [Option.some.inj hd']
    exact hzero

/-- Dealing damage after a treatment is a hit, or leaves it at the treatment. -/
theorem hitPointLedger_dealDamage (h : Treatment b r.healed b') (c : Config)
    (hdealt : r.dealt = none) (hout : r.knockedOut = false) :
    HitPointLedger c b (Engine.dealDamage c r b').1 (Engine.dealDamage c r b').2 := by
  unfold Engine.dealDamage
  split
  next hnone =>
    have hb : b.defender = none := eq_none_of_optionRel_none (hnone ▸ h.defender)
    exact h.hitPointLedger c hdealt hout fun hall => by simp [hb] at hall
  next d hd =>
    split
    next hdamage => exact h.hitPointLedger_hit hd hdamage.1 hdamage.2 _
    next hdamage =>
      exact h.hitPointLedger c hdealt hout fun hall => hdamage ⟨hall.1, hall.2.2⟩

end Treatment

/-! ## Texts -/

namespace Engine

variable (g : Engine) (turn : Word) (attack : Option Attack) (b : Board) (text : String)
  (base : Word)

theorem hitPointLedger_run :
    HitPointLedger g.config b (g.run turn attack b text base).1
      (g.run turn attack b text base).2 := by
  have htreatment := g.registry.treatment_run { config := g.config, turn, attack } b base
    (Plan.ofText text).kept
  rw [run_eq]
  refine Treatment.hitPointLedger_dealDamage ?_ g.config ?_ ?_
  · exact htreatment
  · exact g.registry.keeps_run _ b Resolution.dealt (fun _ _ _ => rfl) (fun _ _ => rfl) base _
  · exact g.registry.keeps_run _ b Resolution.knockedOut (fun _ _ _ => rfl) (fun _ _ => rfl) base _

/-- **The hit point ledger.**  For any text, attack or ability that is carried out, whatever the
handlers in place, the settings, the coins and the board: what the resolution reports as healed
is by how much the acting Pokémon and its bench rose, and what it reports as dealt is what the
defender lost. -/
theorem Resolves.hitPoints {g : Engine} {turn : Word} {b : Board} {text : String}
    {r : Resolution} {b' : Board} (h : g.Resolves turn b text (r, b')) :
    HitPointLedger g.config b r b' := by
  rcases h.stopped_or_run with ⟨base, flips, reason, coins, hout⟩ | ⟨coins, attack, base, hout⟩
  · -- an attack that is stopped has no damage to deal
    obtain ⟨rfl, rfl⟩ := Prod.mk.inj hout
    refine Treatment.hitPointLedger (Treatment.idle b coins) g.config rfl rfl fun hall => ?_
    exact absurd hall.2.2 (UInt32.lt_irrefl 0)
  · obtain ⟨rfl, rfl⟩ := Prod.mk.inj hout
    have hledger := g.hitPointLedger_run turn attack { b with coins } text base
    exact ⟨hledger.attacker, hledger.above, hledger.healed, hledger.defender, hledger.dealt,
      hledger.amount, hledger.knockedOut⟩

/-! ### Care for everyone, and a hit -/

/-- Everyone of the own side is healed. -/
def careText : String := "Heal 20 damage from each of your Pokémon."

/-- A board where 50 hit points are missing from the acting Pokémon, 10 from one on its bench,
and none from another, which has more than its maximum. -/
def careBoard : Board where
  attacker := { Combatant.new "Charmander" .fire 100 with
    hp := 50
    bench := [some ⟨"Vulpix", 50, 60, ∅⟩, none, some ⟨"Ponyta", 80, 60, ∅⟩] }
  defender := some (.new "Eevee" .fire 100)
  coins := .ofSeed 0

theorem kept_careText : (Plan.ofText careText).kept = [.heal 20 .eachOwn] := by
  have heffects : (Reading.ofText careText).effects = [.heal 20 .eachOwn] := by
    refine Clause.effects_ofText (by decide) ?_
    rw [careText, String.toList_ofList]
    decide
  rw [Plan.ofText, heffects, Plan.ofEffects, Plan.inOrder_eq_ranked]
  decide

theorem resolution_careText :
    ((ofConfig .standard).resolveText 1 careBoard careText 30).1.healed = 30
      ∧ ((ofConfig .standard).resolveText 1 careBoard careText 30).1.dealt = some 30 := by
  rw [resolveText, run_eq, kept_careText]
  decide

/-- The side that acts has 30 hit points more in all, and the other 30 less. -/
theorem hitPoints_careText :
    careBoard.attacker.restored
        ((ofConfig .standard).resolveText 1 careBoard careText 30).2.attacker = 30
      ∧ ∀ d ∈ ((ofConfig .standard).resolveText 1 careBoard careText 30).2.defender,
          d.hp.toNat = 70 := by
  have hledger : HitPointLedger (ofConfig .standard).config careBoard
      ((ofConfig .standard).resolveText 1 careBoard careText 30).1
      ((ofConfig .standard).resolveText 1 careBoard careText 30).2 :=
    Resolves.hitPoints (.text 30 (Prod.eta _).symm)
  obtain ⟨hhealed, hdealt⟩ := resolution_careText
  constructor
  · rw [← hledger.healed (by decide), hhealed]
    rfl
  · intro d hd
    have hdefender := hledger.defender
    rw [hdealt, show careBoard.defender = some (.new "Eevee" .fire 100) from rfl, hd] at hdefender
    have hleft : d.hp.toNat + 30 = 100 := (Option.rel_some_some.1 hdefender).1
    omega

end Engine

end CardEffects
