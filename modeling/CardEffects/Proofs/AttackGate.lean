/-
  CardEffects.Proofs.AttackGate

  An attack is a gate, and behind it the plain run of its text.  At the gate nothing has happened
  yet: an attack that is refused leaves everyone as they were, and takes at most the one coin that
  refused it.  Behind the gate the effects of the text are carried out from the board and the
  coins that are left, and then the damage is dealt.  The attack itself matters to no effect but a
  bonus for energy beyond its cost; without one the text does the same when it stands by itself.

    * `Resolution.Refused` — what an attack that is refused comes to.
    * `Engine.CarriedOut` — what a text comes to, said of the run of its effects.
    * `Effect.readsAttack`, `Engine.run_attack` — who reads the attack, and what follows when
      nobody does.
    * `Engine.blockers_eq` — who is named as blocking an attack.
    * `Engine.resolveAttack_gated` — the gate and the run, for every attack of every card.
-/
import CardEffects.Proofs.Attack
import CardEffects.Proofs.Execution

namespace CardEffects

/-! ## Refusals -/

/-- What a refused attack comes to: it is cancelled for the reason in the trace, and apart from
the given flips nothing is reported. -/
structure Resolution.Refused (a : Attack) (flips : List FlipRecord) (reason : String)
    (r : Resolution) : Prop where
  negated : r.negated = true
  total : r.total = 0
  base : r.base = a.damage
  bonus : r.bonus = 0
  effects : r.effects = []
  flips : r.flips = flips
  dealt : r.dealt = none
  knockedOut : r.knockedOut = false
  conditionChanges : r.conditionChanges = []
  energyChanges : r.energyChanges = []
  healed : r.healed = 0
  pending : r.pending = []
  trace : r.trace = [reason]

namespace Engine

theorem refused_blockedAttack (m : Combatant) (a : Attack) (cs : List Condition) :
    (blockedAttack m a cs).Refused a []
      (m.name ++ " cannot attack while " ++ ", ".intercalate (cs.map Condition.name)) :=
  ⟨rfl, rfl, rfl, rfl, rfl, rfl, rfl, rfl, rfl, rfl, rfl, rfl, rfl⟩

theorem refused_confusedAttack (m : Combatant) (a : Attack) :
    (confusedAttack m a).Refused a [⟨.coinFlipConditional, [false], 0⟩]
      (m.name ++ " is confused and flipped tails") :=
  ⟨rfl, rfl, rfl, rfl, rfl, rfl, rfl, rfl, rfl, rfl, rfl, rfl, rfl⟩

/-- The conditions that block an attack are those in force with a rule that blocks it, in the
order in which conditions are listed. -/
theorem blockers_eq (g : Engine) (b : Board) :
    g.blockers b
      = (Enumeration.all : List Condition).filter fun c =>
          (g.config.conditionRules.rule c).blocks.contains .attack
            && b.attacker.conditions.contains c :=
  List.filter_filter

end Engine

/-! ## Who reads the attack -/

/-- Whether an effect depends on the attack that its text belongs to. -/
def Effect.readsAttack : Effect → Bool
  | conditionalDamage _ (.selfExtraEnergy _ _) => true
  | _ => false

theorem Effect.apply_attack {e : Effect} (h : e.readsAttack = false) (config : Config)
    (turn : Word) (x y : Option Attack) (b : Board) :
    e.apply { config, turn, attack := x } b = e.apply { config, turn, attack := y } b := by
  cases e with
  | conditionalDamage bonus c =>
    cases c with
    | selfExtraEnergy energy atLeast => cases h
    | targetHasCondition c => cases c <;> rfl
    | targetDamaged => rfl
    | selfDamaged => rfl
  | _ => rfl

namespace Engine

/-- A text with no effect that reads the attack does the same for any attack, or for none. -/
theorem run_attack (g : Engine) (turn : Word) (x y : Option Attack) (b : Board) {text : String}
    (h : ∀ e ∈ (Plan.ofText text).kept, e.readsAttack = false) (base : Word) :
    g.run turn x b text base = g.run turn y b text base := by
  have heffects : ∀ e ∈ (Plan.ofText text).kept, ∀ b,
      e.apply { config := g.config, turn, attack := x } b
        = e.apply { config := g.config, turn, attack := y } b :=
    fun e he b => Effect.apply_attack (h e he) g.config turn x y b
  rw [run_eq, run_eq, Registry.run, Registry.run, g.registry.runFrom_congr heffects]

/-! ## Texts -/

/-- What a text comes to, said of `ran`, what carrying out its effects comes to: the same reports
and the same board, but for the damage.  It is dealt if the settings say so, there is damage, and
there is someone to take it. -/
structure CarriedOut (c : Config) (ran out : Resolution × Board) : Prop where
  base : out.1.base = ran.1.base
  bonus : out.1.bonus = ran.1.bonus
  total : out.1.total = ran.1.total
  negated : out.1.negated = ran.1.negated
  flips : out.1.flips = ran.1.flips
  conditionChanges : out.1.conditionChanges = ran.1.conditionChanges
  energyChanges : out.1.energyChanges = ran.1.energyChanges
  healed : out.1.healed = ran.1.healed
  pending : out.1.pending = ran.1.pending
  effects : out.1.effects = ran.1.effects
  attacker : out.2.attacker = ran.2.attacker
  coins : out.2.coins = ran.2.coins
  dealt : out.1.dealt
    = if c.applyDamage = true ∧ 0 < ran.1.total then
        ran.2.defender.map fun d => (d.takeDamage ran.1.total).1
      else none
  defender : out.2.defender
    = if c.applyDamage = true ∧ 0 < ran.1.total then
        ran.2.defender.map fun d => (d.takeDamage ran.1.total).2
      else ran.2.defender
  knockedOut : out.1.knockedOut = (out.1.dealt.isSome && out.2.defender.any Combatant.isKnockedOut)

/-- Damage that was not dealt before is dealt now. -/
theorem carriedOut_dealDamage (c : Config) {r : Resolution} (lines : List String) (b : Board)
    (hdealt : r.dealt = none) (hko : r.knockedOut = false) :
    CarriedOut c (r, b) (dealDamage c { r with trace := r.trace ++ lines } b) := by
  unfold dealDamage
  cases hd : b.defender with
  | none =>
    refine ⟨rfl, rfl, rfl, rfl, rfl, rfl, rfl, rfl, rfl, rfl, rfl, rfl, ?_, ?_, ?_⟩
    · simp [hd, hdealt]
    · simp [hd]
    · simp [hko, hdealt]
  | some d =>
    dsimp only
    split
    next h =>
      refine ⟨rfl, rfl, rfl, rfl, rfl, rfl, rfl, rfl, rfl, rfl, rfl, rfl, ?_, ?_, rfl⟩
      · rw [if_pos h, hd]
        rfl
      · rw [if_pos h, hd]
        rfl
    next h =>
      refine ⟨rfl, rfl, rfl, rfl, rfl, rfl, rfl, rfl, rfl, rfl, rfl, rfl, ?_, ?_, ?_⟩
      · rw [if_neg h, ← hdealt]
      · rw [if_neg h]
      · simp [hko, hdealt]

theorem carriedOut_run (g : Engine) (turn : Word) (attack : Option Attack) (b : Board)
    (text : String) (base : Word) :
    CarriedOut g.config
      (g.registry.run { config := g.config, turn, attack } b base (Plan.ofText text).kept)
      (g.run turn attack b text base) :=
  carriedOut_dealDamage g.config _ _
    (g.registry.keeps_run _ b Resolution.dealt (fun _ _ _ => rfl) (fun _ _ => rfl) base _)
    (g.registry.keeps_run _ b Resolution.knockedOut (fun _ _ _ => rfl) (fun _ _ => rfl) base _)

/-! ## The gate -/

/-- What lies behind the gate, `start` being the board with the coins that are left: the effects
of the text are carried out for the attack.  If none of them reads the attack, the text does the
same by itself. -/
structure Plain (g : Engine) (turn : Word) (a : Attack) (start : Board)
    (out : Resolution × Board) : Prop where
  carriedOut : CarriedOut g.config
    (g.registry.run { config := g.config, turn, attack := some a } start a.damage
      (Plan.ofText a.effect).kept) out
  byItself : (∃ e ∈ (Plan.ofText a.effect).kept, e.readsAttack = true)
    ∨ out = g.resolveText turn start a.effect a.damage

theorem plain_run (g : Engine) (turn : Word) (a : Attack) (start : Board) :
    g.Plain turn a start (g.run turn (some a) start a.effect a.damage) where
  carriedOut := g.carriedOut_run turn (some a) start a.effect a.damage
  byItself := by
    by_cases h : ∃ e ∈ (Plan.ofText a.effect).kept, e.readsAttack = true
    · exact .inl h
    · refine .inr (g.run_attack turn (some a) none start (fun e he => ?_) a.damage)
      exact Bool.eq_false_iff.2 fun hreads => h ⟨e, he, hreads⟩

/-- The ways through the gate.  `blockers` are the conditions that block the attack. -/
inductive Passage (g : Engine) (turn : Word) (b : Board) (a : Attack) (blockers : List Condition) :
    Resolution × Board → Prop where
  /-- Some condition blocks the attack.  Nobody changes, and no coin is flipped. -/
  | blocked (r : Resolution) (hblockers : blockers ≠ [])
      (hr : r.Refused a [] (b.attacker.name ++ " cannot attack while "
        ++ ", ".intercalate (blockers.map Condition.name))) :
      Passage g turn b a blockers (r, b)
  /-- The one coin that a confused attacker flips shows tails.  Nobody changes. -/
  | confused (r : Resolution) (hblockers : blockers = []) (hchecks : g.ChecksConfusion b)
      (htails : b.coins.flip.1 = false)
      (hr : r.Refused a [⟨.coinFlipConditional, [false], 0⟩]
        (b.attacker.name ++ " is confused and flipped tails")) :
      Passage g turn b a blockers (r, { b with coins := b.coins.flip.2 })
  /-- The one coin that a confused attacker flips shows heads. -/
  | passed (out : Resolution × Board) (hblockers : blockers = []) (hchecks : g.ChecksConfusion b)
      (hheads : b.coins.flip.1 = true)
      (hout : g.Plain turn a { b with coins := b.coins.flip.2 } out) :
      Passage g turn b a blockers out
  /-- No coin is flipped before the attack. -/
  | unchecked (out : Resolution × Board) (hblockers : blockers = [])
      (hchecks : ¬ g.ChecksConfusion b) (hout : g.Plain turn a b out) :
      Passage g turn b a blockers out

theorem passage_attack (g : Engine) (turn : Word) (b : Board) (a : Attack) :
    g.Passage turn b a (g.blockers b) (g.attack turn b a) := by
  have hcourse := g.course_attack turn b a
  generalize g.attack turn b a = out at hcourse
  cases hcourse with
  | blocked c cs hblockers =>
    rw [hblockers]
    exact .blocked _ (List.cons_ne_nil c cs) (refused_blockedAttack b.attacker a (c :: cs))
  | failed hblockers hchecks htails =>
    rw [hblockers]
    exact .confused _ rfl hchecks htails (refused_confusedAttack b.attacker a)
  | passed hblockers hchecks hheads =>
    rw [hblockers]
    exact .passed _ rfl hchecks hheads (g.plain_run turn a _)
  | unchecked hblockers hchecks =>
    rw [hblockers]
    exact .unchecked _ rfl hchecks (g.plain_run turn a b)

/-- **An attack is its gate and the plain run.**  An attack that the card does not have is refused
by name and number, and the battle stays as it is.  Any other goes one of the ways through the
gate; what blocks it are the conditions in force with a rule that blocks attacks, in the order in
which conditions are listed. -/
theorem resolveAttack_gated (g : Engine) (turn : Word) (b : Board) (card : Card) (index : Nat) :
    (card.attacks.length ≤ index
        ∧ g.resolveAttack turn b card index = .error (.noSuchAttack card.id index)
        ∧ (Battle.mk g b).perform (.call turn (.attack card index))
          = (.refusal (.noSuchAttack card.id index), ⟨g, b⟩))
      ∨ ∃ a out, card.attacks[index]? = some a
          ∧ g.resolveAttack turn b card index = .ok out
          ∧ (Battle.mk g b).perform (.call turn (.attack card index))
            = (.resolution out.1, ⟨g, out.2⟩)
          ∧ g.Passage turn b a
              ((Enumeration.all : List Condition).filter fun c =>
                (g.config.conditionRules.rule c).blocks.contains .attack
                  && b.attacker.conditions.contains c) out := by
  cases ha : card.attacks[index]? with
  | none =>
    have hrefused : g.resolveAttack turn b card index = .error (.noSuchAttack card.id index) := by
      rw [resolveAttack, ha]
    refine .inl ⟨List.getElem?_eq_none_iff.1 ha, hrefused, ?_⟩
    unfold Battle.perform call
    dsimp only
    rw [hrefused]
  | some a =>
    have hout : g.resolveAttack turn b card index = .ok (g.attack turn b a) := by
      rw [resolveAttack, ha]
    refine .inr ⟨a, g.attack turn b a, rfl, hout, ?_, ?_⟩
    · unfold Battle.perform call
      dsimp only
      rw [hout]
      rfl
    · rw [← blockers_eq]
      exact g.passage_attack turn b a

end Engine

end CardEffects
