/-
  CardEffects.Proofs.Ledger.Conditions

  The condition ledger of a text.  Conditions come and never go while a text is carried out, and
  what comes is reported: a condition that is inflicted is applied once, from this turn on, and
  one that is in force already stays as it was and is reported as such.

    * `Afflicted` — what reported changes did to the conditions of one Pokémon;
      `Afflicted.trans` joins two reports.
    * `ConditionLedger` — the account for both sides of a board.
    * `ConditionLedger.of_deed` — every effect keeps it.
    * `Engine.Resolves.conditionLedger` — so does every text, attack and ability.
-/
import CardEffects.Proofs.Attack
import CardEffects.Proofs.Execution
import CardEffects.Proofs.Mending
import CardEffects.Proofs.Plan.Ranking
import CardEffects.Proofs.Reading.Search

namespace CardEffects

/-! ## One set of conditions -/

/-- What the changes reported for one participant did to its conditions. -/
structure Afflicted (turn : Word) (who : Participant) (cs : List ConditionChange)
    (s s' : Conditions) : Prop where
  /-- What was in force is in force as it was, and since the same turn.  Besides, what was
  applied is in force from this turn on, and nothing else is. -/
  get? : ∀ c, s'.get? c
    = (s.get? c).or (if ⟨c, who, .applied⟩ ∈ cs then some ⟨c, turn⟩ else none)
  /-- Nothing is applied that was in force before. -/
  fresh : ∀ c, ⟨c, who, .applied⟩ ∈ cs → s.contains c = false
  /-- Nothing is applied twice. -/
  once : ∀ c, cs.count ⟨c, who, .applied⟩ ≤ 1
  /-- What is reported as present was in force, or had been applied by then. -/
  present : ∀ i c, cs[i]? = some ⟨c, who, .alreadyPresent⟩ →
    s.contains c = true ∨ ⟨c, who, .applied⟩ ∈ cs.take i

namespace Afflicted

variable {turn : Word} {who : Participant} {cs ds : List ConditionChange}
  {s s' s'' : Conditions}

/-- In force afterwards is what was in force before, and what was applied. -/
theorem contains_iff (h : Afflicted turn who cs s s') (c : Condition) :
    s'.contains c = true ↔ s.contains c = true ∨ ⟨c, who, .applied⟩ ∈ cs := by
  show (s'.get? c).isSome = true ↔ (s.get? c).isSome = true ∨ _
  rw [h.get? c]
  by_cases hc : (⟨c, who, .applied⟩ : ConditionChange) ∈ cs <;> simp [hc]

/-- Changes reported for others do nothing to this one. -/
theorem of_others (h : ∀ x ∈ cs, x.target ≠ who) (s : Conditions) :
    Afflicted turn who cs s s := by
  have hnone : ∀ c outcome, (⟨c, who, outcome⟩ : ConditionChange) ∉ cs := by
    intro c outcome hmem
    exact h _ hmem rfl
  constructor
  case get? =>
    intro c
    rw [if_neg (hnone c .applied), Option.or_none]
  case fresh => exact fun c hc => absurd hc (hnone c .applied)
  case once =>
    intro c
    rw [List.count_eq_zero.2 (hnone c .applied)]
    exact Nat.zero_le 1
  case present => exact fun i c hc => absurd (List.mem_of_getElem? hc) (hnone c .alreadyPresent)

/-- Inflicting a condition reports what comes of it. -/
theorem of_insert (s : Conditions) (c : Condition) :
    Afflicted turn who [⟨c, who, (s.insert c turn).1⟩] s (s.insert c turn).2 := by
  unfold Conditions.insert
  cases hc : s.contains c with
  | true =>
    -- in force already: it stays, and nothing is applied
    have hnone : ∀ d, (⟨d, who, .applied⟩ : ConditionChange) ∉ [⟨c, who, .alreadyPresent⟩] := by
      intro d
      simp
    rw [if_pos rfl]
    constructor
    case get? =>
      intro d
      rw [if_neg (hnone d), Option.or_none]
    case fresh => exact fun d hd => absurd hd (hnone d)
    case once =>
      intro d
      rw [List.count_eq_zero.2 (hnone d)]
      exact Nat.zero_le 1
    case present =>
      intro i d hd
      have hmem := List.mem_of_getElem? hd
      simp only [List.mem_singleton, ConditionChange.mk.injEq, and_true] at hmem
      exact .inl (hmem ▸ hc)
  | false =>
    -- new: its entry is put where there was none
    have hmem : ∀ d, (⟨d, who, .applied⟩ : ConditionChange) ∈ [⟨c, who, .applied⟩] ↔ d = c := by
      intro d
      simp
    have hnone : s.get? c = none := by
      rw [← Option.not_isSome_iff_eq_none]
      show ¬ s.contains c = true
      rw [hc]
      exact Bool.false_ne_true
    rw [if_neg Bool.false_ne_true]
    constructor
    case get? =>
      intro d
      show (s.active.insert c ⟨c, turn⟩).get? d = _
      rw [EnumMap.get?_insert, if_congr (hmem d) rfl rfl]
      by_cases hd : d = c
      · rw [if_pos hd, if_pos hd, hd, hnone, Option.none_or]
      · rw [if_neg hd, if_neg hd, Option.or_none]
        rfl
    case fresh => exact fun d hd => (hmem d).1 hd ▸ hc
    case once => exact fun d => List.count_le_length
    case present =>
      intro i d hd
      have hmem := List.mem_of_getElem? hd
      simp at hmem

/-- Two reports in turn are one. -/
theorem trans (h : Afflicted turn who cs s s') (h' : Afflicted turn who ds s' s'') :
    Afflicted turn who (cs ++ ds) s s'' := by
  constructor
  case get? =>
    intro c
    rw [h'.get? c, h.get? c, Option.or_assoc]
    congr 1
    by_cases hcs : (⟨c, who, .applied⟩ : ConditionChange) ∈ cs <;> simp [hcs]
  case fresh =>
    intro c hc
    rcases List.mem_append.1 hc with hc | hc
    · exact h.fresh c hc
    · -- new to what the first report left, so new to what it started from
      have hnew := h'.fresh c hc
      rw [← Bool.not_eq_true] at hnew ⊢
      exact fun hold => hnew ((h.contains_iff c).2 (.inl hold))
  case once =>
    intro c
    rw [List.count_append]
    by_cases hcs : (⟨c, who, .applied⟩ : ConditionChange) ∈ cs
    · -- applied in the first, it is in force in the second
      have hds : (⟨c, who, .applied⟩ : ConditionChange) ∉ ds := by
        intro hc
        have hnew := h'.fresh c hc
        rw [(h.contains_iff c).2 (.inr hcs)] at hnew
        cases hnew
      rw [List.count_eq_zero.2 hds]
      exact h.once c
    · rw [List.count_eq_zero.2 hcs, Nat.zero_add]
      exact h'.once c
  case present =>
    intro i c hc
    rw [List.getElem?_append] at hc
    rw [List.take_append, List.mem_append]
    split at hc
    · rcases h.present i c hc with hold | happlied
      · exact .inl hold
      · exact .inr (.inl happlied)
    next hi =>
      have htake : cs.take i = cs := List.take_of_length_le (Nat.not_lt.1 hi)
      rw [htake]
      rcases h'.present _ c hc with hold | happlied
      · -- in force between the two reports: from the start, or by the first
        rcases (h.contains_iff c).1 hold with hold | happlied
        · exact .inl hold
        · exact .inr (.inl happlied)
      · exact .inr (.inr happlied)

end Afflicted

/-! ## Both sides -/

/-- The changes reported account for the conditions on a board: those of both active Pokémon
changed by what is reported for them, and nothing is reported for a bench, or for a defender
where there is none. -/
structure ConditionLedger (turn : Word) (b : Board) (cs : List ConditionChange) (b' : Board) :
    Prop where
  attacker : Afflicted turn .attacker cs b.attacker.conditions b'.attacker.conditions
  defender : Option.Rel (fun d d' => Afflicted turn .defender cs d.conditions d'.conditions)
    b.defender b'.defender
  target : ∀ x ∈ cs, x.target = .attacker ∨ x.target = .defender ∧ b.defender.isSome = true

namespace ConditionLedger

variable {turn : Word} {b b' b'' : Board} {cs ds : List ConditionChange}

/-- Conditions left alone need no report. -/
theorem of_same (hattacker : b'.attacker.conditions = b.attacker.conditions)
    (hdefender : Option.Rel (fun d d' => d'.conditions = d.conditions) b.defender b'.defender) :
    ConditionLedger turn b [] b' where
  attacker := hattacker ▸ .of_others (by simp) _
  defender := optionRel_imp hdefender fun _ _ hd => hd ▸ .of_others (by simp) _
  target := by simp

/-- Nothing that happens to the rest of the acting side, and no coin, is part of the account. -/
theorem of_attacker {m : Combatant} (coins : Coins) (h : m.conditions = b.attacker.conditions) :
    ConditionLedger turn b [] { b with attacker := m, coins } :=
  have hsame : ∀ d : Combatant, d.conditions = d.conditions := fun _ => rfl
  of_same h (optionRel_refl hsame b.defender)

/-- Coins are no part of the account. -/
theorem idle (b : Board) (coins : Coins) : ConditionLedger turn b [] { b with coins } :=
  of_attacker coins rfl

/-- A Pokémon whose conditions are left alone is put in its own place. -/
theorem of_put {side : Side} {m m' : Combatant} (coins : Coins) (hm : b.active? side = some m)
    (h : m'.conditions = m.conditions) :
    ConditionLedger turn b [] { b.put side m' with coins } := by
  have hput := Board.rel_put (R := fun d d' => d'.conditions = d.conditions) (fun _ => rfl) hm h
  exact of_same hput.1 hput.2

/-- The accounts of two effects, the second after the first, are one. -/
theorem trans (h : ConditionLedger turn b cs b') (h' : ConditionLedger turn b' ds b'') :
    ConditionLedger turn b (cs ++ ds) b'' where
  attacker := h.attacker.trans h'.attacker
  defender := optionRel_trans h.defender h'.defender fun _ _ _ => .trans
  target := by
    intro x hx
    rcases List.mem_append.1 hx with hx | hx
    · exact h.target x hx
    · -- a defender is there throughout, or not at all
      refine (h'.target x hx).imp_right fun hdefender => ⟨hdefender.1, ?_⟩
      obtain ⟨d', hd'⟩ := Option.isSome_iff_exists.1 hdefender.2
      obtain ⟨d, hd, -⟩ := exists_of_optionRel_some (hd' ▸ h.defender)
      rw [hd]
      rfl

/-- A condition inflicted on one side is reported for that side. -/
theorem of_inflict {side : Side} {m : Combatant} (coins : Coins) (c : Condition)
    (hm : b.active? side = some m) :
    ConditionLedger turn b [⟨c, side.participant, (m.inflict c turn).1⟩]
      { b.put side (m.inflict c turn).2 with coins } := by
  cases side with
  | own =>
    -- the report names the other side nowhere, whether there is one or not
    obtain rfl := Option.some.inj hm
    refine ⟨.of_insert _ c, optionRel_refl (fun d => ?_) _, ?_⟩
    · exact .of_others (by simp [Side.participant]) d.conditions
    · simp [Side.participant]
  | opponent =>
    have hd : b.defender = some m := hm
    refine ⟨.of_others (by simp [Side.participant]) b.attacker.conditions, ?_, ?_⟩
    · rw [hd]
      exact .some (.of_insert _ c)
    · simp [Side.participant, hd]

/-- Whatever an effect does to a board, the changes it reports account for the conditions. -/
theorem of_deed {s : Setting} {o : Outcome} (h : Deed s b o b') :
    ConditionLedger s.turn b o.conditionChanges b' := by
  cases h with
  | idle coins report =>
    rw [report.conditionChanges]
    exact idle b coins
  | inflicted coins c active report =>
    rw [report.conditionChanges]
    exact of_inflict coins c active
  | healed coins target amount report =>
    rw [report.conditionChanges]
    exact of_attacker coins (by cases target <;> rfl)
  | attached coins energy pos report =>
    rw [report.conditionChanges]
    exact of_attacker coins rfl
  | waiting coins energy pos report =>
    rw [report.conditionChanges]
    exact idle b coins
  | discarded drawn d active report =>
    rw [report.conditionChanges]
    exact of_put _ active rfl

end ConditionLedger

/-! ## Runs -/

namespace Registry

variable (reg : Registry) (s : Setting)

/-- A step carries the account on; an effect that is skipped adds nothing. -/
theorem conditionLedger_step {b b' : Board} {r : Resolution}
    (h : ConditionLedger s.turn b r.conditionChanges b') (e : Effect) :
    ConditionLedger s.turn b (reg.step s r b' e).1.conditionChanges (reg.step s r b' e).2 := by
  cases hneg : r.negated with
  | true =>
    -- after a cancellation the effect is only recorded as skipped
    rw [step_of_negated reg s b' e hneg]
    exact h
  | false =>
    rw [step_of_going reg s b' e hneg]
    exact h.trans (.of_deed (reg.deed_execute s b' e))

theorem conditionLedger_run (b : Board) (base : Word) (es : List Effect) :
    ConditionLedger s.turn b (reg.run s b base es).1.conditionChanges (reg.run s b base es).2 :=
  runFrom_induction (P := fun r b' => ConditionLedger s.turn b r.conditionChanges b')
    (.idle b b.coins) fun e _ _ _ h => reg.conditionLedger_step s h e

end Registry

/-! ## Texts -/

namespace Engine

/-- Damage takes hit points, and no condition. -/
theorem conditionLedger_dealDamage {turn : Word} {b b' : Board} {r : Resolution} (c : Config)
    (h : ConditionLedger turn b r.conditionChanges b') :
    ConditionLedger turn b (dealDamage c r b').1.conditionChanges (dealDamage c r b').2 := by
  unfold dealDamage
  split
  · exact h
  next d hd =>
    split
    · -- the defender that is hit keeps its conditions
      have hhit : ConditionLedger turn b' []
          { b' with defender := some (d.takeDamage r.total).2 } := by
        refine .of_same rfl ?_
        rw [hd]
        exact .some rfl
      have hboth := h.trans hhit
      rw [List.append_nil] at hboth
      exact hboth
    · exact h

theorem conditionLedger_run (g : Engine) (turn : Word) (attack : Option Attack) (b : Board)
    (text : String) (base : Word) :
    ConditionLedger turn b (g.run turn attack b text base).1.conditionChanges
      (g.run turn attack b text base).2 := by
  rw [run_eq]
  exact conditionLedger_dealDamage g.config (g.registry.conditionLedger_run
    { config := g.config, turn, attack } b base (Plan.ofText text).kept)

/-- **The condition ledger.**  For any text, attack or ability that is carried out, whatever the
handlers in place, the settings, the coins and the board: the conditions of both active Pokémon
are those they had, as they were, and those that the resolution reports as applied, in force from
this turn on.  None goes, none is applied that was in force or that was applied already, and what
is reported as present was in force at that moment. -/
theorem Resolves.conditionLedger {g : Engine} {turn : Word} {b : Board} {text : String}
    {r : Resolution} {b' : Board} (h : g.Resolves turn b text (r, b')) :
    ConditionLedger turn b r.conditionChanges b' := by
  rcases h.stopped_or_run with ⟨base, flips, reason, coins, hout⟩ | ⟨coins, attack, base, hout⟩
  · -- an attack that is stopped inflicts nothing
    obtain ⟨rfl, rfl⟩ := Prod.mk.inj hout
    exact .idle b coins
  · obtain ⟨rfl, rfl⟩ := Prod.mk.inj hout
    have hledger := g.conditionLedger_run turn attack { b with coins } text base
    exact ⟨hledger.attacker, hledger.defender, hledger.target⟩

/-! ### Asleep for poison -/

/-- One condition for each side. -/
def drowsyText : String :=
  "This Pokémon is now Asleep. Your opponent's Active Pokémon is now Poisoned."

/-- A board whose defender has been poisoned since turn 2. -/
def poisonedBoard : Board where
  attacker := .new "Charmander" .fire 100
  defender := some (((Combatant.new "Eevee" .fire 100).inflict .poisoned 2).2)
  coins := .ofSeed 0

theorem kept_drowsyText : (Plan.ofText drowsyText).kept
    = [.conditionApply .asleep .this, .conditionApply .poisoned .opponent] := by
  have heffects : (Reading.ofText drowsyText).effects
      = [.conditionApply .asleep .this, .conditionApply .poisoned .opponent] := by
    refine Clause.effects_ofText (by decide) ?_
    rw [drowsyText, String.toList_ofList]
    decide
  rw [Plan.ofText, heffects, Plan.ofEffects, Plan.inOrder_eq_ranked]
  decide

theorem conditionChanges_drowsyText :
    ((ofConfig .standard).resolveText 5 poisonedBoard drowsyText 0).1.conditionChanges
      = [⟨.asleep, .attacker, .applied⟩, ⟨.poisoned, .defender, .alreadyPresent⟩] := by
  rw [resolveText, run_eq, kept_drowsyText]
  decide

/-- The acting Pokémon is asleep from turn 5 on, and the other still poisoned since turn 2. -/
theorem conditionLedger_drowsyText :
    ((ofConfig .standard).resolveText 5 poisonedBoard drowsyText 0).2.attacker.conditions.get?
        .asleep = some ⟨.asleep, 5⟩
      ∧ ∀ d ∈ ((ofConfig .standard).resolveText 5 poisonedBoard drowsyText 0).2.defender,
          d.conditions.get? .poisoned = some ⟨.poisoned, 2⟩ := by
  have hledger : ConditionLedger 5 poisonedBoard
      ((ofConfig .standard).resolveText 5 poisonedBoard drowsyText 0).1.conditionChanges
      ((ofConfig .standard).resolveText 5 poisonedBoard drowsyText 0).2 :=
    Resolves.conditionLedger (.text 0 (Prod.eta _).symm)
  rw [conditionChanges_drowsyText] at hledger
  constructor
  · rw [hledger.attacker.get? .asleep]
    decide
  · intro d hd
    have hdefender := hledger.defender
    rw [hd, show poisonedBoard.defender
      = some (((Combatant.new "Eevee" .fire 100).inflict .poisoned 2).2) from rfl] at hdefender
    rw [(Option.rel_some_some.1 hdefender).get? .poisoned]
    decide

end Engine

end CardEffects
