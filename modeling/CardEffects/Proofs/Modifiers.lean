/-
  CardEffects.Proofs.Modifiers

  Bonus damage that is not left to coins.  A flat bonus, a bonus for each unit of energy or for each
  Pokémon on a bench, and a bonus on a condition look at the board and leave it as it is.  So each
  of them is worth the same wherever it stands among others of these kinds, and a run of them comes
  to the sum of what they are worth on the board it starts from.

    * `EffectKind.modifiers` — the four kinds.
    * `Effect.worth` — what one of these effects adds on a board.
    * `Effect.apply_modifier` — carrying it out adds that, and changes nothing.
    * `Registry.outcomes_modifiers` — each of several is carried out on the board of the start.
    * `Registry.modifiers_commute` — the law.
-/
import CardEffects.Proofs.Handlers
import Mathlib.Algebra.Ring.Nat

namespace CardEffects

/-- The kinds of bonus damage that no coin decides on. -/
def EffectKind.modifiers : List EffectKind :=
  [.conditionalDamage, .energyScalingDamage, .benchScalingDamage, .damageBonus]

namespace Effect

/-- What an effect of these kinds adds to the damage on a board: so much for each thing counted, up
to the largest amount, or its bonus where its condition holds, if it has one. -/
def worth (s : Setting) (b : Board) : Effect → Nat
  | damageBonus amount => amount.toNat
  | energyScalingDamage each energy source =>
    min ((b.energyCount source energy).toNat * each.toNat) Word.limit
  | benchScalingDamage each side filter => min (b.benchCount side filter * each.toNat) Word.limit
  | conditionalDamage bonus c => if c.holds s b then bonus.toNat else 0
  | _ => 0

/-- The record of an effect of these kinds: it counts when it adds something. -/
def worthRecord (s : Setting) (b : Board) (e : Effect) : EffectRecord :=
  ⟨e.kind, if 0 < e.worth s b then .applied else .noEffect, e.describe⟩

variable (s : Setting) (b : Board)

/-- An effect of these kinds adds what it is worth, and leaves the board as it is. -/
theorem apply_modifier {e : Effect} (h : e.kind ∈ EffectKind.modifiers) :
    ∃ notes, e.apply s b = (.ofBonus e.kind (Word.clamp (e.worth s b)) notes, b) := by
  have hclamp : ∀ n, Word.clamp (min n Word.limit) = Word.clamp n := by
    intro n
    apply Word.ext
    simp only [Word.toNat_clamp]
    omega
  cases e with
  | damageBonus amount => exact ⟨_, by rw [worth, Word.clamp_toNat]; rfl⟩
  | energyScalingDamage each energy source => exact ⟨_, by rw [worth, hclamp]; rfl⟩
  | benchScalingDamage each side filter => exact ⟨_, by rw [worth, hclamp]; rfl⟩
  | conditionalDamage bonus c =>
    rw [apply, Application.conditionalDamage, worth]
    split
    · exact ⟨_, by rw [Word.clamp_toNat]; rfl⟩
    · exact ⟨_, rfl⟩
  | _ => simp [kind, EffectKind.modifiers] at h

theorem worth_le_limit (e : Effect) : e.worth s b ≤ Word.limit := by
  unfold worth
  split
  · exact Word.toNat_le_limit _
  · exact Nat.min_le_right _ _
  · exact Nat.min_le_right _ _
  · split
    · exact Word.toNat_le_limit _
    · exact Nat.zero_le _
  · exact Nat.zero_le _

/-- The outcome of an effect of these kinds: its bonus is what the effect is worth, and nothing
else is reported. -/
theorem outcome_modifier {e : Effect} (h : e.kind ∈ EffectKind.modifiers) :
    (e.apply s b).1.bonus.toNat = e.worth s b
      ∧ (⟨(e.apply s b).1.kind, (e.apply s b).1.status, e.describe⟩ : EffectRecord)
        = e.worthRecord s b
      ∧ (e.apply s b).1.negates = false := by
  obtain ⟨notes, happly⟩ := e.apply_modifier s b h
  have hbonus : (Word.clamp (e.worth s b)).toNat = e.worth s b := by
    rw [Word.toNat_clamp]
    exact Nat.min_eq_left (e.worth_le_limit s b)
  have hpos : 0 < Word.clamp (e.worth s b) ↔ 0 < e.worth s b := by
    rw [UInt32.lt_iff_toNat_lt, hbonus, UInt32.toNat_zero]
  rw [happly]
  refine ⟨hbonus, ?_, rfl⟩
  simp only [Outcome.ofBonus, worthRecord, hpos]

end Effect

/-! ## Runs -/

namespace Registry

variable {reg : Registry} (s : Setting) (b : Board) {es : List Effect}

/-- All the effects are of these kinds, and so are handled as they should be. -/
structure Modifies (reg : Registry) (es : List Effect) : Prop where
  /-- The handlers of these kinds are in place. -/
  handlers : ∀ k ∈ EffectKind.modifiers, reg.get? k = some k
  kinds : ∀ e ∈ es, e.kind ∈ EffectKind.modifiers

theorem Modifies.execute (h : reg.Modifies es) {e : Effect} (he : e ∈ es) :
    reg.execute s b e = ((e.apply s b).1, b) := by
  have hkind := h.kinds e he
  obtain ⟨notes, happly⟩ := e.apply_modifier s b hkind
  rw [execute_of_handles reg s ((reg.handles_iff e).2 (h.handlers _ hkind)), happly]

theorem Modifies.tail {e : Effect} (h : reg.Modifies (e :: es)) : reg.Modifies es :=
  ⟨h.handlers, fun e he => h.kinds e (List.mem_cons_of_mem _ he)⟩

/-- The board stays as it is, so each effect is carried out on that of the start. -/
theorem boardAfter_modifiers (h : reg.Modifies es) : reg.boardAfter s b es = b := by
  induction es with
  | nil => rfl
  | cons e es ih =>
    show reg.boardAfter s (reg.execute s b e).2 es = b
    rw [h.execute s b List.mem_cons_self, ih h.tail]

theorem outcomes_modifiers (h : reg.Modifies es) :
    reg.outcomes s b es = es.map fun e => (e.apply s b).1 := by
  induction es with
  | nil => rfl
  | cons e es ih => rw [outcomes, h.execute s b List.mem_cons_self, ih h.tail, List.map_cons]

/-- No effect of these kinds cancels the attack, so all of them are reached. -/
theorem cancelledAt?_modifiers (h : reg.Modifies es) : reg.cancelledAt? s b es = none := by
  rw [cancelledAt?, outcomes_modifiers s b h, List.findIdx?_eq_none_iff]
  intro o ho
  obtain ⟨e, he, rfl⟩ := List.mem_map.1 ho
  exact (e.outcome_modifier s b (h.kinds e he)).2.2

theorem reached_modifiers (h : reg.Modifies es) : reg.reached s b es = es.length := by
  rw [reached, cancelledAt?_modifiers s b h]

theorem outcomesReached_modifiers (h : reg.Modifies es) :
    reg.outcomesReached s b es = es.map fun e => (e.apply s b).1 := by
  rw [outcomesReached, reached_modifiers s b h, List.take_length, outcomes_modifiers s b h]

/-! ## The law -/

/-- What a run of such effects comes to. -/
structure Additive (base : Word) (es : List Effect) (out : Resolution × Board) : Prop where
  /-- Both sides and the coins are as they were. -/
  board : out.2 = b
  /-- The bonus is what the effects are worth on the board of the start. -/
  bonus : out.1.bonus.toNat = min (es.map (Effect.worth s b)).sum Word.limit
  negated : out.1.negated = false
  total : out.1.total.toNat = min (base.toNat + out.1.bonus.toNat) Word.limit
  /-- The record of each effect is that which it has by itself on the board of the start. -/
  effects : out.1.effects = es.map (Effect.worthRecord s b)

theorem additive_run (h : reg.Modifies es) (base : Word) :
    Additive s b base es (reg.run s b base es) := by
  have hnegated : (reg.run s b base es).1.negated = false := by
    rw [negated_run, cancelledAt?_modifiers s b h]
    rfl
  refine ⟨?_, ?_, hnegated, ?_, ?_⟩
  · rw [run, runFrom_eq reg s b es rfl, reached_modifiers s b h, List.take_length]
    exact boardAfter_modifiers s b h
  · have hworth : Word.sum ((es.map fun e => (e.apply s b).1).map Outcome.bonus)
        = (es.map (Effect.worth s b)).sum := by
      clear hnegated
      induction es with
      | nil => rfl
      | cons e es ih =>
        have he := (e.outcome_modifier s b (h.kinds e List.mem_cons_self)).1
        simp only [List.map_cons, Word.sum_cons, List.sum_cons, he, ih h.tail]
    rw [reg.sums_run s b Resolution.bonus (fun _ _ _ => rfl) base rfl (fun _ _ => rfl) es,
      outcomesReached_modifiers s b h, hworth]
  · have htotal : (reg.run s b base es).1.total = (reg.run s b base es).1.damage :=
      reg.total_runFrom s b es (total_start base)
    have hbase : (reg.run s b base es).1.base = base :=
      reg.keeps_run s b Resolution.base (fun _ _ _ => rfl) (fun _ _ => rfl) base es
    rw [htotal, Resolution.damage, hnegated, hbase]
    exact Word.toNat_add _ _
  · rw [effects_run, reached_modifiers s b h, List.drop_length, List.map_nil, List.append_nil,
      outcomesReached_modifiers s b h, List.zipWith_map_left, List.zipWith_self]
    exact List.map_congr_left fun e he => (e.outcome_modifier s b (h.kinds e he)).2.1

end Registry

/-! ### Four bonuses, forwards and backwards -/

/-- A damaged Pokémon with three units of energy faces a burned one with one Pokémon on its
bench. -/
def rallyBoard : Board where
  attacker := { (Combatant.new "Charmander" .fire 60).withHp 40 with
    energy := .ofUnits [(.fire, 2), (.water, 1)] }
  defender := some (((Combatant.new "Eevee" .fighting 70).inflict .burned 1).2.withBench
    (.new "Pidgey" 50))
  coins := .ofSeed 7

/-- One bonus of each kind, the flat one all but the largest amount. -/
def rallyEffects : List Effect :=
  [.damageBonus 4294967200, .energyScalingDamage 20 (some .fire) .own,
    .conditionalDamage 30 (.targetHasCondition (some .burned)),
    .benchScalingDamage 10 .opponent none]

end CardEffects
