/-
  CardEffects.Proofs.Run

  Runs of effects, and the ways into them.

    * `Registry.runFrom_induction` — what every step keeps, a run keeps.
    * `Registry.runFrom_congr` — a run depends on the setting only as far as its effects do.
    * `Registry.runFrom_of_negated` — once the attack is cancelled, a run records skipped
      effects and does nothing else.
    * `Engine.Resolves` — the resolutions of a text by itself, of an attack and of an ability,
      and `Engine.Resolves.cases`: each is a run, from the same board with other coins, or an
      attack that did not get past the gate.
-/
import CardEffects.Engine

namespace CardEffects

/-! ## Runs -/

namespace Registry

/-- With all handlers in place an effect is carried out by its own. -/
@[simp] theorem execute_standard (s : Setting) (b : Board) (e : Effect) :
    standard.execute s b e = e.apply s b := by
  simp [execute, get?, standard]

theorem runFrom_nil (reg : Registry) (s : Setting) (r : Resolution) (b : Board) :
    reg.runFrom s r b [] = (r, b) := rfl

theorem runFrom_cons (reg : Registry) (s : Setting) (r : Resolution) (b : Board) (e : Effect)
    (es : List Effect) :
    reg.runFrom s r b (e :: es)
      = reg.runFrom s (reg.step s r b e).1 (reg.step s r b e).2 es := rfl

theorem step_of_negated (reg : Registry) (s : Setting) {r : Resolution} (b : Board) (e : Effect)
    (h : r.negated = true) : reg.step s r b e = (r.skip e, b) := by
  rw [step, if_pos h]

theorem step_of_not_negated (s : Setting) {r : Resolution} (b : Board) (e : Effect)
    (h : r.negated = false) :
    standard.step s r b e = (r.absorb (e.apply s b).1 e.describe, (e.apply s b).2) := by
  rw [step, if_neg (by simp [h]), execute_standard]

/-- What holds of the start and is kept by the steps of the effects holds of the end. -/
theorem runFrom_induction {reg : Registry} {s : Setting} {P : Resolution → Board → Prop}
    {es : List Effect} {r : Resolution} {b : Board} (start : P r b)
    (step : ∀ e ∈ es, ∀ r b, P r b → P (reg.step s r b e).1 (reg.step s r b e).2) :
    P (reg.runFrom s r b es).1 (reg.runFrom s r b es).2 := by
  -- along the effects; the property is carried to the start of the rest
  induction es generalizing r b with
  | nil => exact start
  | cons e es ih =>
    rw [runFrom_cons]
    exact ih (step e List.mem_cons_self r b start) fun e he =>
      step e (List.mem_cons_of_mem _ he)

/-- Where each effect does the same in two settings, a run of them does. -/
theorem runFrom_congr {s s' : Setting} {es : List Effect} (reg : Registry)
    (h : ∀ e ∈ es, ∀ b, e.apply s b = e.apply s' b) (r : Resolution) (b : Board) :
    reg.runFrom s r b es = reg.runFrom s' r b es := by
  induction es generalizing r b with
  | nil => rfl
  | cons e es ih =>
    obtain ⟨he, hes⟩ := List.forall_mem_cons.1 h
    have hstep : reg.step s r b e = reg.step s' r b e := by
      unfold step execute
      rw [he b]
    rw [runFrom_cons, runFrom_cons, hstep, ih hes]

/-- Behind a cancelled attack every effect is recorded as skipped, and that is all. -/
theorem runFrom_of_negated (reg : Registry) (s : Setting) {r : Resolution} (b : Board)
    (es : List Effect) (h : r.negated = true) :
    reg.runFrom s r b es
      = ({ r with effects := r.effects ++ es.map fun e => ⟨e.kind, .skipped, e.describe⟩ }, b) := by
  induction es generalizing r with
  | nil => rw [runFrom_nil, List.map_nil, List.append_nil]
  | cons e es ih =>
    have hskip : (r.skip e).negated = true := h
    rw [runFrom_cons, step_of_negated reg s b e h, ih hskip]
    simp only [Resolution.skip, List.append_assoc, List.singleton_append, List.map_cons]

/-- A run keeps the total up to date. -/
theorem total_runFrom (reg : Registry) (s : Setting) {r : Resolution} (b : Board)
    (es : List Effect) (h : r.total = r.damage) :
    (reg.runFrom s r b es).1.total = (reg.runFrom s r b es).1.damage := by
  refine runFrom_induction (P := fun r _ => r.total = r.damage) h ?_
  intro e _ r b h
  unfold step
  split
  · exact h
  · rfl

/-- The start has its base as total. -/
theorem total_start (base : Word) :
    (Resolution.start base).total = (Resolution.start base).damage := by
  show base = Word.add base 0
  rw [Word.add_zero]

end Registry

/-! ## Texts -/

namespace Engine

theorem dealDamage_fst (c : Config) (r : Resolution) (b : Board) :
    (dealDamage c r b).1.negated = r.negated
      ∧ (dealDamage c r b).1.energyChanges = r.energyChanges
      ∧ (dealDamage c r b).1.pending = r.pending := by
  unfold dealDamage
  split
  · exact ⟨rfl, rfl, rfl⟩
  · split <;> exact ⟨rfl, rfl, rfl⟩

private theorem dealDamage_snd (c : Config) (r : Resolution) (b : Board) :
    (dealDamage c r b).2 = b
      ∨ ∃ d hp, b.defender = some d ∧ 0 < r.total
          ∧ (dealDamage c r b).2 = { b with defender := some { d with hp } } := by
  unfold dealDamage
  split
  · exact .inl rfl
  next d hd =>
    split
    next h => exact .inr ⟨d, _, hd, h.2, rfl⟩
    · exact .inl rfl

/-- A text is carried out by running what its plan keeps; then the damage is dealt. -/
theorem run_eq (g : Engine) (turn : Word) (attack : Option Attack) (b : Board) (text : String)
    (base : Word) :
    g.run turn attack b text base
      = let out := g.registry.run { config := g.config, turn, attack } b base
          (Plan.ofText text).kept
        dealDamage g.config
          { out.1 with trace := out.1.trace ++ (Plan.ofText text).dropped.map Dropped.traceLine }
          out.2 := rfl

/-- What the kept effects of a text come to, before damage is dealt. -/
def effectsOf (c : Config) (turn : Word) (attack : Option Attack) (b : Board) (text : String)
    (base : Word) : Resolution × Board :=
  Registry.standard.run { config := c, turn, attack } b base (Plan.ofText text).kept

variable (c : Config) (turn : Word) (attack : Option Attack) (b : Board) (text : String)
  (base : Word)

/-- Dealing damage reports it, and changes nothing else that the effects of a text reported. -/
theorem run_fst :
    ((ofConfig c).run turn attack b text base).1.negated
        = (effectsOf c turn attack b text base).1.negated
      ∧ ((ofConfig c).run turn attack b text base).1.energyChanges
        = (effectsOf c turn attack b text base).1.energyChanges
      ∧ ((ofConfig c).run turn attack b text base).1.pending
        = (effectsOf c turn attack b text base).1.pending :=
  dealDamage_fst c _ _

/-- Damage is dealt to the hit points of the defender, and only when the total is not zero. -/
theorem run_snd :
    ((ofConfig c).run turn attack b text base).2 = (effectsOf c turn attack b text base).2
      ∨ ∃ d hp, (effectsOf c turn attack b text base).2.defender = some d
          ∧ 0 < (effectsOf c turn attack b text base).1.total
          ∧ ((ofConfig c).run turn attack b text base).2
            = { (effectsOf c turn attack b text base).2 with defender := some { d with hp } } :=
  dealDamage_snd c _ _

/-- A cancelled text has no damage to deal. -/
theorem total_effectsOf (h : (effectsOf c turn attack b text base).1.negated = true) :
    (effectsOf c turn attack b text base).1.total = 0 := by
  have htotal : (effectsOf c turn attack b text base).1.total
      = (effectsOf c turn attack b text base).1.damage :=
    Registry.total_runFrom _ _ b _ (Registry.total_start base)
  rw [htotal, Resolution.damage, if_pos h]

/-! ## The ways in -/

/-- What the engine makes of a board when it carries out a text: by itself, as an attack that a
card has, or as an ability that a card has. -/
inductive Resolves (g : Engine) (turn : Word) (b : Board) (text : String)
    (out : Resolution × Board) : Prop where
  | text (base : Word) (h : g.resolveText turn b text base = out)
  | attack (card : Card) (index : Nat) (a : Attack) (ha : card.attacks[index]? = some a)
      (htext : a.effect = text) (h : g.resolveAttack turn b card index = .ok out)
  | ability (card : Card) (index : Nat) (a : Ability) (ha : card.abilities[index]? = some a)
      (htext : a.effect = text) (h : g.resolveAbility turn b card index = .ok out)

/-- An attack that is blocked or fails because of confusion does nothing but flip a coin. -/
structure Stopped (b : Board) (out : Resolution × Board) : Prop where
  negated : out.1.negated = true
  energyChanges : out.1.energyChanges = []
  pending : out.1.pending = []
  board : ∃ coins, out.2 = { b with coins }

/-- An attack of the board is stopped, or it is the run of its text with the coins left. -/
theorem attack_cases (g : Engine) (turn : Word) (b : Board) (a : Attack) :
    Stopped b (g.attack turn b a)
      ∨ ∃ coins, g.attack turn b a
          = g.run turn (some a) { b with coins } a.effect a.damage := by
  have hflip : ∃ coins, (g.confusionFlip b).2 = { b with coins } := by
    unfold confusionFlip
    split
    · exact ⟨_, rfl⟩
    · exact ⟨b.coins, rfl⟩
  obtain ⟨coins, hcoins⟩ := hflip
  unfold attack
  split
  · exact .inl ⟨rfl, rfl, rfl, b.coins, rfl⟩
  · -- the flip for confusion stops the attack, or leaves it its coins
    split
    next b' h =>
      have hb' : b' = { b with coins } := by rw [← hcoins, h]
      exact .inl ⟨rfl, rfl, rfl, coins, hb'⟩
    next b' _ h =>
      have hb' : b' = { b with coins } := by rw [← hcoins, h]
      exact .inr ⟨coins, by rw [hb']⟩

theorem Resolves.cases {g : Engine} {turn : Word} {b : Board} {text : String}
    {out : Resolution × Board} (h : g.Resolves turn b text out) :
    Stopped b out
      ∨ ∃ coins attack base, g.run turn attack { b with coins } text base = out := by
  cases h with
  | text base h => exact .inr ⟨b.coins, none, base, h⟩
  | attack card index a ha htext h =>
    rw [resolveAttack, ha] at h
    obtain rfl := Except.ok.inj h
    -- the coins of the run are those left by the flip for confusion
    rcases attack_cases g turn b a with hstop | ⟨coins, hrun⟩
    · exact .inl hstop
    · exact .inr ⟨coins, some a, a.damage, by rw [hrun, htext]⟩
  | ability card index a ha htext h =>
    rw [resolveAbility, ha] at h
    obtain rfl := Except.ok.inj h
    exact .inr ⟨b.coins, none, 0, by rw [← htext]⟩

end Engine

end CardEffects
