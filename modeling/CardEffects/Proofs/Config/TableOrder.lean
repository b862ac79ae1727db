/-
  CardEffects.Proofs.Config.TableOrder

  Only valid settings get in, and for those the order of the table of rules is of no account.  The
  table is never read but by looking up the rule for a condition; so two tables that answer every
  look-up alike play every battle alike, and a table with one rule for each condition answers alike
  in any order.

    * `ConditionRules.PlaysAs` — tables that answer every look-up alike.
    * `ConditionRules.playsAs_of_perm` — a table with one rule for each condition, reordered.
    * `Battle.play_withRules` — a battle in which one table stands for the other: every operation
      answers the same and leaves the same battle.
    * `Admission`, `admission` — what valid settings are, who accepts them, and their reordering.
-/
import CardEffects.Battle
import CardEffects.Proofs.Config.Validity
import CardEffects.Proofs.Run

namespace CardEffects

/-! ## Tables that answer alike -/

namespace ConditionRules

/-- The rule looked up for each condition is the same in both tables. -/
def PlaysAs (t t' : ConditionRules) : Prop := ∀ k, t.rule k = t'.rule k

variable {t t' : ConditionRules}

/-- With one rule for each condition, a table answers the same in any order. -/
theorem playsAs_of_perm (hone : ∀ k, (t.rulesFor k).length = 1) (h : t'.rules.Perm t.rules) :
    t'.PlaysAs t := by
  intro k
  have hfor : (t'.rulesFor k).Perm [t.rule k] := by
    rw [← rulesFor_eq_of_length t k (hone k)]
    exact h.filter _
  rw [rule_eq, List.perm_singleton.1 hfor]
  rfl

theorem PlaysAs.gate_eq (h : t'.PlaysAs t) (m : Combatant) (action : Action) :
    t'.gate m action = t.gate m action := by
  have hblockers : t'.blockers m action = t.blockers m action :=
    List.filter_congr fun c _ => by rw [h c]
  rw [gate, hblockers, gate]

theorem PlaysAs.checkOne_eq (h : t'.PlaysAs t) (turn : Word) (m : Combatant) (coins : Coins)
    (c : Condition) : t'.checkOne turn m coins c = t.checkOne turn m coins c := by
  unfold checkOne
  rw [h c]

theorem PlaysAs.checkEach_eq (h : t'.PlaysAs t) (turn : Word) (m : Combatant) (coins : Coins)
    (cs : List Condition) : t'.checkEach turn m coins cs = t.checkEach turn m coins cs := by
  -- along the conditions; each check leaves both tables with the same Pokémon and coins
  induction cs generalizing m coins with
  | nil => rfl
  | cons c cs ih => simp only [checkEach, h.checkOne_eq, ih]

theorem PlaysAs.betweenTurns_eq (h : t'.PlaysAs t) (turn : Word) (m : Combatant) (coins : Coins) :
    t'.betweenTurns turn m coins = t.betweenTurns turn m coins :=
  h.checkEach_eq turn m coins m.conditions.kinds

/-- Of what is done to a Pokémon by hand, only the check between turns looks rules up. -/
theorem PlaysAs.apply_eq (h : t'.PlaysAs t) (m : Combatant) (coins : Coins) (i : Intervention) :
    i.apply t' m coins = i.apply t m coins := by
  cases i with
  | check turn => rw [Intervention.apply, h.betweenTurns_eq, Intervention.apply]
  | _ => rfl

end ConditionRules

/-! ## Battles by another table -/

/-- The settings with another table. -/
def Config.withRules (c : Config) (t : ConditionRules) : Config := { c with conditionRules := t }

/-- The engine with another table. -/
def Engine.withRules (g : Engine) (t : ConditionRules) : Engine :=
  { g with config := g.config.withRules t }

/-- The battle with another table. -/
def Battle.withRules (g : Battle) (t : ConditionRules) : Battle :=
  { g with engine := g.engine.withRules t }

/-- No effect looks rules up. -/
theorem Effect.apply_withRules (c : Config) (t : ConditionRules) (turn : Word)
    (attack : Option Attack) (e : Effect) (b : Board) :
    e.apply { config := c.withRules t, turn, attack } b
      = e.apply { config := c, turn, attack } b := by
  cases e with
  | conditionalDamage bonus condition =>
    cases condition with
    | targetHasCondition condition => cases condition <;> rfl
    | _ => rfl
  | coinFlipDamage coins perHeads => cases coins <;> rfl
  | coinFlipEnergy coins perHeads energy target => cases coins <;> rfl
  | coinFlipConditional coins wanted consequence => cases consequence <;> rfl
  | _ => rfl

theorem Registry.run_withRules (reg : Registry) (c : Config) (t : ConditionRules) (turn : Word)
    (attack : Option Attack) (b : Board) (base : Word) (es : List Effect) :
    reg.run { config := c.withRules t, turn, attack } b base es
      = reg.run { config := c, turn, attack } b base es :=
  reg.runFrom_congr (fun e _ b => e.apply_withRules c t turn attack b) _ _

namespace Engine

variable (g : Engine) (turn : Word) (b : Board)

theorem run_withRules (t : ConditionRules) (attack : Option Attack) (text : String) (base : Word) :
    (g.withRules t).run turn attack b text base = g.run turn attack b text base := by
  unfold run
  dsimp only
  rw [show (g.withRules t).config = g.config.withRules t from rfl, Registry.run_withRules]
  rfl

variable {g} {t : ConditionRules} (h : t.PlaysAs g.config.conditionRules)
include h

theorem attack_withRules (a : Attack) :
    (g.withRules t).attack turn b a = g.attack turn b a := by
  have hgate : (g.withRules t).config.conditionRules.gate b.attacker .attack
      = g.config.conditionRules.gate b.attacker .attack := h.gate_eq b.attacker .attack
  have hflip : (g.withRules t).confusionFlip b = g.confusionFlip b := rfl
  unfold attack
  rw [hgate, hflip]
  simp only [run_withRules]

theorem call_withRules (call : Call) : (g.withRules t).call turn b call = g.call turn b call := by
  cases call with
  | text text base => exact congrArg Except.ok (g.run_withRules turn b t none text base)
  | attack card index =>
    simp only [Engine.call, resolveAttack, attack_withRules turn b h]
  | ability card index =>
    simp only [Engine.call, resolveAbility, run_withRules]

end Engine

namespace Battle

variable {g : Battle} {t : ConditionRules}

/-- One operation answers the same by either table, and leaves the same battle. -/
theorem perform_withRules (h : t.PlaysAs g.engine.config.conditionRules) (op : Operation) :
    (g.withRules t).perform op = ((g.perform op).1, (g.perform op).2.withRules t) := by
  cases op with
  | call turn call =>
    have hcall : (g.withRules t).engine.call turn (g.withRules t).board call
        = g.engine.call turn g.board call := Engine.call_withRules turn g.board h call
    unfold perform
    dsimp only
    rw [hcall]
    cases g.engine.call turn g.board call <;> rfl
  | execute turn attack effects base =>
    have hrun := g.engine.registry.run_withRules g.engine.config t turn attack g.board base effects
    unfold perform
    dsimp only
    exact congrArg (fun out : Resolution × Board =>
      (Answer.resolution out.1, (g.withBoard out.2).withRules t)) hrun
  | handle turn attack effect =>
    have hexecute : g.engine.registry.execute ((g.withRules t).setting turn attack) g.board effect
        = g.engine.registry.execute (g.setting turn attack) g.board effect := by
      unfold Registry.execute
      rw [show effect.apply ((g.withRules t).setting turn attack) g.board
        = effect.apply (g.setting turn attack) g.board
        from effect.apply_withRules g.engine.config t turn attack g.board]
    unfold perform
    dsimp only
    exact congrArg (fun out : Outcome × Board =>
      (Answer.outcome out.1, (g.withBoard out.2).withRules t)) hexecute
  | flip count => cases count <;> rfl
  | intervene side i =>
    have hactive : (g.withRules t).board.active? side = g.board.active? side := rfl
    unfold perform
    dsimp only
    rw [hactive]
    cases g.board.active? side with
    | none => rfl
    | some m =>
      have happly : i.apply (g.withRules t).engine.config.conditionRules m g.board.coins
          = i.apply g.engine.config.conditionRules m g.board.coins := h.apply_eq m g.board.coins i
      exact congrArg (fun out : Answer × Combatant × Coins =>
        (out.1, (g.withBoard { g.board.put side out.2.1 with coins := out.2.2 }).withRules t))
        happly
  | swap =>
    unfold perform
    dsimp only
    rw [show (g.withRules t).board = g.board from rfl]
    cases g.board.swap? <;> rfl
  | unregister kind => rfl
  | moveHandler kind place =>
    unfold perform
    dsimp only
    rw [show (g.withRules t).engine.registry = g.engine.registry from rfl]
    cases g.engine.registry.move? kind place <;> rfl

/-- No operation changes the settings. -/
theorem config_perform (g : Battle) (op : Operation) :
    (g.perform op).2.engine.config = g.engine.config := by
  cases op with
  | call turn call =>
    unfold perform
    dsimp only
    split <;> rfl
  | intervene side i =>
    unfold perform
    dsimp only
    split <;> rfl
  | swap =>
    unfold perform
    dsimp only
    split <;> rfl
  | moveHandler kind place =>
    unfold perform
    dsimp only
    split <;> rfl
  | _ => rfl

/-- A whole battle is the same by either table. -/
theorem play_withRules (h : t.PlaysAs g.engine.config.conditionRules) (ops : List Operation) :
    (g.withRules t).play ops = ((g.play ops).1, (g.play ops).2.withRules t) := by
  -- operation by operation; what is left is again one battle by two tables
  induction ops generalizing g with
  | nil => rfl
  | cons op ops ih =>
    have hrest : t.PlaysAs (g.perform op).2.engine.config.conditionRules := by
      rw [config_perform]
      exact h
    unfold play
    dsimp only
    rw [perform_withRules h]
    dsimp only
    rw [ih hrest]

end Battle

/-! ## Settings -/

/-- What is done with settings by another table is the same: it is valid, every rule looked up is
the same, and so are what conditions prevent and every battle, with any handlers and on any
board. -/
structure Config.SamePlay (c : Config) (t : ConditionRules) : Prop where
  valid : (c.withRules t).Valid
  rule : ∀ k, t.rule k = c.conditionRules.rule k
  gate : ∀ m action, t.gate m action = c.conditionRules.gate m action
  play : ∀ (reg : Registry) (b : Board) (ops : List Operation),
    (Battle.mk ⟨c.withRules t, reg⟩ b).play ops
      = (((Battle.mk ⟨c, reg⟩ b).play ops).1, ((Battle.mk ⟨c, reg⟩ b).play ops).2.withRules t)

theorem Config.Valid.samePlay {c : Config} (hvalid : c.Valid) {t : ConditionRules}
    (h : t.rules.Perm c.conditionRules.rules) : c.SamePlay t where
  valid :=
    ⟨hvalid.cap, fun k => ((h.filter _).length_eq).trans (hvalid.rules k)⟩
  rule := ConditionRules.playsAs_of_perm hvalid.rules h
  gate := (ConditionRules.playsAs_of_perm hvalid.rules h).gate_eq
  play reg b ops :=
    Battle.play_withRules (g := ⟨⟨c, reg⟩, b⟩) (ConditionRules.playsAs_of_perm hvalid.rules h) ops

/-- The laws of settings. -/
structure Admission : Prop where
  /-- Settings pass when they are valid, and come out as they are; -/
  passes : ∀ c c' : Config, c.validate = .ok c' ↔ c' = c ∧ c.Valid
  /-- any others are refused with their first fault. -/
  refused : ∀ (c : Config) (e : EngineError), c.validate = .error e ↔ c.FirstFault e
  /-- An engine is made of valid settings alone, -/
  made : ∀ (c : Config) (g : Engine), Engine.ofValid c = .ok g ↔ c.Valid ∧ g = .ofConfig c
  /-- and only valid settings are loaded, whatever is found under the path; -/
  loaded : ∀ (path : String) (found : Option Entry) (c : Config),
    loadConfig path found = .ok c ↔ readConfig path found = .ok c ∧ c.Valid
  /-- settings that are read and have a fault are refused, under the path that was named; -/
  faulty : ∀ (path : String) (found : Option Entry) (c : Config) (e : EngineError),
    readConfig path found = .ok c → c.FirstFault e →
      loadConfig path found = .error (.invalid path e)
  /-- where nothing is found, they are the standard ones. -/
  missing : ∀ path : String, loadConfig path none = .ok .standard
  /-- In valid settings each condition is played by the one rule of the table for it, -/
  looksUp : ∀ c : Config, c.Valid →
    ∀ k, c.conditionRules.rulesFor k = [c.conditionRules.rule k]
  /-- so the table may be reordered. -/
  reordered : ∀ (c : Config) (t : ConditionRules), c.Valid →
    t.rules.Perm c.conditionRules.rules → c.SamePlay t

/-- **Only valid settings get in, and for those the order of the table is of no account.** -/
theorem admission : Admission where
  passes _ _ := Config.validate_eq_ok_iff
  refused _ _ := Config.validate_eq_error_iff
  made _ _ := Engine.ofValid_eq_ok_iff
  loaded _ _ _ := loadConfig_eq_ok_iff
  faulty _ _ _ _ := loadConfig_of_fault
  missing := loadConfig_none
  looksUp c hvalid k := c.conditionRules.rulesFor_eq_of_length k (hvalid.rules k)
  reordered _ _ hvalid h := hvalid.samePlay h

/-- Without valid settings the order would matter: the first of two rules is played by. -/
example :
    let mild : ConditionRule := .standard .poisoned
    let harsh : ConditionRule := { mild with damage := 30 }
    (ConditionRules.mk [mild, harsh]).rule .poisoned
      ≠ (ConditionRules.mk [harsh, mild]).rule .poisoned := by
  decide

/-! ### The standard table backwards -/

/-- The rules of the game, from the last condition to the first. -/
def backwards : ConditionRules := ⟨ConditionRules.standard.rules.reverse⟩

/-- The standard settings are valid, and by the table read backwards every such battle goes the same
way. -/
theorem samePlay_backwards :
    Config.standard.Valid
      ∧ backwards.rules.Perm Config.standard.conditionRules.rules
      ∧ backwards ≠ Config.standard.conditionRules
      ∧ Config.standard.SamePlay backwards := by
  have hperm : backwards.rules.Perm Config.standard.conditionRules.rules :=
    List.reverse_perm ConditionRules.standard.rules
  exact ⟨Config.valid_standard, hperm, by decide,
    admission.reordered .standard backwards Config.valid_standard hperm⟩

end CardEffects
