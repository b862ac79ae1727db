/-
  CardEffects.Proofs.Attack

  How an attack goes.  Conditions may block it; a confused attacker may have to flip a coin
  first, and tails makes the attack fail; otherwise its text is carried out.

    * `Engine.Course` — the four ways, each with what leads to it, the resolution and the board.
    * `Engine.course_attack` — every attack goes one of them.
    * `Engine.Resolves.of_call` — every call that is answered carries out a text.
    * `Engine.Resolves.stopped_or_run` — what a text, an attack or an ability comes to: an attack
      that is stopped does nothing, and all else is a run.
-/
import CardEffects.Battle
import CardEffects.Proofs.Run

namespace CardEffects

namespace Engine

/-! ## Courses -/

/-- The attacker is confused, and the settings make it flip a coin before it attacks. -/
def ChecksConfusion (g : Engine) (b : Board) : Prop :=
  g.config.confusionCheck = true ∧ b.attacker.conditions.contains .confused = true

instance (g : Engine) (b : Board) : Decidable (g.ChecksConfusion b) :=
  inferInstanceAs (Decidable (_ ∧ _))

/-- The conditions of the attacker that block its attack, in order. -/
def blockers (g : Engine) (b : Board) : List Condition :=
  g.config.conditionRules.blockers b.attacker .attack

/-- The ways an attack can go. -/
inductive Course (g : Engine) (turn : Word) (b : Board) (a : Attack) :
    Resolution × Board → Prop where
  /-- Conditions block the attack, and no coin is flipped. -/
  | blocked (c : Condition) (cs : List Condition) (hblockers : g.blockers b = c :: cs) :
      Course g turn b a (blockedAttack b.attacker a (c :: cs), b)
  /-- The flip for confusion comes up tails. -/
  | failed (hblockers : g.blockers b = []) (hchecks : g.ChecksConfusion b)
      (htails : b.coins.face 0 = false) :
      Course g turn b a (confusedAttack b.attacker a, { b with coins := b.coins.advance 1 })
  /-- The flip for confusion comes up heads, and the text is carried out behind it. -/
  | passed (hblockers : g.blockers b = []) (hchecks : g.ChecksConfusion b)
      (hheads : b.coins.face 0 = true) :
      Course g turn b a
        (g.run turn (some a) { b with coins := b.coins.advance 1 } a.effect a.damage)
  /-- No flip is asked for. -/
  | unchecked (hblockers : g.blockers b = []) (hchecks : ¬ g.ChecksConfusion b) :
      Course g turn b a (g.run turn (some a) b a.effect a.damage)

variable (g : Engine) (turn : Word) (b : Board)

theorem confusionFlip_of_checks (h : g.ChecksConfusion b) :
    g.confusionFlip b
      = (some (b.coins.face 0), { b with coins := b.coins.advance 1 }) := by
  unfold confusionFlip
  rw [if_pos h.1]
  unfold Combatant.confusionFlip
  rw [if_pos h.2]
  rfl

theorem confusionFlip_of_not_checks (h : ¬ g.ChecksConfusion b) :
    g.confusionFlip b = (none, b) := by
  unfold confusionFlip
  by_cases hcheck : g.config.confusionCheck = true
  · have hconfused : ¬ b.attacker.conditions.contains .confused = true := fun hc => h ⟨hcheck, hc⟩
    rw [if_pos hcheck]
    unfold Combatant.confusionFlip
    rw [if_neg hconfused]
  · rw [if_neg hcheck]

/-- Every attack goes one of the ways. -/
theorem course_attack (a : Attack) : g.Course turn b a (g.attack turn b a) := by
  cases hblockers : g.blockers b with
  | cons c cs =>
    have hgate : g.config.conditionRules.gate b.attacker .attack = .blockedBy (c :: cs) := by
      show Gate.ofBlockers (g.blockers b) = _
      rw [hblockers]
      rfl
    rw [attack, hgate]
    exact .blocked c cs hblockers
  | nil =>
    have hgate : g.config.conditionRules.gate b.attacker .attack = .allowed := by
      show Gate.ofBlockers (g.blockers b) = _
      rw [hblockers]
      rfl
    rw [attack, hgate]
    dsimp only
    by_cases hchecks : g.ChecksConfusion b
    · rw [confusionFlip_of_checks g b hchecks]
      cases hface : b.coins.face 0 with
      | false => exact .failed hblockers hchecks hface
      | true => exact .passed hblockers hchecks hface
    · rw [confusionFlip_of_not_checks g b hchecks]
      exact .unchecked hblockers hchecks

/-! ## Texts, attacks and abilities -/

section Cards

variable {g : Engine} {turn : Word} {b : Board} {card : Card} {index : Nat}
  {out : Resolution × Board}

/-- An attack that is carried out is one that the card has. -/
theorem attack_of_resolveAttack (h : g.resolveAttack turn b card index = .ok out) :
    ∃ a, card.attacks[index]? = some a ∧ g.attack turn b a = out := by
  cases ha : card.attacks[index]? with
  | none =>
    rw [resolveAttack, ha] at h
    cases h
  | some a =>
    rw [resolveAttack, ha] at h
    exact ⟨a, rfl, Except.ok.inj h⟩

theorem run_of_resolveAbility (h : g.resolveAbility turn b card index = .ok out) :
    ∃ a, card.abilities[index]? = some a ∧ g.run turn none b a.effect 0 = out := by
  cases ha : card.abilities[index]? with
  | none =>
    rw [resolveAbility, ha] at h
    cases h
  | some a =>
    rw [resolveAbility, ha] at h
    exact ⟨a, rfl, Except.ok.inj h⟩

end Cards

/-- An attack that is stopped is cancelled before it starts, and does nothing to the board but
draw a coin at most; everything else is the run of a text. -/
theorem Resolves.stopped_or_run {g : Engine} {turn : Word} {b : Board} {text : String}
    {out : Resolution × Board} (h : g.Resolves turn b text out) :
    (∃ base flips reason coins, out
        = (({ Resolution.start base with flips } : Resolution).negate reason, { b with coins }))
      ∨ ∃ coins attack base, out = g.run turn attack { b with coins } text base := by
  cases h with
  | text base h => exact .inr ⟨b.coins, none, base, h.symm⟩
  | ability card index a ha htext h =>
    rw [resolveAbility, ha] at h
    exact .inr ⟨b.coins, none, 0, by rw [← Except.ok.inj h, ← htext]⟩
  | attack card index a ha htext h =>
    rw [resolveAttack, ha] at h
    have hcourse := g.course_attack turn b a
    rw [Except.ok.inj h] at hcourse
    subst htext
    cases hcourse with
    | blocked c cs hblockers => exact .inl ⟨a.damage, [], _, b.coins, rfl⟩
    | failed hblockers hchecks htails => exact .inl ⟨a.damage, _, _, b.coins.advance 1, rfl⟩
    | passed hblockers hchecks hheads => exact .inr ⟨b.coins.advance 1, some a, a.damage, rfl⟩
    | unchecked hblockers hchecks => exact .inr ⟨b.coins, some a, a.damage, rfl⟩

/-- Whatever the engine is called for, it carries out a text. -/
theorem Resolves.of_call {g : Engine} {turn : Word} {b : Board} {call : Call}
    {out : Resolution × Board} (h : g.call turn b call = .ok out) :
    ∃ text, g.Resolves turn b text out := by
  cases call with
  | text text base => exact ⟨text, .text base (Except.ok.inj h)⟩
  | attack card index =>
    obtain ⟨a, ha, -⟩ := attack_of_resolveAttack h
    exact ⟨a.effect, .attack card index a ha rfl h⟩
  | ability card index =>
    obtain ⟨a, ha, -⟩ := run_of_resolveAbility h
    exact ⟨a.effect, .ability card index a ha rfl h⟩

end Engine

end CardEffects
