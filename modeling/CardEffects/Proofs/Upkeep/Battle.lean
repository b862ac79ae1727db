/-
  CardEffects.Proofs.Upkeep.Battle

  What a battle keeps up, whatever is done in it: texts, attacks and abilities, effects carried
  out by hand, interventions on one Pokémon, changes of side and changes of handlers, in any
  order and any number.  A sound board stays sound, and on it every Pokémon stays who it is.

    * `Board.Sound`, `Board.Kept`, `Board.Upkept` — the relations of a Pokémon, for both sides.
    * `Deed.upkept` — effects; `Intervention.upkept_apply` — what is done by hand.
    * `Battle.upkept_perform` — one operation, up to a change of side.
    * `Battle.play_upholds` — any number of them.
-/
import CardEffects.Battle
import CardEffects.Proofs.Attack
import CardEffects.Proofs.Execution
import CardEffects.Proofs.Upkeep.Combatant
import Mathlib.Logic.Function.Iterate

namespace CardEffects

/-! ## Boards -/

/-- Both sides are sound. -/
structure Board.Sound (b : Board) : Prop where
  attacker : b.attacker.Sound
  defender : ∀ d, b.defender = some d → d.Sound

/-- Both sides are kept, and none comes or goes. -/
structure Board.Kept (b b' : Board) : Prop where
  attacker : b.attacker.Kept b'.attacker
  defender : Option.Rel Combatant.Kept b.defender b'.defender

namespace Board

/-- Both sides are kept, and kept sound. -/
structure Upkept (b b' : Board) : Prop where
  attacker : b.attacker.Upkept b'.attacker
  defender : Option.Rel Combatant.Upkept b.defender b'.defender

variable {b b' b'' : Board}

namespace Upkept

theorem refl (b : Board) : b.Upkept b := ⟨.refl _, optionRel_refl .refl _⟩

theorem trans (h : b.Upkept b') (h' : b'.Upkept b'') : b.Upkept b'' :=
  ⟨h.attacker.trans h'.attacker, optionRel_trans h.defender h'.defender fun _ _ _ => .trans⟩

theorem kept (h : b.Upkept b') : b.Kept b' :=
  ⟨h.attacker.kept, optionRel_imp h.defender fun _ _ => Combatant.Upkept.kept⟩

theorem sound (h : b.Upkept b') (hsound : b.Sound) : b'.Sound where
  attacker := h.attacker.sound hsound.attacker
  defender := by
    intro d' hd'
    obtain ⟨d, hd, hupkept⟩ := exists_of_optionRel_some (hd' ▸ h.defender)
    exact hupkept.sound (hsound.defender d hd)

/-- The coins have no part in it. -/
theorem idle (b : Board) (coins : Coins) : b.Upkept { b with coins } :=
  ⟨.refl _, optionRel_refl .refl _⟩

theorem of_attacker {m : Combatant} (coins : Coins) (h : b.attacker.Upkept m) :
    b.Upkept { b with attacker := m, coins } :=
  ⟨h, optionRel_refl .refl _⟩

theorem of_defender {d d' : Combatant} (hd : b.defender = some d) (h : d.Upkept d') :
    b.Upkept { b with defender := some d' } := by
  refine ⟨.refl _, ?_⟩
  rw [hd]
  exact .some h

/-- A Pokémon that is kept up is put in its own place. -/
theorem of_put {side : Side} {m m' : Combatant} (coins : Coins) (hm : b.active? side = some m)
    (h : m.Upkept m') : b.Upkept { b.put side m' with coins } :=
  have hput := Board.rel_put .refl hm h
  ⟨hput.1, hput.2⟩

end Upkept

/-! ### Changes of side -/

/-- The board with the sides changed; with one side only it stays as it is. -/
def swapped (b : Board) : Board := b.swap?.getD b

theorem swapped_of_none (h : b.defender = none) : b.swapped = b := by
  rw [swapped, swap?, h]
  rfl

theorem swapped_of_some {d : Combatant} (h : b.defender = some d) :
    b.swapped = { b with attacker := d, defender := some b.attacker } := by
  rw [swapped, swap?, h]
  rfl

theorem Sound.swapped (h : b.Sound) : b.swapped.Sound := by
  cases hd : b.defender with
  | none =>
    rw [swapped_of_none hd]
    exact h
  | some d =>
    rw [swapped_of_some hd]
    refine ⟨h.defender d hd, fun m hm => ?_⟩
    obtain rfl := Option.some.inj hm
    exact h.attacker

/-- What keeps up a board keeps it up from the other side. -/
theorem Upkept.swapped (h : b.Upkept b') : b.swapped.Upkept b'.swapped := by
  cases hd' : b'.defender with
  | none =>
    have hd : b.defender = none := eq_none_of_optionRel_none (hd' ▸ h.defender)
    rw [swapped_of_none hd, swapped_of_none hd']
    exact h
  | some d' =>
    obtain ⟨d, hd, hupkept⟩ := exists_of_optionRel_some (hd' ▸ h.defender)
    rw [swapped_of_some hd, swapped_of_some hd']
    exact ⟨hupkept, .some h.attacker⟩

theorem Sound.swapped_iterate (h : b.Sound) (n : Nat) : (Board.swapped^[n] b).Sound := by
  induction n generalizing b with
  | zero => exact h
  | succ n ih => exact ih h.swapped

theorem Upkept.swapped_iterate (h : b.Upkept b') (n : Nat) :
    (Board.swapped^[n] b).Upkept (Board.swapped^[n] b') := by
  induction n generalizing b b' with
  | zero => exact h
  | succ n ih => exact ih h.swapped

end Board

/-! ## Effects -/

/-- Whatever an effect does keeps up the board. -/
theorem Deed.upkept {s : Setting} {b b' : Board} {o : Outcome} (h : Deed s b o b') :
    b.Upkept b' := by
  cases h with
  | idle coins report => exact .idle b coins
  | @inflicted coins side m c active report =>
    exact .of_put coins active (m.upkept_inflict c s.turn)
  | healed coins target amount report =>
    exact .of_attacker coins (b.attacker.upkept_healTarget target amount)
  | @attached coins energy units pos report =>
    exact .of_attacker coins (b.attacker.upkept_withEnergy energy units)
  | waiting coins energy pos report => exact .idle b coins
  | @discarded drawn m d active report =>
    exact .of_put _ active (.of_energy fun h => EnergyPool.tidy_discardBy h drawn d)

namespace Registry

variable (reg : Registry) (s : Setting)

theorem upkept_execute (b : Board) (e : Effect) : b.Upkept (reg.execute s b e).2 :=
  (reg.deed_execute s b e).upkept

/-- A step carries out its effect, or skips it. -/
theorem upkept_step (r : Resolution) (b : Board) (e : Effect) :
    b.Upkept (reg.step s r b e).2 := by
  unfold step
  split
  · exact .refl b
  · exact reg.upkept_execute s b e

theorem upkept_run (b : Board) (base : Word) (es : List Effect) :
    b.Upkept (reg.run s b base es).2 :=
  runFrom_induction (P := fun _ b' => b.Upkept b') (.refl b)
    fun e _ r b' h => h.trans (reg.upkept_step s r b' e)

end Registry

/-! ## The engine -/

namespace Engine

variable (g : Engine) (turn : Word)

theorem upkept_dealDamage (c : Config) (r : Resolution) (b : Board) :
    b.Upkept (dealDamage c r b).2 := by
  unfold dealDamage
  split
  · exact .refl b
  next d hd =>
    split
    · exact .of_defender hd (d.upkept_takeDamage r.total)
    · exact .refl b

theorem upkept_run (attack : Option Attack) (b : Board) (text : String) (base : Word) :
    b.Upkept (g.run turn attack b text base).2 := by
  rw [run_eq]
  exact (g.registry.upkept_run _ b base _).trans (upkept_dealDamage g.config _ _)

theorem Resolves.upkept {g : Engine} {turn : Word} {b : Board} {text : String}
    {out : Resolution × Board} (h : g.Resolves turn b text out) : b.Upkept out.2 := by
  rcases h.stopped_or_run with ⟨base, flips, reason, coins, hout⟩ | ⟨coins, attack, base, hout⟩
  · rw [hout]
    exact .idle b coins
  · rw [hout]
    exact (Board.Upkept.idle b coins).trans (g.upkept_run turn attack _ text base)

theorem upkept_call {b : Board} {call : Call} {out : Resolution × Board}
    (h : g.call turn b call = .ok out) : b.Upkept out.2 :=
  (Resolves.of_call h).elim fun _ => Resolves.upkept

end Engine

/-! ## Interventions -/

/-- Whatever is done to a Pokémon by hand keeps it up. -/
theorem Intervention.upkept_apply (t : ConditionRules) (m : Combatant) (coins : Coins)
    (i : Intervention) : m.Upkept (i.apply t m coins).2.1 := by
  cases i with
  | check turn => exact t.upkept_checkEach turn m coins m.conditions.kinds
  | inflict c turn => exact m.upkept_inflict c turn
  | cure c => exact m.upkept_cure c
  | cureAll => exact m.upkept_cureAll
  | inflictRandom turn => exact m.upkept_inflictRandom turn coins
  | confusionFlip => exact .refl m
  | damage amount => exact m.upkept_takeDamage amount
  | heal amount => exact m.upkept_heal amount
  | attach e => exact m.upkept_withEnergy e 1
  | discard e => exact m.upkept_discardEnergy e
  | healSlot slot amount =>
    unfold apply
    dsimp only
    split
    next healed m' h => exact m.upkept_healSlot? slot amount h
    next => exact .refl m

/-! ## Battles -/

namespace Battle

variable (g : Battle)

/-- Changing sides is the one operation that does not keep up the board, and it does nothing
but change sides. -/
theorem board_perform_swap : (g.perform .swap).2.board = g.board.swapped := by
  unfold perform Board.swapped
  dsimp only
  split
  next b hb =>
    rw [hb]
    rfl
  next hnone =>
    rw [hnone]
    rfl

/-- Every other operation keeps it up. -/
theorem upkept_perform {op : Operation} (hop : op ≠ .swap) :
    g.board.Upkept (g.perform op).2.board := by
  cases op with
  | call turn call =>
    unfold perform
    dsimp only
    split
    next r b h => exact g.engine.upkept_call turn h
    next => exact .refl _
  | execute turn attack effects base => exact g.engine.registry.upkept_run _ _ base effects
  | handle turn attack effect => exact g.engine.registry.upkept_execute _ _ effect
  | flip count => exact .idle _ _
  | intervene side i =>
    unfold perform
    dsimp only
    split
    next m hm => exact .of_put _ hm (i.upkept_apply _ m _)
    next => exact .refl _
  | swap => exact absurd rfl hop
  | unregister kind => exact .refl _
  | moveHandler kind place =>
    unfold perform
    dsimp only
    split <;> exact .refl _

/-- A battle keeps up its board, seen from the side that acts in the end. -/
theorem upkept_play (ops : List Operation) :
    (Board.swapped^[ops.count .swap] g.board).Upkept (g.play ops).2.board := by
  -- along the operations; a change of side is made on both boards
  induction ops generalizing g with
  | nil => exact .refl _
  | cons op ops ih =>
    show (Board.swapped^[(op :: ops).count .swap] g.board).Upkept
      ((g.perform op).2.play ops).2.board
    have hrest := ih (g.perform op).2
    by_cases hop : op = .swap
    · subst hop
      rw [board_perform_swap] at hrest
      rw [List.count_cons_self, Function.iterate_succ_apply]
      exact hrest
    · rw [List.count_cons_of_ne hop]
      exact ((g.upkept_perform hop).swapped_iterate _).trans hrest

/-- **Upkeep.**  In a battle on a sound board, whatever the engine, its settings and its handlers,
and whatever the coins, every sequence of operations leaves a sound board; and every Pokémon on
it, found on its own side after as many changes of side, has kept its name, its type, its
maximum of hit points, and the seats on its bench, where each keeps its name, its maximum and its
energy and has lost no hit points. -/
theorem play_upholds (h : g.board.Sound) (ops : List Operation) :
    (g.play ops).2.board.Sound
      ∧ (Board.swapped^[ops.count .swap] g.board).Kept (g.play ops).2.board :=
  ⟨(g.upkept_play ops).sound (h.swapped_iterate _), (g.upkept_play ops).kept⟩

/-! ### A hit, and the other side's turn -/

/-- Two Pokémon that have just come into play, one of them with another on its bench. -/
def opening : Battle where
  engine := .standard
  board := {
    attacker := { Combatant.new "Charmander" .fire 100 with
      bench := [some (.new "Vulpix" 60), none] }
    defender := some (.new "Eevee" .fire 100)
    coins := .ofSeed 0 }

theorem sound_opening : opening.board.Sound where
  attacker := { Combatant.sound_new "Charmander" .fire 100 with
    bench := by
      intro o ho
      obtain rfl : o = .new "Vulpix" 60 := by simpa [opening] using ho
      exact BenchOccupant.sound_new "Vulpix" 60 }
  defender := by
    intro d hd
    obtain rfl := Option.some.inj hd
    exact Combatant.sound_new "Eevee" .fire 100

/-- After a change of side the other Pokémon acts, and both are sound. -/
theorem opening_upholds :
    opening.board.Sound
      ∧ (opening.play [.intervene .own (.damage 30), .swap]).2.board.Sound
      ∧ (opening.play [.intervene .own (.damage 30), .swap]).2.board.attacker.name = "Eevee" := by
  obtain ⟨hsound, hkept⟩ :=
    opening.play_upholds sound_opening [.intervene .own (.damage 30), .swap]
  exact ⟨sound_opening, hsound, hkept.attacker.name⟩

end Battle

end CardEffects
