/-
  CardEffects.Proofs.Upkeep.Combatant

  What is kept up about a Pokémon, whatever happens to it.  It has no more hit points than its
  maximum, its pool holds no entry for no energy, and every condition is filed under its own kind;
  its name, its type, its maximum and the seats on its bench stay as they are.

    * `Combatant.Sound` — what a Pokémon has to be like.
    * `Combatant.Kept` — what stays the same about it.
    * `Combatant.Upkept` — one relation for both, with a lemma for each thing that can happen.
-/
import CardEffects.Application.Energy
import CardEffects.BetweenTurns
import CardEffects.Proofs.Mending

namespace CardEffects

/-! ## Sound Pokémon -/

/-- No type is present without a unit. -/
def EnergyPool.Tidy (p : EnergyPool) : Prop := ∀ e, p.units.get? e ≠ some 0

/-- Every condition in force is filed under its own kind. -/
def Conditions.Filed (s : Conditions) : Prop := ∀ c entry, s.get? c = some entry →
  entry.condition = c

/-- A Pokémon on the bench has at most its maximum of hit points, and a tidy pool. -/
structure BenchOccupant.Sound (o : BenchOccupant) : Prop where
  hp : o.hp ≤ o.maxHp
  energy : o.energy.Tidy

/-- So has an active one, its conditions are filed, and everyone on its bench is sound. -/
structure Combatant.Sound (m : Combatant) : Prop where
  hp : m.hp ≤ m.maxHp
  energy : m.energy.Tidy
  conditions : m.conditions.Filed
  bench : ∀ o, some o ∈ m.bench → o.Sound

/-! ## What stays -/

/-- A Pokémon keeps its name, its type and its maximum; on its bench the same seats are taken by
the same Pokémon with the same energy, and none of them loses hit points. -/
structure Combatant.Kept (m m' : Combatant) : Prop where
  name : m'.name = m.name
  energyType : m'.energyType = m.energyType
  maxHp : m'.maxHp = m.maxHp
  bench : Mended m.bench m'.bench

/-! ## Pools -/

namespace EnergyPool

theorem tidy_empty : empty.Tidy := by
  intro e h
  rw [show empty.units.get? e = none from EnumMap.get?_empty e] at h
  cases h

theorem tidy_attach {p : EnergyPool} (h : p.Tidy) (e : Energy) (n : Word) :
    (p.attach e n).Tidy := by
  unfold attach
  split
  · exact h
  next hn =>
    intro t
    rw [EnumMap.get?_insert]
    split
    · -- there are at least the units attached
      have hpos := Word.toNat_pos hn
      have hfits := Word.toNat_le_limit n
      intro hzero
      have hsum := congrArg UInt32.toNat (Option.some.inj hzero)
      rw [Word.toNat_add, UInt32.toNat_zero] at hsum
      omega
    · exact h t

theorem tidy_discard {p : EnergyPool} (h : p.Tidy) (e : Energy) (n : Word) :
    (p.discard e n).2.Tidy := by
  unfold discard
  split
  · exact h
  · -- what is left is an entry when it is some, and none when it is none
    dsimp only
    intro t
    split
    next hleft =>
      rw [EnumMap.get?_erase]
      split
      · exact (Option.some_ne_none 0).symm
      · exact h t
    next hleft =>
      rw [EnumMap.get?_insert]
      split
      · exact fun hzero => hleft (Option.some.inj hzero)
      · exact h t

theorem tidy_discardRandom {p : EnergyPool} (h : p.Tidy) (coins : Coins) (n : Nat) :
    (p.discardRandom coins n).2.1.Tidy := by
  induction n generalizing p coins with
  | zero => exact h
  | succ n ih =>
    unfold discardRandom
    dsimp only
    split
    · exact h
    · exact ih (tidy_discard h _ 1) _

theorem tidy_discardBy {p : EnergyPool} (h : p.Tidy) (coins : Coins) (d : EnergyDiscard) :
    (p.discardBy coins d).2.1.Tidy := by
  unfold discardBy
  split
  · exact tidy_discard h _ _
  · exact tidy_discard h _ _
  · exact tidy_empty
  · exact tidy_discardRandom h coins _

end EnergyPool

/-! ## Conditions -/

namespace Conditions

theorem filed_empty : empty.Filed := by
  intro c entry h
  rw [show empty.get? c = none from EnumMap.get?_empty c] at h
  cases h

theorem filed_insert {s : Conditions} (h : s.Filed) (c : Condition) (turn : Word) :
    (s.insert c turn).2.Filed := by
  unfold insert
  split
  · exact h
  · intro k entry hentry
    rw [get?, EnumMap.get?_insert] at hentry
    split at hentry
    next hk =>
      rw [← Option.some.inj hentry, hk]
    next => exact h k entry hentry

theorem filed_remove {s : Conditions} (h : s.Filed) (c : Condition) : (s.remove c).2.Filed := by
  unfold remove
  split
  · intro k entry hentry
    rw [get?, EnumMap.get?_erase] at hentry
    split at hentry
    · cases hentry
    · exact h k entry hentry
  · exact h

end Conditions

/-! ## One Pokémon -/

theorem BenchOccupant.sound_new (name : String) (maxHp : Word) : (new name maxHp).Sound :=
  ⟨UInt32.le_refl maxHp, EnergyPool.tidy_empty⟩

namespace Combatant

/-- A Pokémon that comes into play is sound. -/
theorem sound_new (name : String) (energyType : Energy) (maxHp : Word) :
    (new name energyType maxHp).Sound where
  hp := UInt32.le_refl maxHp
  energy := EnergyPool.tidy_empty
  conditions := Conditions.filed_empty
  bench := fun _ ho => nomatch List.eq_of_mem_replicate ho

/-- What happens to a Pokémon keeps it, and keeps it sound, each part of it for itself. -/
structure Upkept (m m' : Combatant) : Prop where
  kept : m.Kept m'
  hp : m.hp ≤ m.maxHp → m'.hp ≤ m'.maxHp
  energy : m.energy.Tidy → m'.energy.Tidy
  conditions : m.conditions.Filed → m'.conditions.Filed

variable {m m' m'' : Combatant}

theorem Kept.refl (m : Combatant) : m.Kept m := ⟨rfl, rfl, rfl, .refl _⟩

theorem Kept.trans (h : m.Kept m') (h' : m'.Kept m'') : m.Kept m'' where
  name := h'.name.trans h.name
  energyType := h'.energyType.trans h.energyType
  maxHp := h'.maxHp.trans h.maxHp
  bench := h.bench.trans h'.bench

/-- On a bench that is mended everyone stays sound. -/
theorem sound_of_mended {l l' : List (Option BenchOccupant)} (h : Mended l l')
    (hsound : ∀ o, some o ∈ l → o.Sound) : ∀ o, some o ∈ l' → o.Sound := by
  induction h with
  | nil => exact hsound
  | cons hslot _ ih =>
    intro o' ho'
    rcases List.mem_cons.1 ho' with rfl | ho'
    · cases hslot with
      | some ho =>
        have hbefore := hsound _ List.mem_cons_self
        refine ⟨?_, ho.energy ▸ hbefore.energy⟩
        rw [ho.maxHp]
        exact ho.hp.le_max hbefore.hp
    · exact ih (fun o ho => hsound o (List.mem_cons_of_mem _ ho)) o' ho'

namespace Upkept

theorem refl (m : Combatant) : m.Upkept m := ⟨.refl m, id, id, id⟩

theorem trans (h : m.Upkept m') (h' : m'.Upkept m'') : m.Upkept m'' where
  kept := h.kept.trans h'.kept
  hp := h'.hp ∘ h.hp
  energy := h'.energy ∘ h.energy
  conditions := h'.conditions ∘ h.conditions

theorem sound (h : m.Upkept m') (hsound : m.Sound) : m'.Sound where
  hp := h.hp hsound.hp
  energy := h.energy hsound.energy
  conditions := h.conditions hsound.conditions
  bench := sound_of_mended h.kept.bench hsound.bench

theorem of_hp {hp : Word} (h : m.hp ≤ m.maxHp → hp ≤ m.maxHp) : m.Upkept { m with hp } :=
  ⟨⟨rfl, rfl, rfl, .refl _⟩, h, id, id⟩

theorem of_energy {energy : EnergyPool} (h : m.energy.Tidy → energy.Tidy) :
    m.Upkept { m with energy } :=
  ⟨⟨rfl, rfl, rfl, .refl _⟩, id, h, id⟩

theorem of_conditions {conditions : Conditions} (h : m.conditions.Filed → conditions.Filed) :
    m.Upkept { m with conditions } :=
  ⟨⟨rfl, rfl, rfl, .refl _⟩, id, id, h⟩

theorem of_bench {bench : List (Option BenchOccupant)} (h : Mended m.bench bench) :
    m.Upkept { m with bench } :=
  ⟨⟨rfl, rfl, rfl, h⟩, id, id, id⟩

end Upkept

/-! ### What can happen to it -/

variable (m)

theorem upkept_inflict (c : Condition) (turn : Word) : m.Upkept (m.inflict c turn).2 :=
  .of_conditions fun h => Conditions.filed_insert h c turn

theorem upkept_cure (c : Condition) : m.Upkept (m.cure c).2 :=
  .of_conditions fun h => Conditions.filed_remove h c

theorem upkept_cureAll : m.Upkept m.cureAll.2 := .of_conditions fun _ => Conditions.filed_empty

theorem upkept_inflictRandom (turn : Word) (coins : Coins) :
    m.Upkept (m.inflictRandom turn coins).2.1 := by
  unfold inflictRandom
  dsimp only
  split
  · exact m.upkept_inflict _ turn
  · exact .refl m

/-- Damage leaves less. -/
theorem upkept_takeDamage (amount : Word) : m.Upkept (m.takeDamage amount).2 := by
  refine .of_hp fun h => ?_
  rw [UInt32.le_iff_toNat_le] at h ⊢
  rw [Word.toNat_sub]
  omega

/-- Healing stops at the maximum. -/
theorem upkept_heal (amount : Word) : m.Upkept (m.heal amount).2 :=
  .of_hp (rises_healed m.hp m.maxHp amount).le_max

theorem upkept_healTarget (target : HealTarget) (amount : Option Word) :
    m.Upkept (m.healTarget target amount).2 := by
  have hown := m.upkept_heal (amount.getD m.damageTaken)
  cases target with
  | this => exact hown
  | anyOwn => exact hown
  | eachOwn => exact hown.trans (.of_bench (.of_map (fun o => o.mended_heal _) _))

theorem upkept_withEnergy (e : Energy) (n : Word) : m.Upkept (m.withEnergy e n) :=
  .of_energy fun h => EnergyPool.tidy_attach h e n

theorem upkept_discardEnergy (e : Energy) : m.Upkept (m.discardEnergy e).2 :=
  .of_energy fun h => EnergyPool.tidy_discard h e 1

theorem upkept_healSlot? (slot : Nat) (amount : Word) {healed : Option Word}
    (h : m.healSlot? slot amount = some (healed, m')) : m.Upkept m' := by
  obtain ⟨occupant, hslot, hout⟩ := Option.map_eq_some_iff.1 h
  cases occupant with
  | none =>
    obtain rfl := (Prod.mk.inj hout).2
    exact .refl m
  | some o =>
    obtain rfl := (Prod.mk.inj hout).2
    exact .of_bench (.set hslot (o.mended_heal amount))

end Combatant

namespace ConditionRules

variable (t : ConditionRules) (turn : Word)

/-- The check of a condition deals damage, and then may end it. -/
theorem upkept_checkOne (m : Combatant) (coins : Coins) (c : Condition) :
    m.Upkept (t.checkOne turn m coins c).2.1 := by
  have hdamage := m.upkept_takeDamage (t.rule c).damage
  unfold checkOne
  dsimp only
  split
  · exact hdamage.trans (Combatant.upkept_cure _ c)
  · exact hdamage

theorem upkept_checkEach (m : Combatant) (coins : Coins) (cs : List Condition) :
    m.Upkept (t.checkEach turn m coins cs).2.1 := by
  induction cs generalizing m coins with
  | nil => exact .refl m
  | cons c cs ih => exact (t.upkept_checkOne turn m coins c).trans (ih _ _)

end ConditionRules

end CardEffects
