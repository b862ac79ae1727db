/-
  CardEffects.Proofs.Mending

  What healing does to hit points.  They rise, no further than to the maximum, so a Pokémon
  above its maximum stays where it is; and what is reported is by how much they rose.

    * `optionRel_refl`, `optionRel_trans`, `Board.rel_put` — relations on places that may be
      empty, and on the two sides of a board.
    * `Rises` — hit points that rise no further than the maximum.
    * `BenchOccupant.Mended`, `Mended` — a Pokémon on the bench, and a whole bench, of which only
      hit points changed, and only by rising.
    * `restoredSlots`, `missingSlots` — by how much a bench rose, and how much it can rise.
    * `Combatant.Recovers`, `Combatant.restored` — the same for an active Pokémon and its bench.
    * `Combatant.healTarget_fst` — healing of any kind reports what it restores.
-/
import CardEffects.Application.Healing
import Mathlib.Data.List.Forall2

namespace CardEffects

/-! ## Places that may be empty -/

section Places

variable {α : Type} {o o' o'' : Option α}

/-- A place is as it was, when everything is as it was. -/
theorem optionRel_refl {R : α → α → Prop} (hR : ∀ x, R x x) (o : Option α) :
    Option.Rel R o o := by
  cases o with
  | none => exact .none
  | some x => exact .some (hR x)

/-- A place is empty throughout, or occupied throughout. -/
theorem optionRel_trans {R S T : α → α → Prop} (h : Option.Rel R o o')
    (h' : Option.Rel S o' o'') (hT : ∀ x y z, R x y → S y z → T x z) : Option.Rel T o o'' := by
  cases h with
  | none =>
    cases h'
    exact .none
  | some hx =>
    cases h' with
    | some hy => exact .some (hT _ _ _ hx hy)

theorem optionRel_imp {R S : α → α → Prop} (h : Option.Rel R o o')
    (hS : ∀ x y, R x y → S x y) : Option.Rel S o o' := by
  cases h with
  | none => exact .none
  | some hx => exact .some (hS _ _ hx)

/-- Where something is, something was. -/
theorem exists_of_optionRel_some {R : α → α → Prop} {y : α} (h : Option.Rel R o (some y)) :
    ∃ x, o = some x ∧ R x y := by
  cases h with
  | some hx => exact ⟨_, rfl, hx⟩

theorem eq_none_of_optionRel_none {R : α → α → Prop} (h : Option.Rel R o none) : o = none := by
  cases h
  rfl

end Places

/-- A Pokémon put in its own place changes that place, and the other side stays as it is. -/
theorem Board.rel_put {R : Combatant → Combatant → Prop} (hR : ∀ m, R m m) {b : Board}
    {side : Side} {m m' : Combatant} (hm : b.active? side = some m) (h : R m m') :
    R b.attacker (b.put side m').attacker
      ∧ Option.Rel R b.defender (b.put side m').defender := by
  cases side with
  | own =>
    obtain rfl := Option.some.inj hm
    exact ⟨h, optionRel_refl hR b.defender⟩
  | opponent =>
    refine ⟨hR b.attacker, ?_⟩
    rw [show b.defender = some m from hm]
    exact .some h

/-! ## Hit points -/

/-- Hit points rise from `hp` to `hp'`, no further than to the maximum. -/
structure Rises (hp hp' maxHp : Word) : Prop where
  le : hp.toNat ≤ hp'.toNat
  capped : hp'.toNat ≤ max hp.toNat maxHp.toNat

namespace Rises

variable {hp hp' hp'' maxHp : Word}

theorem refl (hp maxHp : Word) : Rises hp hp maxHp := ⟨Nat.le_refl _, Nat.le_max_left _ _⟩

theorem trans (h : Rises hp hp' maxHp) (h' : Rises hp' hp'' maxHp) : Rises hp hp'' maxHp := by
  have hle := h.le
  have hcapped := h.capped
  have hle' := h'.le
  have hcapped' := h'.capped
  constructor <;> omega

/-- Hit points above the maximum stay where they are. -/
theorem eq_of_above (h : Rises hp hp' maxHp) (habove : maxHp.toNat ≤ hp.toNat) : hp' = hp := by
  have hle := h.le
  have hcapped := h.capped
  exact Word.ext (by omega)

/-- Hit points that are no more than the maximum stay so. -/
theorem le_max (h : Rises hp hp' maxHp) (hle : hp.toNat ≤ maxHp.toNat) :
    hp'.toNat ≤ maxHp.toNat := by
  have hcapped := h.capped
  omega

/-- They rise by what is missing at most. -/
theorem sub_le (h : Rises hp hp' maxHp) : hp'.toNat - hp.toNat ≤ maxHp.toNat - hp.toNat := by
  have hcapped := h.capped
  omega

end Rises

theorem toNat_healable (hp maxHp amount : Word) :
    (healable hp maxHp amount).toNat = min amount.toNat (maxHp.toNat - hp.toNat) := by
  rw [healable, Word.toNat_least, Word.toNat_sub]

/-- Healing does not saturate: what is missing fits. -/
theorem toNat_healed (hp maxHp amount : Word) :
    (Word.add hp (healable hp maxHp amount)).toNat
      = hp.toNat + (healable hp maxHp amount).toNat := by
  have hfits := Word.toNat_le_limit hp
  have hmax := Word.toNat_le_limit maxHp
  rw [Word.toNat_add, toNat_healable]
  omega

theorem rises_healed (hp maxHp amount : Word) :
    Rises hp (Word.add hp (healable hp maxHp amount)) maxHp := by
  constructor
  · rw [toNat_healed]
    omega
  · rw [toNat_healed, toNat_healable]
    omega

/-! ## The bench -/

/-- Only the hit points of a Pokémon on the bench changed, and only by rising. -/
structure BenchOccupant.Mended (o o' : BenchOccupant) : Prop where
  name : o'.name = o.name
  maxHp : o'.maxHp = o.maxHp
  energy : o'.energy = o.energy
  hp : Rises o.hp o'.hp o.maxHp

theorem BenchOccupant.Mended.refl (o : BenchOccupant) : o.Mended o := ⟨rfl, rfl, rfl, .refl _ _⟩

theorem BenchOccupant.Mended.trans {o o' o'' : BenchOccupant} (h : o.Mended o')
    (h' : o'.Mended o'') : o.Mended o'' where
  name := h'.name.trans h.name
  maxHp := h'.maxHp.trans h.maxHp
  energy := h'.energy.trans h.energy
  hp := h.hp.trans (h.maxHp ▸ h'.hp)

theorem BenchOccupant.mended_heal (o : BenchOccupant) (amount : Word) :
    o.Mended (o.heal amount).2 :=
  ⟨rfl, rfl, rfl, rises_healed o.hp o.maxHp amount⟩

/-- A bench with the same slots occupied, by Pokémon of which only hit points rose. -/
abbrev Mended : List (Option BenchOccupant) → List (Option BenchOccupant) → Prop :=
  List.Forall₂ (Option.Rel BenchOccupant.Mended)

namespace Mended

variable {l l' l'' : List (Option BenchOccupant)}

theorem refl (l : List (Option BenchOccupant)) : Mended l l :=
  List.forall₂_same.2 fun slot _ => optionRel_refl BenchOccupant.Mended.refl slot

theorem trans (h : Mended l l') (h' : Mended l' l'') : Mended l l'' := by
  induction h generalizing l'' with
  | nil =>
    cases h'
    exact .nil
  | cons hslot _ ih =>
    cases h' with
    | cons hslot' h' =>
      exact .cons (optionRel_trans hslot hslot' fun _ _ _ => .trans) (ih h')

/-- A bench where some occupants are mended in place. -/
theorem of_map {f : BenchOccupant → BenchOccupant}
    (hf : ∀ o : BenchOccupant, o.Mended (f o))
    (l : List (Option BenchOccupant)) : Mended l (l.map (Option.map f)) := by
  refine List.forall₂_map_right_iff.2 (List.forall₂_same.2 fun slot _ => ?_)
  cases slot with
  | none => exact .none
  | some o => exact .some (hf o)

/-- A bench where the occupant of one slot is mended. -/
theorem set {i : Nat} {o o' : BenchOccupant} (hslot : l[i]? = some (some o)) (ho : o.Mended o') :
    Mended l (l.set i (some o')) := by
  induction l generalizing i with
  | nil => cases hslot
  | cons slot l ih =>
    cases i with
    | zero =>
      obtain rfl := Option.some.inj hslot
      exact .cons (.some ho) (refl l)
    | succ i => exact .cons (optionRel_refl BenchOccupant.Mended.refl slot) (ih hslot)

end Mended

/-! ## By how much a bench rose -/

/-- By how much the hit points in a slot rose. -/
def restoredSlot : Option BenchOccupant → Option BenchOccupant → Nat
  | some o, some o' => o'.hp.toNat - o.hp.toNat
  | _, _ => 0

/-- The hit points missing in a slot. -/
def missingSlot : Option BenchOccupant → Nat
  | some o => o.maxHp.toNat - o.hp.toNat
  | none => 0

/-- By how much the hit points of a bench rose, slot by slot. -/
def restoredSlots : List (Option BenchOccupant) → List (Option BenchOccupant) → Nat
  | x :: l, x' :: l' => restoredSlot x x' + restoredSlots l l'
  | _, _ => 0

/-- The hit points missing on a bench. -/
def missingSlots : List (Option BenchOccupant) → Nat
  | [] => 0
  | x :: l => missingSlot x + missingSlots l

variable {l l' l'' : List (Option BenchOccupant)}

@[simp] theorem restoredSlots_cons (x x' : Option BenchOccupant) :
    restoredSlots (x :: l) (x' :: l') = restoredSlot x x' + restoredSlots l l' := rfl

@[simp] theorem missingSlots_cons (x : Option BenchOccupant) :
    missingSlots (x :: l) = missingSlot x + missingSlots l := rfl

@[simp] theorem restoredSlots_self (l : List (Option BenchOccupant)) : restoredSlots l l = 0 := by
  induction l with
  | nil => rfl
  | cons x l ih =>
    rw [restoredSlots_cons, ih]
    cases x with
    | none => rfl
    | some o => exact Nat.sub_self _

/-- What a bench rises in two steps it rises in all, for it never falls between. -/
theorem restoredSlots_trans (h : Mended l l') (h' : Mended l' l'') :
    restoredSlots l l'' = restoredSlots l l' + restoredSlots l' l'' := by
  induction h generalizing l'' with
  | nil => cases h'; rfl
  | cons hslot _ ih =>
    cases h' with
    | cons hslot' h' =>
      simp only [restoredSlots_cons, ih h']
      cases hslot with
      | none =>
        cases hslot'
        simp only [restoredSlot]
        omega
      | some ho =>
        cases hslot' with
        | some ho' =>
          have hle := ho.hp.le
          have hle' := ho'.hp.le
          simp only [restoredSlot]
          omega

theorem restoredSlots_le (h : Mended l l') : restoredSlots l l' ≤ missingSlots l := by
  induction h with
  | nil => exact Nat.le_refl 0
  | cons hslot _ ih =>
    rw [restoredSlots_cons, missingSlots_cons]
    cases hslot with
    | none => exact Nat.add_le_add (Nat.le_refl 0) ih
    | some ho => exact Nat.add_le_add ho.hp.sub_le ih

/-! ## The acting Pokémon -/

namespace Combatant

/-- The hit points of a Pokémon and of its bench rise, as far as their maxima; the slots of the
bench stay as they are. -/
structure Recovers (m m' : Combatant) : Prop where
  maxHp : m'.maxHp = m.maxHp
  hp : Rises m.hp m'.hp m.maxHp
  bench : Mended m.bench m'.bench

/-- By how much the hit points of a Pokémon and of its bench rose, one by one. -/
def restored (m m' : Combatant) : Nat :=
  (m'.hp.toNat - m.hp.toNat) + restoredSlots m.bench m'.bench

/-- The hit points missing from a Pokémon and its bench. -/
def missing (m : Combatant) : Nat := (m.maxHp.toNat - m.hp.toNat) + missingSlots m.bench

variable {m m' m'' : Combatant}

theorem Recovers.of_eq (hmax : m'.maxHp = m.maxHp) (hhp : m'.hp = m.hp)
    (hbench : m'.bench = m.bench) : m.Recovers m' := by
  refine ⟨hmax, ?_, ?_⟩
  · rw [hhp]
    exact .refl _ _
  · rw [hbench]
    exact .refl _

theorem Recovers.trans (h : m.Recovers m') (h' : m'.Recovers m'') : m.Recovers m'' where
  maxHp := h'.maxHp.trans h.maxHp
  hp := h.hp.trans (h.maxHp ▸ h'.hp)
  bench := h.bench.trans h'.bench

theorem restored_of_eq (hhp : m'.hp = m.hp) (hbench : m'.bench = m.bench) :
    m.restored m' = 0 := by
  rw [restored, hhp, hbench, restoredSlots_self, Nat.sub_self]

theorem restored_trans (h : m.Recovers m') (h' : m'.Recovers m'') :
    m.restored m'' = m.restored m' + m'.restored m'' := by
  have hbench := restoredSlots_trans h.bench h'.bench
  have hle := h.hp.le
  have hle' := h'.hp.le
  simp only [restored]
  omega

/-- What is restored was missing. -/
theorem Recovers.restored_le (h : m.Recovers m') : m.restored m' ≤ m.missing :=
  Nat.add_le_add h.hp.sub_le (restoredSlots_le h.bench)

/-! ## Healing -/

/-- Healing everyone on a bench reports by how much it rose. -/
theorem sum_healBench (amount : Option Word) (l : List (Option BenchOccupant)) :
    Word.sum ((l.filterMap id).map fun o => (healOccupant amount o).1)
      = restoredSlots l (l.map (Option.map fun o => (healOccupant amount o).2)) := by
  induction l with
  | nil => rfl
  | cons slot l ih =>
    cases slot with
    | none =>
      rw [List.map_cons, restoredSlots_cons, ← ih]
      exact (Nat.zero_add _).symm
    | some o =>
      rw [List.map_cons, restoredSlots_cons, ← ih]
      have hrise : (healOccupant amount o).2.hp.toNat
          = o.hp.toNat + (healOccupant amount o).1.toNat := toNat_healed _ _ _
      simp only [List.filterMap_cons_some (f := id) (b := o) rfl, List.map_cons, Word.sum_cons,
        Option.map_some, restoredSlot]
      omega

theorem recovers_heal (m : Combatant) (amount : Word) : m.Recovers (m.heal amount).2 :=
  ⟨rfl, rises_healed m.hp m.maxHp amount, .refl _⟩

theorem restored_heal (m : Combatant) (amount : Word) :
    m.restored (m.heal amount).2 = (m.heal amount).1.toNat := by
  have hrise : (m.heal amount).2.hp.toNat = m.hp.toNat + (m.heal amount).1.toNat :=
    toNat_healed _ _ _
  rw [restored, hrise]
  show _ + restoredSlots m.bench m.bench = _
  rw [restoredSlots_self]
  omega

theorem recovers_healBench (m : Combatant) (amount : Option Word) :
    m.Recovers (m.healBench amount).2 :=
  ⟨rfl, .refl _ _, .of_map (fun o => o.mended_heal _) m.bench⟩

theorem restored_healBench (m : Combatant) (amount : Option Word) :
    m.restored (m.healBench amount).2 = (m.healBench amount).1 := by
  have hbench : (m.healBench amount).1 = restoredSlots m.bench (m.healBench amount).2.bench :=
    sum_healBench amount m.bench
  rw [restored, hbench]
  show (m.hp.toNat - m.hp.toNat) + _ = _
  omega

theorem recovers_healTarget (m : Combatant) (target : HealTarget) (amount : Option Word) :
    m.Recovers (m.healTarget target amount).2 := by
  have hown := m.recovers_heal (amount.getD m.damageTaken)
  cases target with
  | this => exact hown
  | anyOwn => exact hown
  | eachOwn => exact hown.trans (recovers_healBench _ amount)

/-- Healing reports what it restores, as far as a report can say. -/
theorem healTarget_fst (m : Combatant) (target : HealTarget) (amount : Option Word) :
    (m.healTarget target amount).1.toNat
      = min (m.restored (m.healTarget target amount).2) Word.limit := by
  have hown := m.recovers_heal (amount.getD m.damageTaken)
  have hrestored := m.restored_heal (amount.getD m.damageTaken)
  have hfits := Word.toNat_le_limit (m.heal (amount.getD m.damageTaken)).1
  cases target with
  | this =>
    show (m.heal (amount.getD m.damageTaken)).1.toNat
      = min (m.restored (m.heal (amount.getD m.damageTaken)).2) Word.limit
    omega
  | anyOwn =>
    show (m.heal (amount.getD m.damageTaken)).1.toNat
      = min (m.restored (m.heal (amount.getD m.damageTaken)).2) Word.limit
    omega
  | eachOwn =>
    -- the bench is healed after the acting Pokémon
    have hboth := restored_trans hown (recovers_healBench _ amount)
    have hbench := restored_healBench (m.heal (amount.getD m.damageTaken)).2 amount
    show (Word.clamp ((m.heal (amount.getD m.damageTaken)).1.toNat
        + ((m.heal (amount.getD m.damageTaken)).2.healBench amount).1)).toNat
      = min (m.restored ((m.heal (amount.getD m.damageTaken)).2.healBench amount).2) Word.limit
    rw [hboth, hbench, hrestored, Word.toNat_clamp]

end Combatant

end CardEffects
