/-
  CardEffects.Enumeration

  Types with finitely many members, listed once each in a fixed order, and labels for them.
  A labelled member is read back from its label.
-/

namespace CardEffects

/-- A type with finitely many members, listed once each in a fixed order. -/
class Enumeration (κ : Type) where
  /-- Every member, in order. -/
  all : List κ
  nodup_all : all.Nodup
  mem_all : ∀ k, k ∈ all

namespace Enumeration

variable {κ : Type} [DecidableEq κ] [Enumeration κ]

attribute [simp] mem_all

/-- How many members there are. -/
def count (κ : Type) [Enumeration κ] : Nat := (all : List κ).length

/-- The place of a member in the order. -/
def position (k : κ) : Fin (count κ) :=
  ⟨(all : List κ).idxOf k, List.idxOf_lt_length_of_mem (mem_all k)⟩

/-- The member at a place. -/
def member (i : Fin (count κ)) : κ := (all : List κ).get i

@[simp] theorem member_position (k : κ) : member (position k) = k :=
  List.getElem_idxOf _

@[simp] theorem position_member (i : Fin (count κ)) : position (member i : κ) = i :=
  Fin.ext (List.Nodup.idxOf_getElem nodup_all i.val i.isLt)

theorem position_inj {k l : κ} : position k = position l ↔ k = l :=
  ⟨fun h => by rw [← member_position k, h, member_position], fun h => h ▸ rfl⟩

/-- The members are listed in the order of their places. -/
theorem pairwise_position : (all : List κ).Pairwise fun k l => position k < position l := by
  rw [List.pairwise_iff_getElem]
  intro i j hi hj hij
  have hplace : ∀ (k : Nat) (hk : k < (all : List κ).length), (position (all[k])).val = k :=
    fun k hk => nodup_all.idxOf_getElem k hk
  rw [Fin.lt_def, hplace i hi, hplace j hj]
  exact hij

/-- The first member with an answer is the one before which none has any. -/
theorem findSome?_all_eq_some_iff {α : Type} {f : κ → Option α} {a : α} :
    (all : List κ).findSome? f = some a
      ↔ ∃ k, f k = some a ∧ ∀ l, position l < position k → f l = none := by
  rw [List.findSome?_eq_some_iff]
  constructor
  · rintro ⟨front, k, back, hall, hk, hfront⟩
    refine ⟨k, hk, fun l hl => hfront l ?_⟩
    have hsorted := hall ▸ pairwise_position (κ := κ)
    -- `l` is listed, and neither at the place of `k` nor behind it
    rcases List.mem_append.1 (hall ▸ mem_all l) with hl' | hl'
    · exact hl'
    · rcases List.mem_cons.1 hl' with rfl | hl'
      · exact absurd hl (Nat.lt_irrefl _)
      · have hbehind := (List.pairwise_cons.1 (List.pairwise_append.1 hsorted).2.1).1 l hl'
        exact absurd (Nat.lt_trans hl hbehind) (Nat.lt_irrefl _)
  · rintro ⟨k, hk, hbefore⟩
    obtain ⟨front, back, hall⟩ := List.append_of_mem (mem_all k)
    have hsorted := hall ▸ pairwise_position (κ := κ)
    exact ⟨front, k, back, hall, hk, fun l hl => hbefore l <|
      (List.pairwise_append.1 hsorted).2.2 l hl k List.mem_cons_self⟩

end Enumeration

/-! ## Labels -/

/-- An enumeration whose members are told apart by a label. -/
class Labelled (κ : Type) extends Enumeration κ where
  /-- The label of a member. -/
  label : κ → String
  nodup_labels : (all.map label).Nodup

namespace Labelled

variable {κ : Type} [Labelled κ]

/-- The member with the given label. -/
def ofLabel? (s : String) : Option κ := (Enumeration.all : List κ).find? fun k => label k == s

private theorem find?_label {s : String} {l : List κ} (hn : (l.map label).Nodup) {k : κ}
    (hk : k ∈ l) (hs : label k = s) : (l.find? fun k => label k == s) = some k := by
  induction l with
  | nil => simp at hk
  | cons x l ih =>
    simp only [List.map_cons, List.nodup_cons] at hn
    rcases List.mem_cons.1 hk with rfl | hk
    · simp [hs]
    · have : label x ≠ s := fun e => hn.1 (List.mem_map.2 ⟨k, hk, hs.trans e.symm⟩)
      simp [this, ih hn.2 hk]

/-- A label is read back as its member. -/
@[simp] theorem ofLabel?_label (k : κ) : ofLabel? (label k) = some k :=
  find?_label nodup_labels (Enumeration.mem_all k) rfl

end Labelled

end CardEffects
