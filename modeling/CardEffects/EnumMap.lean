/-
  CardEffects.EnumMap

  Maps keyed by the members of an enumeration.  A map has one slot for each key, in the order
  in which the enumeration lists its members, so two maps that answer every look-up alike are
  equal and the entries always come out in that order.
-/
import CardEffects.Enumeration

namespace CardEffects

/-- A map from the members of an enumeration to values; a member may be absent. -/
structure EnumMap (κ : Type) [Enumeration κ] (α : Type) where
  /-- One slot for each member, in order. -/
  slots : Vector (Option α) (Enumeration.count κ)
  deriving DecidableEq

namespace EnumMap

variable {κ : Type} [DecidableEq κ] [Enumeration κ] {α : Type}

/-- The map that answers look-ups with `f`. -/
def tabulate (f : κ → Option α) : EnumMap κ α :=
  ⟨Vector.ofFn fun i => f (Enumeration.member i)⟩

/-- The map with every member absent. -/
def empty : EnumMap κ α := tabulate fun _ => none

instance : EmptyCollection (EnumMap κ α) := ⟨empty⟩

instance : Inhabited (EnumMap κ α) := ⟨empty⟩

/-- The value stored for `k`, if any. -/
def get? (m : EnumMap κ α) (k : κ) : Option α := m.slots[Enumeration.position k]

/-- Whether a value is stored for `k`. -/
def contains (m : EnumMap κ α) (k : κ) : Bool := (m.get? k).isSome

/-- Puts `v` into the slot of `k`; `none` empties the slot. -/
def put (m : EnumMap κ α) (k : κ) (v : Option α) : EnumMap κ α :=
  ⟨m.slots.set (Enumeration.position k) v⟩

/-- Stores `v` for `k`, in place of what was there. -/
def insert (m : EnumMap κ α) (k : κ) (v : α) : EnumMap κ α := m.put k (some v)

/-- Makes `k` absent. -/
def erase (m : EnumMap κ α) (k : κ) : EnumMap κ α := m.put k none

/-- The members that are present, in order. -/
def keys (m : EnumMap κ α) : List κ := Enumeration.all.filter m.contains

/-- The entries, in the order of their keys. -/
def toList (m : EnumMap κ α) : List (κ × α) :=
  Enumeration.all.filterMap fun k => (m.get? k).map fun v => (k, v)

/-- The values, in the order of their keys. -/
def values (m : EnumMap κ α) : List α := Enumeration.all.filterMap m.get?

/-- Whether every member is absent. -/
def isEmpty (m : EnumMap κ α) : Bool := Enumeration.all.all fun k => (m.get? k).isNone

/-- The map that stores the given entries; of two entries with one key the later counts. -/
def ofList (entries : List (κ × α)) : EnumMap κ α :=
  entries.foldl (fun m e => m.insert e.1 e.2) empty

/-- The entries of both maps; `f` joins two values with one key. -/
def merge (f : α → α → α) (m n : EnumMap κ α) : EnumMap κ α :=
  tabulate fun k =>
    match m.get? k, n.get? k with
    | some a, some b => some (f a b)
    | some a, none => some a
    | none, b => b

/-- How often each member occurs in a list; those that do not are absent. -/
def tally (l : List κ) : EnumMap κ Nat :=
  tabulate fun k => if k ∈ l then some (l.count k) else none

/-! ## Look-ups -/

@[simp] theorem get?_tabulate (f : κ → Option α) (k : κ) : (tabulate f).get? k = f k := by
  simp [get?, tabulate, Enumeration.member_position]

@[simp] theorem get?_empty (k : κ) : (empty : EnumMap κ α).get? k = none := by
  simp [empty]

theorem get?_put (m : EnumMap κ α) (k l : κ) (v : Option α) :
    (m.put k v).get? l = if l = k then v else m.get? l := by
  unfold put get?
  simp only [Fin.getElem_fin]
  rw [Vector.getElem_set]
  by_cases h : l = k
  · simp [h]
  · have : (Enumeration.position k).val ≠ (Enumeration.position l).val := fun e =>
      h (Enumeration.position_inj.1 (Fin.ext e)).symm
    simp [h, this]

theorem get?_insert (m : EnumMap κ α) (k l : κ) (v : α) :
    (m.insert k v).get? l = if l = k then some v else m.get? l :=
  get?_put m k l (some v)

theorem get?_erase (m : EnumMap κ α) (k l : κ) :
    (m.erase k).get? l = if l = k then none else m.get? l :=
  get?_put m k l none

theorem get?_merge (f : α → α → α) (m n : EnumMap κ α) (k : κ) :
    (m.merge f n).get? k = Option.merge f (m.get? k) (n.get? k) := by
  rw [merge, get?_tabulate]
  cases m.get? k <;> cases n.get? k <;> rfl

/-- Maps that answer every look-up alike are equal. -/
@[ext] theorem ext {m n : EnumMap κ α} (h : ∀ k, m.get? k = n.get? k) : m = n := by
  cases m with | mk s =>
  cases n with | mk t =>
  congr 1
  apply Vector.ext
  intro i hi
  have := h (Enumeration.member ⟨i, hi⟩)
  simpa [get?, Enumeration.position_member] using this

theorem mem_keys {m : EnumMap κ α} {k : κ} : k ∈ m.keys ↔ (m.get? k).isSome := by
  simp [keys, contains]

theorem mem_toList {m : EnumMap κ α} {k : κ} {v : α} : (k, v) ∈ m.toList ↔ m.get? k = some v := by
  simp [toList]

theorem isEmpty_iff {m : EnumMap κ α} : m.isEmpty = true ↔ ∀ k, m.get? k = none := by
  simp [isEmpty]

end EnumMap

end CardEffects
