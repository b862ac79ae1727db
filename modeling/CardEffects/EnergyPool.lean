/-
  CardEffects.EnergyPool

  The energy attached to a Pokémon: a count of units for each type.  Attaching saturates at
  the largest count, and a type whose last unit is discarded is absent again.  The total of all
  types is a count as well; where the units do not fit one, it wraps around.
-/
import CardEffects.Energy
import CardEffects.EnumMap
import CardEffects.Word

namespace CardEffects

/-- Attached energy, as a count of units for each type that is present. -/
structure EnergyPool where
  units : EnumMap Energy Word
  deriving DecidableEq

namespace EnergyPool

/-- No energy at all. -/
def empty : EnergyPool := ⟨∅⟩

instance : EmptyCollection EnergyPool := ⟨empty⟩

instance : Inhabited EnergyPool := ⟨empty⟩

/-! ## Counting -/

/-- The units of one type. -/
def count (p : EnergyPool) (e : Energy) : Word := (p.units.get? e).getD 0

/-- The types present with their counts, in order. -/
def entries (p : EnergyPool) : List (Energy × Word) := p.units.toList

/-- How many units there are, of all types together. -/
def size (p : EnergyPool) : Nat := Word.sum p.units.values

/-- The counts of all types added up. -/
def total (p : EnergyPool) : Word := Word.sumWrapping p.units.values

/-- The count of one type, or the total of all types when none is given. -/
def countOf (p : EnergyPool) : Option Energy → Word
  | some e => p.count e
  | none => p.total

/-- Whether no type is present. -/
def isEmpty (p : EnergyPool) : Bool := p.units.isEmpty

/-! ## Attaching -/

/-- Attaches `n` units of one type; attaching none changes nothing. -/
def attach (p : EnergyPool) (e : Energy) (n : Word) : EnergyPool :=
  if n = 0 then p else ⟨p.units.insert e (Word.add (p.count e) n)⟩

/-- The pool with the given units attached to nothing. -/
def ofUnits (units : List (Energy × Word)) : EnergyPool :=
  units.foldl (fun p u => p.attach u.1 u.2) empty

/-! ## Discarding -/

/-- Discards up to `n` units of one type.  Gives the number discarded and the pool left. -/
def discard (p : EnergyPool) (e : Energy) (n : Word) : Word × EnergyPool :=
  match p.units.get? e with
  | none => (0, p)
  | some held =>
    let removed := Word.least held n
    let left := Word.sub held removed
    (removed, ⟨if left = 0 then p.units.erase e else p.units.insert e left⟩)

/-- Discards up to `n` units of the listed types, each in turn. -/
def discardInTurn (p : EnergyPool) (n : Word) : List Energy → List (Energy × Word) × EnergyPool
  | [] => ([], p)
  | e :: rest =>
    if n = 0 then ([], p)
    else
      let (removed, p') := p.discard e n
      let (more, p'') := p'.discardInTurn (Word.sub n removed) rest
      (if removed = 0 then more else (e, removed) :: more, p'')

/-- Discards up to `n` units of any type, the first types of the order first. -/
def discardAny (p : EnergyPool) (n : Word) : List (Energy × Word) × EnergyPool :=
  p.discardInTurn n p.units.keys

/-- Discards everything. -/
def discardAll (p : EnergyPool) : List (Energy × Word) × EnergyPool := (p.entries, empty)

/-- The type of the unit at place `i` when the units are laid out type by type. -/
def unitAt? (i : Nat) : List (Energy × Word) → Option Energy
  | [] => none
  | (e, n) :: rest => if i < n.toNat then some e else unitAt? (i - n.toNat) rest

end EnergyPool

end CardEffects
