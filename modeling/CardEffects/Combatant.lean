/-
  CardEffects.Combatant

  Pokémon in play: the active one with its hit points, energy, conditions and bench, and those
  on the bench.  Damage stops at no hit points left and healing at the maximum.
-/
import CardEffects.Condition
import CardEffects.EnergyPool

namespace CardEffects

/-! ## Hit points -/

/-- Hit points healed by `amount`: no more than are missing. -/
def healable (hp maxHp amount : Word) : Word := Word.least amount (Word.sub maxHp hp)

/-! ## The bench -/

/-- How many bench slots a new combatant has. -/
def benchSlots : Nat := 3

/-- A Pokémon on the bench. -/
structure BenchOccupant where
  name : String
  hp : Word
  maxHp : Word
  energy : EnergyPool
  deriving DecidableEq

namespace BenchOccupant

/-- An unhurt Pokémon without energy. -/
def new (name : String) (maxHp : Word) : BenchOccupant := ⟨name, maxHp, maxHp, ∅⟩

/-- Heals by up to `amount`.  Gives the hit points restored. -/
def heal (o : BenchOccupant) (amount : Word) : Word × BenchOccupant :=
  let healed := healable o.hp o.maxHp amount
  (healed, { o with hp := Word.add o.hp healed })

end BenchOccupant

/-! ## The active Pokémon -/

/-- An active Pokémon with the bench behind it. -/
structure Combatant where
  name : String
  energyType : Energy
  hp : Word
  maxHp : Word
  energy : EnergyPool
  conditions : Conditions
  bench : List (Option BenchOccupant)
  deriving DecidableEq

namespace Combatant

/-- An unhurt Pokémon without energy or conditions, and an empty bench. -/
def new (name : String) (energyType : Energy) (maxHp : Word) : Combatant :=
  ⟨name, energyType, maxHp, maxHp, ∅, ∅, List.replicate benchSlots none⟩

/-- Sets the hit points, the maximum at most. -/
def withHp (c : Combatant) (hp : Word) : Combatant := { c with hp := Word.least hp c.maxHp }

/-- Attaches energy. -/
def withEnergy (c : Combatant) (e : Energy) (n : Word) : Combatant :=
  { c with energy := c.energy.attach e n }

/-- The bench with an occupant in its first free slot; a full bench stays as it is. -/
def seat (o : BenchOccupant) : List (Option BenchOccupant) → List (Option BenchOccupant)
  | [] => []
  | none :: rest => some o :: rest
  | some p :: rest => some p :: seat o rest

/-- Puts an occupant into the first free slot of the bench, if there is one. -/
def withBench (c : Combatant) (o : BenchOccupant) : Combatant :=
  { c with bench := seat o c.bench }

/-- The occupied slots of the bench. -/
def occupants (c : Combatant) : List BenchOccupant := c.bench.filterMap id

/-- How many slots of the bench are occupied. -/
def occupiedBench (c : Combatant) : Nat := c.occupants.length

/-- The hit points missing from the maximum. -/
def damageTaken (c : Combatant) : Word := Word.sub c.maxHp c.hp

/-- Whether no hit points are left. -/
def isKnockedOut (c : Combatant) : Bool := c.hp == 0

/-- Takes up to `amount` damage.  Gives the damage taken. -/
def takeDamage (c : Combatant) (amount : Word) : Word × Combatant :=
  let taken := Word.least amount c.hp
  (taken, { c with hp := Word.sub c.hp taken })

/-- Heals by up to `amount`.  Gives the hit points restored. -/
def heal (c : Combatant) (amount : Word) : Word × Combatant :=
  let healed := healable c.hp c.maxHp amount
  (healed, { c with hp := Word.add c.hp healed })

/-- Attaches one unit of energy. -/
def attachEnergy (c : Combatant) (e : Energy) : Combatant := c.withEnergy e 1

/-- Discards one unit of energy.  Says whether there was one. -/
def discardEnergy (c : Combatant) (e : Energy) : Bool × Combatant :=
  let (removed, pool) := c.energy.discard e 1
  (removed == 1, { c with energy := pool })

/-- Heals the occupant of a slot of the bench by up to `amount`.  Gives the hit points restored,
or nothing for an empty slot; past the bench there is no slot. -/
def healSlot? (c : Combatant) (slot : Nat) (amount : Word) : Option (Option Word × Combatant) :=
  c.bench[slot]?.map fun occupant =>
    match occupant with
    | none => (none, c)
    | some o =>
      let (healed, o) := o.heal amount
      (some healed, { c with bench := c.bench.set slot (some o) })

end Combatant

end CardEffects
