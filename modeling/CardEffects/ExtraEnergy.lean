/-
  CardEffects.ExtraEnergy

  Energy beyond the cost of an attack.  A symbol of a type is paid with that type, and a
  colorless symbol with energy of other types as long as there is some, so as much as possible
  of the wanted type is left.
-/
import CardEffects.Card
import CardEffects.EnergyPool

namespace CardEffects

/-- The units of one type left when the cost of an attack is paid with as few of them as
possible. -/
def EnergyPool.leftOver (p : EnergyPool) (a : Attack) (e : Energy) : Word :=
  let otherTyped := Word.sub (Word.sub a.costTotal a.colorlessCost) (a.costOf e)
  let ownLeft := Word.sub (p.count e) (a.costOf e)
  let othersLeft := Word.sub (Word.sub p.total (p.count e)) otherTyped
  Word.sub ownLeft (Word.sub a.colorlessCost othersLeft)

/-- The units beyond the cost of an attack: of one type, or of all when none is given.  Where
no attack is used, every unit counts. -/
def EnergyPool.extra (p : EnergyPool) (attack : Option Attack) (energy : Option Energy) : Word :=
  match attack, energy with
  | none, energy => p.countOf energy
  | some a, none => Word.sub p.total a.costTotal
  | some a, some e => p.leftOver a e

end CardEffects
