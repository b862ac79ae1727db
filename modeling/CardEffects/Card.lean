/-
  CardEffects.Card

  Cards as printed: attacks with their cost, abilities, and the text of a trainer card.  The
  texts of a card are those that are not blank, in printed order.
-/
import CardEffects.Energy
import CardEffects.Word

namespace CardEffects

/-! ## Attacks and abilities -/

/-- An attack of a card. -/
structure Attack where
  name : String
  cost : List CostSymbol
  damage : Word
  effect : String
  deriving DecidableEq, Repr

namespace Attack

/-- The symbols of the cost that ask for one type. -/
def costOf (a : Attack) (e : Energy) : Word := Word.truncate (a.cost.count (.typed e))

/-- The symbols of the cost that any energy pays. -/
def colorlessCost (a : Attack) : Word := Word.truncate (a.cost.count .colorless)

/-- All symbols of the cost. -/
def costTotal (a : Attack) : Word := Word.truncate a.cost.length

end Attack

/-- An ability of a card. -/
structure Ability where
  name : String
  effect : String
  deriving DecidableEq, Repr

/-! ## Cards -/

/-- What a card is. -/
inductive Category where
  | pokemon
  | trainer
  deriving DecidableEq, Repr

instance : Labelled Category where
  all := [.pokemon, .trainer]
  nodup_all := by decide
  mem_all := by intro k; cases k <;> decide
  label
    | .pokemon => "Pokemon"
    | .trainer => "Trainer"
  nodup_labels := by decide

/-- A card. -/
structure Card where
  id : String
  name : String
  category : Category
  hp : Word
  energyType : Option Energy
  attacks : List Attack
  abilities : List Ability
  /-- The text of a trainer card. -/
  effect : String
  deriving DecidableEq, Repr

/-- Where on its card a text stands. -/
inductive TextSource where
  | attack (index : Nat)
  | ability (index : Nat)
  | trainer
  deriving DecidableEq, Repr

namespace Card

/-- A Pokémon without attacks or abilities. -/
def pokemon (id name : String) (hp : Word) (e : Energy) : Card :=
  ⟨id, name, .pokemon, hp, some e, [], [], ""⟩

/-- A trainer card. -/
def trainer (id name effect : String) : Card := ⟨id, name, .trainer, 0, none, [], [], effect⟩

/-- The card with one more attack. -/
def withAttack (c : Card) (a : Attack) : Card := { c with attacks := c.attacks ++ [a] }

/-- The card with one more ability. -/
def withAbility (c : Card) (a : Ability) : Card := { c with abilities := c.abilities ++ [a] }

/-- All texts of a card with their sources, in printed order, blank ones included. -/
def allTexts (c : Card) : List (TextSource × String) :=
  c.attacks.zipIdx.map (fun p => (.attack p.2, p.1.effect))
    ++ c.abilities.zipIdx.map (fun p => (.ability p.2, p.1.effect))
    ++ [(.trainer, c.effect)]

/-- The texts of a card that are not blank. -/
def effectTexts (c : Card) : List (TextSource × String) :=
  c.allTexts.filter fun t => !t.2.toList.all Text.isBlank

end Card

end CardEffects
