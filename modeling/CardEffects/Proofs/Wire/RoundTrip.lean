/-
  CardEffects.Proofs.Wire.RoundTrip

  What is written as JSON is read back as it was: effects, settings, combatants, cards and
  resolutions, as values and as texts.  Settings, combatants and cards are read back from any other
  way to write them too.

    * `Json.RoundTrip` — an encoder and a decoder that undo each other, also through a text.
    * `Json.FreelyWritten` — a decoder that reads all ways to write a value.
    * `wire_roundTrip` — the types that have them.
-/
import CardEffects.Proofs.Wire.Effect
import CardEffects.Proofs.Wire.Plain
import CardEffects.Proofs.Wire.Spelling
import CardEffects.Proofs.Wire.Token

namespace CardEffects

open Json

namespace Json

variable {α : Type} {encode : α → Json} {decode : Json → Option α}

/-- Values come back from what they are written as, and from its text, on one line or laid out. -/
structure RoundTrip (encode : α → Json) (decode : Json → Option α) : Prop where
  value : ∀ a, decode (encode a) = some a
  oneLine : ∀ a, (parse (compact (encode a))).bind decode = some a
  lines : ∀ level a, (parse (pretty level (encode a))).bind decode = some a

theorem RoundTrip.of_plain (h : ∀ a, decode (encode a) = some a) (hplain : ∀ a, Plain (encode a)) :
    RoundTrip encode decode where
  value := h
  oneLine a := by
    rw [parse_compact (hplain a)]
    exact h a
  lines level a := by
    rw [parse_pretty (hplain a) level]
    exact h a

/-- A value may be written in many ways, the encoder's among them, and comes back from each. -/
structure FreelyWritten (writes : α → Json → Prop) (encode : α → Json)
    (decode : Json → Option α) : Prop where
  encoded : ∀ a, writes a (encode a)
  decoded : ∀ a j, writes a j → decode j = some a

theorem FreelyWritten.roundTrip {writes : α → Json → Prop} (h : FreelyWritten writes encode decode)
    (hplain : ∀ a, Plain (encode a)) : RoundTrip encode decode :=
  .of_plain (fun a => h.decoded a _ (h.encoded a)) hplain

end Json

theorem Config.freelyWritten : FreelyWritten Written toJson ofJson? := ⟨written_toJson, faithful⟩

theorem Combatant.freelyWritten : FreelyWritten Written toJson ofJson? :=
  ⟨written_toJson, faithful⟩

theorem Card.freelyWritten : FreelyWritten Written toJson ofJson? := ⟨written_toJson, faithful⟩

theorem Resolution.freelyWritten : FreelyWritten Written toJson ofJson? :=
  ⟨written_toJson, faithful⟩

/-- **What is written is read back.**  Effects with all their parameters, settings, combatants,
cards and resolutions come back from their JSON values and from the texts of these.  Settings,
combatants and cards come back from every record that has their fields in any order, with unknown
fields among them, and without any of those fields that are as their defaults.  The symbols of a
cost may be any tokens that stand for them, which are the words of the table in any ASCII case, in
braces or not. -/
theorem wire_roundTrip :
    RoundTrip Effect.toJson Effect.ofJson?
      ∧ RoundTrip Config.toJson Config.ofJson?
      ∧ RoundTrip Combatant.toJson Combatant.ofJson?
      ∧ RoundTrip Card.toJson Card.ofJson?
      ∧ RoundTrip Resolution.toJson Resolution.ofJson?
      ∧ FreelyWritten Config.Written Config.toJson Config.ofJson?
      ∧ FreelyWritten Combatant.Written Combatant.toJson Combatant.ofJson?
      ∧ FreelyWritten Card.Written Card.toJson Card.ofJson?
      ∧ ∀ token s, CostSymbol.ofToken? token = some s
          ↔ ∃ word, CostSymbol.Dressed word token
              ∧ (word.map Text.asciiLower, s) ∈ CostSymbol.tokens :=
  ⟨.of_plain Effect.ofJson?_toJson Effect.plain_toJson,
    Config.freelyWritten.roundTrip Config.plain_toJson,
    Combatant.freelyWritten.roundTrip Combatant.plain_toJson,
    Card.freelyWritten.roundTrip Card.plain_toJson,
    Resolution.freelyWritten.roundTrip Resolution.plain_toJson,
    Config.freelyWritten, Combatant.freelyWritten, Card.freelyWritten,
    fun _ _ => CostSymbol.ofToken?_eq_some_iff⟩

/-! ### A card as another hand would write it -/

/-- A card with one attack, which has neither damage nor a text. -/
def emberCard : Card where
  id := "A1-033"
  name := "Charmander"
  category := .pokemon
  hp := 60
  energyType := none
  attacks := [⟨"Ember", [.typed .fire, .colorless], 0, ""⟩]
  abilities := []
  effect := ""

/-- The attack with its cost in front, in other tokens. -/
def emberAttackJson : Json :=
  record [("cost", list [text "FIRE", text "\x7bc\x7d"]), ("name", text "Ember")]

/-- The card with its fields the other way round, and one that no card has. -/
def emberJson : Json :=
  record [("weight", decimal "8.5"), ("attacks", list [emberAttackJson]), ("hp", natural 60),
    ("category", text "Pokemon"), ("name", text "Charmander"), ("id", text "A1-033")]

theorem written_emberAttackJson :
    Attack.Written ⟨"Ember", [.typed .fire, .colorless], 0, ""⟩ emberAttackJson := by
  have hcost : ListOf CostSymbol.Written [.typed .fire, .colorless]
      (list [text "FIRE", text "\x7bc\x7d"]) :=
    ⟨_, rfl, .cons ⟨_, rfl, by decide⟩ (.cons ⟨_, rfl, by decide⟩ .nil)⟩
  exact ⟨_, [("name", _), ("cost", _)], [], rfl, .swap _ _ _,
    .written rfl (.written hcost (.leftOut rfl (.leftOut rfl .nil))), List.forall_mem_nil _⟩

theorem written_emberJson : emberCard.Written emberJson := by
  have hattacks : ListOf Attack.Written emberCard.attacks (list [emberAttackJson]) :=
    ⟨_, rfl, .cons written_emberAttackJson .nil⟩
  refine ⟨_, [("id", _), ("name", _), ("category", _), ("hp", _), ("attacks", _)],
    [("weight", decimal "8.5")], rfl, ?_, .written rfl (.written rfl (.written rfl (.written rfl
      (.leftOut rfl (.written hattacks (.leftOut rfl (.leftOut rfl .nil))))))), ?_⟩
  · exact (List.reverse_perm _).symm
  · simp

/-- The card is read back. -/
theorem readBack_emberJson : Card.ofJson? emberJson = some emberCard :=
  wire_roundTrip.2.2.2.2.2.2.2.1.decoded emberCard emberJson written_emberJson

end CardEffects
