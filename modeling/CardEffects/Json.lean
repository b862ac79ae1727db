/-
  CardEffects.Json

  JSON values.  Records keep their fields in the order written, repeated ones included.  A
  natural number written plainly is a value of its own; every other number is kept as written.
-/

namespace CardEffects

/-- A JSON value. -/
inductive Json where
  | null
  | flag (value : Bool)
  /-- A natural number, written in digits alone. -/
  | natural (value : Nat)
  /-- Any other number, as written. -/
  | decimal (text : String)
  | text (value : String)
  /-- A text with half of a surrogate pair in it, which stands for no characters. -/
  | brokenText
  | list (items : List Json)
  | record (fields : List (String × Json))
  /-- A record with half of a surrogate pair in the name of a field. -/
  | brokenRecord
  deriving Inhabited, Repr

namespace Json

/-- A count. -/
def word (n : UInt32) : Json := natural n.toNat

/-- A list of texts. -/
def texts (items : List String) : Json := list (items.map text)

/-- A value or null. -/
def ofOption {α : Type} (f : α → Json) : Option α → Json
  | some a => f a
  | none => null

/-- A list of values. -/
def ofList {α : Type} (f : α → Json) (items : List α) : Json := list (items.map f)

/-- A record with one field: a variant with its content. -/
def variant (name : String) (content : Json) : Json := record [(name, content)]

end Json

end CardEffects
