/-
  CardEffects.Json.Decode

  Decoding JSON values into values of other types.  A structure is read from a record, where
  the order of fields is free and unknown ones are passed over, or from a list of its fields in
  order.  A variant without content is a text, or a record that gives it null; one with content
  is a record with that one field.  Where the content is fields of the variant's own, it is a
  record and never a list.
-/
import CardEffects.Enumeration
import CardEffects.EnumMap
import CardEffects.Json
import CardEffects.Word

namespace CardEffects.Json

/-! ## Leaves -/

/-- A natural number below a bound. -/
def naturalBelow? (bound : Nat) : Json → Option Nat
  | natural n => if n < bound then some n else none
  | _ => none

/-- A count. -/
def word? : Json → Option Word
  | natural n => Word.ofNat? n
  | _ => none

/-- A flag. -/
def flag? : Json → Option Bool
  | flag b => some b
  | _ => none

/-- A text. -/
def text? : Json → Option String
  | text s => some s
  | _ => none

/-- A list whose items are all decoded. -/
def list? {α : Type} (decode : Json → Option α) : Json → Option (List α)
  | list items => items.mapM decode
  | _ => none

/-- A value that may be null. -/
def option? {α : Type} (decode : Json → Option α) : Json → Option (Option α)
  | null => some none
  | j => (decode j).map some

/-! ## Variants -/

/-- The name of a variant and its content, if it comes with one. -/
def variant? : Json → Option (String × Option Json)
  | text name => some (name, none)
  | record [(name, content)] => some (name, some content)
  | _ => none

/-- A member of an enumeration by its label. -/
def label? {κ : Type} [Labelled κ] (j : Json) : Option κ :=
  match variant? j with
  | some (name, none) => Labelled.ofLabel? name
  | some (name, some null) => Labelled.ofLabel? name
  | _ => none

/-! ## Structures -/

/-- What a value says about one field of a structure. -/
inductive Field where
  | given (value : Json)
  /-- The record has no such field. -/
  | missing
  /-- The list of fields ends before it. -/
  | cutOff
  deriving Inhabited

/-- The fields that the content of a variant has, by name.  Only a record gives them, each at
most once. -/
def fields? (names : List String) : Json → Option (String → Field)
  | record fields =>
    if names.all fun n => fields.countP (fun f => f.1 == n) ≤ 1 then
      some fun n =>
        match fields.lookup n with
        | some value => .given value
        | none => .missing
    else none
  | _ => none

/-- The fields of a structure, by name, from a record or from a list not longer than the list
of names. -/
def structure? (names : List String) : Json → Option (String → Field)
  | list items =>
    if items.length ≤ names.length then
      some fun n =>
        match (names.zip items).lookup n with
        | some value => .given value
        | none => .cutOff
    else none
  | j => fields? names j

namespace Field

variable {α : Type}

/-- A field that must be there. -/
def required (decode : Json → Option α) : Field → Option α
  | given j => decode j
  | _ => none

/-- A field that stands for `d` when it is not there. -/
def orDefault (d : α) (decode : Json → Option α) : Field → Option α
  | given j => decode j
  | _ => some d

/-- A field that may be null, or missing from a record. -/
def optional (decode : Json → Option α) : Field → Option (Option α)
  | given j => option? decode j
  | missing => some none
  | cutOff => none

end Field

/-! ## Maps -/

/-- A map keyed by the labels of an enumeration; of two fields with one label the later
counts. -/
def enumMap? {κ : Type} [DecidableEq κ] [Labelled κ] {α : Type} (decode : Json → Option α) :
    Json → Option (EnumMap κ α)
  | record fields => do
    let entries ← fields.mapM fun f => do
      let k ← Labelled.ofLabel? f.1
      let v ← decode f.2
      some (k, v)
    some (EnumMap.ofList entries)
  | _ => none

/-- The record of a map, keyed by the labels of an enumeration. -/
def ofEnumMap {κ : Type} [DecidableEq κ] [Labelled κ] {α : Type} (encode : α → Json)
    (m : EnumMap κ α) : Json :=
  record (m.toList.map fun e => (Labelled.label e.1, encode e.2))

end CardEffects.Json
