/-
  CardEffects.Proofs.Json.Layout

  What the writers write.  Between the parts of a value blanks may stand, before each item and each
  field and behind each colon; a writer is a choice of these.

    * `Layout` — which blanks stand where.
    * `Layout.render` — the text of a value in a layout.
    * `toList_compactOnto`, `toList_prettyOnto` — the writers, as layouts.
-/
import CardEffects.Json.Reader
import CardEffects.Json.Writer

namespace CardEffects.Json

/-! ## Layouts -/

/-- The blanks between the parts of a value: before what is nested so many levels deep, and behind
a colon. -/
structure Layout where
  gap : Nat → List Char
  colon : List Char
  gap_blank : ∀ level, ∀ c ∈ gap level, isBlank c = true
  colon_blank : ∀ c ∈ colon, isBlank c = true

namespace Layout

/-- No blanks at all. -/
def oneLine : Layout where
  gap _ := []
  colon := []
  gap_blank _ _ hc := absurd hc List.not_mem_nil
  colon_blank _ hc := absurd hc List.not_mem_nil

/-- A line for each item and each field. -/
def lines : Layout where
  gap level := '\n' :: List.replicate (2 * level) ' '
  colon := [' ']
  gap_blank level c hc := by
    rcases List.mem_cons.1 hc with rfl | hc
    · decide
    · rw [List.eq_of_mem_replicate hc]
      decide
  colon_blank c hc := by
    rw [List.mem_singleton.1 hc]
    decide

variable (l : Layout)

/-- A text between quotes. -/
def quoted (s : String) : List Char := '"' :: (s.toList.flatMap escape ++ ['"'])

mutual

/-- The text of a value. -/
def render (level : Nat) : Json → List Char
  | null => "null".toList
  | flag true => "true".toList
  | flag false => "false".toList
  | natural n => Nat.toDigits 10 n
  | decimal t => t.toList
  | text s => quoted s
  | brokenText => quoted ""
  | list [] => ['[', ']']
  | list (j :: rest) => '[' :: (renderItems level [] (j :: rest) ++ (l.gap level ++ [']']))
  | record [] => ['\x7b', '\x7d']
  | record (f :: rest) =>
    '\x7b' :: (renderFields level [] (f :: rest) ++ (l.gap level ++ ['\x7d']))
  | brokenRecord => ['\x7b', '\x7d']

/-- The text of the items of a list, `sep` before the first. -/
def renderItems (level : Nat) (sep : List Char) : List Json → List Char
  | [] => []
  | j :: rest => sep ++ (l.gap (level + 1) ++ (render (level + 1) j ++ renderItems level [','] rest))

/-- The text of the fields of a record, `sep` before the first. -/
def renderFields (level : Nat) (sep : List Char) : List (String × Json) → List Char
  | [] => []
  | (k, j) :: rest =>
    sep ++ (l.gap (level + 1) ++ (quoted k ++ (':' :: (l.colon ++
      (render (level + 1) j ++ renderFields level [','] rest)))))

end

end Layout

open Layout

/-! ## On one line -/

theorem quoted_append (s : String) (rest : List Char) :
    quoted s ++ rest = '"' :: (s.toList.flatMap escape ++ '"' :: rest) := by
  simp [quoted]

theorem toList_writeText (s : String) : (writeText s).toList = quoted s := by
  rw [writeText, String.toList_ofList]
  rfl

mutual

theorem toList_compactOnto (out : String) (level : Nat) : ∀ j : Json,
    (compactOnto out j).toList = out.toList ++ oneLine.render level j
  | null => by simp [compactOnto, render]
  | flag true => by simp [compactOnto, render]
  | flag false => by simp [compactOnto, render]
  | natural n => by simp [compactOnto, render, Term.number]
  | decimal t => by simp [compactOnto, render]
  | text s => by simp [compactOnto, render, toList_writeText]
  | brokenText => by simp [compactOnto, render, toList_writeText]
  | list [] => by simp [compactOnto, compactItems, render]
  | list (j :: rest) => by
    simp [compactOnto, render, toList_compactItems _ _ level (j :: rest), oneLine]
  | record [] => by simp [compactOnto, compactFields, render]
  | record (f :: rest) => by
    simp [compactOnto, render, toList_compactFields _ _ level (f :: rest), oneLine]
  | brokenRecord => by simp [compactOnto, render]

theorem toList_compactItems (out sep : String) (level : Nat) : ∀ items : List Json,
    (compactItems out sep items).toList
      = out.toList ++ oneLine.renderItems level sep.toList items
  | [] => by simp [compactItems, renderItems]
  | j :: rest => by
    rw [compactItems, toList_compactItems _ _ level rest, toList_compactOnto _ (level + 1) j,
      renderItems]
    simp [oneLine]

theorem toList_compactFields (out sep : String) (level : Nat) :
    ∀ fields : List (String × Json),
      (compactFields out sep fields).toList
        = out.toList ++ oneLine.renderFields level sep.toList fields
  | [] => by simp [compactFields, renderFields]
  | (k, j) :: rest => by
    rw [compactFields, toList_compactFields _ _ level rest, toList_compactOnto _ (level + 1) j,
      renderFields]
    simp [oneLine, toList_writeText]

end

/-! ## On many lines -/

theorem toList_newline (level : Nat) : (newline level).toList = lines.gap level := by
  rw [newline, String.toList_ofList]
  rfl

mutual

theorem toList_prettyOnto (out : String) (level : Nat) : ∀ j : Json,
    (prettyOnto out level j).toList = out.toList ++ lines.render level j
  | null => by simp [prettyOnto, compactOnto, render]
  | flag true => by simp [prettyOnto, compactOnto, render]
  | flag false => by simp [prettyOnto, compactOnto, render]
  | natural n => by simp [prettyOnto, compactOnto, render, Term.number]
  | decimal t => by simp [prettyOnto, compactOnto, render]
  | text s => by simp [prettyOnto, compactOnto, render, toList_writeText]
  | brokenText => by simp [prettyOnto, compactOnto, render, toList_writeText]
  | list [] => by simp [prettyOnto, render]
  | list (j :: rest) => by
    simp [prettyOnto, render, toList_prettyItems _ level _ (j :: rest), toList_newline]
  | record [] => by simp [prettyOnto, render]
  | record (f :: rest) => by
    simp [prettyOnto, render, toList_prettyFields _ level _ (f :: rest), toList_newline]
  | brokenRecord => by simp [prettyOnto, compactOnto, render]

theorem toList_prettyItems (out : String) (level : Nat) (sep : String) : ∀ items : List Json,
    (prettyItems out level sep items).toList
      = out.toList ++ lines.renderItems level sep.toList items
  | [] => by simp [prettyItems, renderItems]
  | j :: rest => by
    rw [prettyItems, toList_prettyItems _ level _ rest, toList_prettyOnto _ (level + 1) j,
      renderItems]
    simp [toList_newline]

theorem toList_prettyFields (out : String) (level : Nat) (sep : String) :
    ∀ fields : List (String × Json),
      (prettyFields out level sep fields).toList
        = out.toList ++ lines.renderFields level sep.toList fields
  | [] => by simp [prettyFields, renderFields]
  | (k, j) :: rest => by
    rw [prettyFields, toList_prettyFields _ level _ rest, toList_prettyOnto _ (level + 1) j,
      renderFields]
    simp [toList_newline, toList_writeText, lines]

end

end CardEffects.Json
