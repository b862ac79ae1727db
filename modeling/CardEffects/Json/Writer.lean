/-
  CardEffects.Json.Writer

  JSON text: on one line, or laid out with two spaces for each level of nesting.
-/
import CardEffects.Json
import CardEffects.Text.Term

namespace CardEffects.Json

/-! ## Leaves -/

/-- A hexadecimal digit. -/
def hexDigit (n : Nat) : Char := (Nat.toDigits 16 n).headD '0'

/-- A character as it stands in a JSON text. -/
def escape (c : Char) : List Char :=
  match c with
  | '"' => ['\\', '"']
  | '\\' => ['\\', '\\']
  | '\n' => ['\\', 'n']
  | '\r' => ['\\', 'r']
  | '\t' => ['\\', 't']
  | '\x08' => ['\\', 'b']
  | '\x0c' => ['\\', 'f']
  | c =>
    if c.toNat < 32 then
      ['\\', 'u', '0', '0', hexDigit (c.toNat / 16), hexDigit (c.toNat % 16)]
    else [c]

/-- A text between quotes. -/
def writeText (s : String) : String :=
  String.ofList ('"' :: s.toList.flatMap escape ++ ['"'])

/-! ## On one line

What is written is put behind the text so far, so that a value of any size is written in one
pass. -/

mutual

/-- The text `out` with a value on one line behind it. -/
def compactOnto (out : String) : Json → String
  | null => out ++ "null"
  | flag true => out ++ "true"
  | flag false => out ++ "false"
  | natural n => out ++ Term.number n
  | decimal t => out ++ t
  | text s => out ++ writeText s
  | brokenText => out ++ writeText ""
  | list items => compactItems (out ++ "[") "" items ++ "]"
  | record fields => compactFields (out ++ "\x7b") "" fields ++ "\x7d"
  | brokenRecord => out ++ "\x7b\x7d"

/-- The text `out` with the items of a list behind it, `sep` before the first. -/
def compactItems (out sep : String) : List Json → String
  | [] => out
  | j :: rest => compactItems (compactOnto (out ++ sep) j) "," rest

/-- The text `out` with the fields of a record behind it, `sep` before the first. -/
def compactFields (out sep : String) : List (String × Json) → String
  | [] => out
  | (k, j) :: rest => compactFields (compactOnto (out ++ sep ++ writeText k ++ ":") j) "," rest

end

/-- A value on one line. -/
def compact (j : Json) : String := compactOnto "" j

/-! ## Laid out -/

/-- A new line at a level of nesting. -/
def newline (level : Nat) : String := String.ofList ('\n' :: List.replicate (2 * level) ' ')

mutual

/-- The text `out` with a value laid out behind it, starting at a level of nesting. -/
def prettyOnto (out : String) (level : Nat) : Json → String
  | list [] => out ++ "[]"
  | record [] => out ++ "\x7b\x7d"
  | list (j :: rest) => prettyItems (out ++ "[") level "" (j :: rest) ++ newline level ++ "]"
  | record (f :: rest) =>
    prettyFields (out ++ "\x7b") level "" (f :: rest) ++ newline level ++ "\x7d"
  | null => compactOnto out null
  | flag b => compactOnto out (flag b)
  | natural n => compactOnto out (natural n)
  | decimal t => compactOnto out (decimal t)
  | text s => compactOnto out (text s)
  | brokenText => compactOnto out brokenText
  | brokenRecord => compactOnto out brokenRecord

/-- The text `out` with the items of a list behind it, each on a line of its own. -/
def prettyItems (out : String) (level : Nat) (sep : String) : List Json → String
  | [] => out
  | j :: rest =>
    prettyItems (prettyOnto (out ++ sep ++ newline (level + 1)) (level + 1) j) level "," rest

/-- The text `out` with the fields of a record behind it, each on a line of its own. -/
def prettyFields (out : String) (level : Nat) (sep : String) : List (String × Json) → String
  | [] => out
  | (k, j) :: rest =>
    prettyFields
      (prettyOnto (out ++ sep ++ newline (level + 1) ++ writeText k ++ ": ") (level + 1) j)
      level "," rest

end

/-- A value laid out, starting at a level of nesting. -/
def pretty (level : Nat) (j : Json) : String := prettyOnto "" level j

end CardEffects.Json
