/-
  CardEffects.Text.Term

  Values in notes and reports are written as terms: a bare name, a name with arguments in
  parentheses, or a name with labelled fields in braces.
-/

namespace CardEffects.Term

/-- The text of a count. -/
def number (n : Nat) : String := String.ofList (Nat.toDigits 10 n)

/-- A name applied to one argument. -/
def call (name argument : String) : String := name ++ "(" ++ argument ++ ")"

/-- A name with labelled fields. -/
def fields (name : String) (entries : List (String × String)) : String :=
  name ++ " \x7b " ++ ", ".intercalate (entries.map fun e => e.1 ++ ": " ++ e.2) ++ " \x7d"

/-- A value that may be missing. -/
def optional : Option String → String
  | none => "None"
  | some s => call "Some" s

/-- A list of values. -/
def list (items : List String) : String := "[" ++ ", ".intercalate items ++ "]"

end CardEffects.Term
