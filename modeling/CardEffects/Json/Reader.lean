/-
  CardEffects.Json.Reader

  Reading JSON text by its strict grammar: no comments, no trailing commas, no leading zeros,
  no raw control characters in texts, and nothing but blanks behind the value.
-/
import CardEffects.Json

namespace CardEffects.Json

/-! ## Blanks and words -/

/-- The four blanks of the grammar. -/
def isBlank (c : Char) : Bool := c == ' ' || c == '\n' || c == '\t' || c == '\r'

/-- The text behind leading blanks. -/
def skipBlanks (cs : List Char) : List Char := cs.dropWhile isBlank

/-! ## Texts -/

/-- A piece of a text: a character, or a 16-bit unit given by its number. -/
inductive Piece where
  | char (c : Char)
  | unit (n : Nat)
  deriving DecidableEq, Repr

/-- The value of a hexadecimal digit. -/
def hexValue? (c : Char) : Option Nat :=
  if '0' ≤ c ∧ c ≤ '9' then some (c.toNat - 48)
  else if 'a' ≤ c ∧ c ≤ 'f' then some (c.toNat - 87)
  else if 'A' ≤ c ∧ c ≤ 'F' then some (c.toNat - 55)
  else none

/-- The number written by four hexadecimal digits. -/
def hexUnit? (a b c d : Char) : Option Nat := do
  let a ← hexValue? a
  let b ← hexValue? b
  let c ← hexValue? c
  let d ← hexValue? d
  some (((a * 16 + b) * 16 + c) * 16 + d)

/-- The character that a letter behind a backslash stands for. -/
def unescape? : Char → Option Char
  | '"' => some '"'
  | '\\' => some '\\'
  | '/' => some '/'
  | 'b' => some '\x08'
  | 'f' => some '\x0c'
  | 'n' => some '\n'
  | 'r' => some '\r'
  | 't' => some '\t'
  | _ => none

/-- The pieces up to the closing quote, and the text behind it.  `acc` holds the pieces read,
the last first. -/
def readPieces (acc : List Piece) : List Char → Option (List Piece × List Char)
  | [] => none
  | '"' :: rest => some (acc.reverse, rest)
  | '\\' :: 'u' :: a :: b :: c :: d :: rest =>
    match hexUnit? a b c d with
    | some n => readPieces (.unit n :: acc) rest
    | none => none
  | '\\' :: e :: rest =>
    match unescape? e with
    | some c => readPieces (.char c :: acc) rest
    | none => none
  | c :: rest => if c.toNat < 32 then none else readPieces (.char c :: acc) rest

/-- The characters of a text; a high and a low unit make one, and either alone makes none. -/
def joinPieces : List Piece → Option (List Char)
  | [] => some []
  | .char c :: rest => (joinPieces rest).map (c :: ·)
  | .unit n :: .unit m :: rest =>
    if 0xD800 ≤ n ∧ n < 0xDC00 ∧ 0xDC00 ≤ m ∧ m < 0xE000 then
      (joinPieces rest).map (Char.ofNat (0x10000 + (n - 0xD800) * 0x400 + (m - 0xDC00)) :: ·)
    else if 0xD800 ≤ n ∧ n < 0xE000 then none
    else (joinPieces (.unit m :: rest)).map (Char.ofNat n :: ·)
  | .unit n :: rest =>
    if 0xD800 ≤ n ∧ n < 0xE000 then none else (joinPieces rest).map (Char.ofNat n :: ·)

/-- A text behind its opening quote. -/
def readText (cs : List Char) : Option (Option String × List Char) :=
  (readPieces [] cs).map fun p => ((joinPieces p.1).map String.ofList, p.2)

/-! ## Numbers -/

/-- One or more digits, and the text behind them. -/
def readDigits (cs : List Char) : Option (List Char × List Char) :=
  match cs.span Char.isDigit with
  | ([], _) => none
  | (ds, rest) => some (ds, rest)

/-- The digits before the point: a zero stands alone. -/
def readWhole : List Char → Option (List Char × List Char)
  | '0' :: rest =>
    match rest with
    | c :: _ => if c.isDigit then none else some (['0'], rest)
    | [] => some (['0'], rest)
  | cs => readDigits cs

/-- A point with the digits behind it, if there is one. -/
def readFraction : List Char → Option (List Char × List Char)
  | '.' :: rest => (readDigits rest).map fun p => ('.' :: p.1, p.2)
  | cs => some ([], cs)

/-- An exponent, if there is one. -/
def readExponent : List Char → Option (List Char × List Char)
  | c :: rest =>
    if c = 'e' ∨ c = 'E' then
      match rest with
      | s :: more =>
        if s = '+' ∨ s = '-' then (readDigits more).map fun p => (c :: s :: p.1, p.2)
        else (readDigits rest).map fun p => (c :: p.1, p.2)
      | [] => none
    else some ([], c :: rest)
  | [] => some ([], [])

/-- A number. -/
def readNumber (cs : List Char) : Option (Json × List Char) := do
  let (sign, cs) := match cs with
    | '-' :: rest => (['-'], rest)
    | _ => ([], cs)
  let (whole, cs) ← readWhole cs
  let (fraction, cs) ← readFraction cs
  let (exponent, cs) ← readExponent cs
  if sign = [] ∧ fraction = [] ∧ exponent = [] then
    some (natural (Nat.ofDigitChars 10 whole 0), cs)
  else some (decimal (String.ofList (sign ++ whole ++ fraction ++ exponent)), cs)

/-! ## Values -/

/-- The record of the fields read, if the name of each stands for characters. -/
def recordOf (fields : List (Option String × Json)) : Json :=
  match fields.mapM fun f => f.1.map (·, f.2) with
  | some named => record named
  | none => brokenRecord

mutual

/-- A value, and the text behind it.  Every step spends one unit of `fuel`. -/
def readValue : Nat → List Char → Option (Json × List Char)
  | 0, _ => none
  | fuel + 1, cs =>
    match skipBlanks cs with
    | 'n' :: 'u' :: 'l' :: 'l' :: rest => some (null, rest)
    | 't' :: 'r' :: 'u' :: 'e' :: rest => some (flag true, rest)
    | 'f' :: 'a' :: 'l' :: 's' :: 'e' :: rest => some (flag false, rest)
    | '"' :: rest =>
      (readText rest).map fun p =>
        (match p.1 with
          | some s => text s
          | none => brokenText, p.2)
    | '[' :: rest =>
      match skipBlanks rest with
      | ']' :: rest => some (list [], rest)
      | rest => readItems fuel [] rest
    | '\x7b' :: rest =>
      match skipBlanks rest with
      | '\x7d' :: rest => some (record [], rest)
      | rest => readFields fuel [] rest
    | rest => readNumber rest

/-- The items of a list up to the closing bracket, `acc` being those before, the last first. -/
def readItems : Nat → List Json → List Char → Option (Json × List Char)
  | 0, _, _ => none
  | fuel + 1, acc, cs =>
    match readValue fuel cs with
    | none => none
    | some (item, rest) =>
      match skipBlanks rest with
      | ',' :: rest => readItems fuel (item :: acc) rest
      | ']' :: rest => some (list (item :: acc).reverse, rest)
      | _ => none

/-- The fields of a record up to the closing brace, `acc` being those before, the last
first. -/
def readFields : Nat → List (Option String × Json) → List Char → Option (Json × List Char)
  | 0, _, _ => none
  | fuel + 1, acc, cs =>
    match skipBlanks cs with
    | '"' :: rest =>
      match readText rest with
      | some (name, rest) =>
        match skipBlanks rest with
        | ':' :: rest =>
          match readValue fuel rest with
          | none => none
          | some (value, rest) =>
            match skipBlanks rest with
            | ',' :: rest => readFields fuel ((name, value) :: acc) rest
            | '\x7d' :: rest => some (recordOf ((name, value) :: acc).reverse, rest)
            | _ => none
        | _ => none
      | _ => none
    | _ => none

end

/-- The value a text holds, if it holds one and nothing else. -/
def parse (s : String) : Option Json :=
  let cs := s.toList
  match readValue (2 * cs.length + 2) cs with
  | some (value, rest) => if skipBlanks rest = [] then some value else none
  | none => none

end CardEffects.Json
