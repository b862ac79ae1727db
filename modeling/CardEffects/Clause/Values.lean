/-
  CardEffects.Clause.Values

  What the text in the slots of a phrase stands for: numbers, energy, conditions, targets and
  lists of names; and whether a place lies in a sentence that a coin flip or an "if" opens.
-/
import CardEffects.Clause.Phrase
import CardEffects.Effect

namespace CardEffects.Clause

/-! ## Numbers -/

/-- The count written in digits, when it fits. -/
def readDigits? (cs : List Char) : Option Word :=
  if cs ≠ [] ∧ cs.all Char.isDigit then Word.ofNat? (Nat.ofDigitChars 10 cs 0) else none

/-- The words for small numbers. -/
def numberWords : List (List Char × Word) :=
  [("a".toList, 1), ("an".toList, 1), ("one".toList, 1), ("a random".toList, 1),
    ("two".toList, 2), ("both".toList, 2), ("three".toList, 3), ("four".toList, 4),
    ("five".toList, 5), ("six".toList, 6)]

/-- The number a text stands for, in words or in digits. -/
def readNumber? (cs : List Char) : Option Word :=
  match numberWords.lookup cs with
  | some n => some n
  | none => readDigits? cs

/-- The number in a slot; zero when it is missing or does not fit. -/
def number (text : Option (List Char)) : Word :=
  (text.bind fun cs => readNumber? (Text.trim cs)).getD 0

/-- How much is discarded. -/
def discardCount (text : Option (List Char)) : DiscardCount :=
  if text = some "all".toList then .all else .count (number text)

/-! ## Energy and conditions -/

/-- The energy in a slot, which may be missing.  A token that names no energy type, colorless
among them, rejects the whole reading. -/
def energy? : Option (List Char) → Option (Option Energy)
  | none => some none
  | some cs =>
    match CostSymbol.ofToken? cs with
    | some (.typed e) => some (some e)
    | _ => none

/-- The energy produced: the named type, or else the Pokémon's own. -/
def energySpec : Option Energy → EnergySpec
  | some e => .named e
  | none => .ownType

/-- The condition in a slot. -/
def condition? (text : Option (List Char)) : Option Condition := text.bind Condition.ofWord?

/-! ## Targets -/

/-- Whether a text starts with a word. -/
def startsWith (w : String) (cs : List Char) : Bool := w.toList.isPrefixOf cs

/-- Whether a word occurs in a text. -/
def mentions (w : String) : List Char → Bool
  | [] => w.toList.isEmpty
  | c :: cs => w.toList.isPrefixOf (c :: cs) || mentions w cs

/-- Whom a condition is inflicted on. -/
def conditionTarget : Option (List Char) → ConditionTarget
  | some cs => if startsWith "this" cs then .this else .opponent
  | none => .opponent

/-- Which side is meant. -/
def side : Option (List Char) → Side
  | some cs => if mentions "opponent" cs then .opponent else .own
  | none => .own

/-- Where energy goes. -/
def energyTarget : Option (List Char) → EnergyTarget
  | some cs =>
    if mentions "benched" cs then .bench
    else if startsWith "this" cs || mentions "active" cs then .this
    else .anyOwn
  | none => .this

/-- Who is healed. -/
def healTarget : Option (List Char) → HealTarget
  | some cs =>
    if startsWith "each" cs then .eachOwn
    else if startsWith "1 of" cs then .anyOwn
    else .this
  | none => .this

/-! ## Lists of names -/

/-- The text with each occurrence of `w`, from left to right, replaced by a comma; `skip` is the
number of characters that the last occurrence still covers. -/
def commaFor (w : List Char) : Nat → List Char → List Char
  | _, [] => []
  | skip + 1, _ :: cs => commaFor w skip cs
  | 0, c :: cs =>
    if w.isPrefixOf (c :: cs) then ',' :: commaFor w (w.length - 1) cs
    else c :: commaFor w 0 cs

/-- The parts of a text between commas. -/
def atCommas : List Char → List (List Char)
  | [] => [[]]
  | c :: cs =>
    if c = ',' then [] :: atCommas cs
    else
      match atCommas cs with
      | part :: rest => (c :: part) :: rest
      | [] => [[c]]

/-- The names in a list joined by commas, "and" and "or". -/
def nameList (cs : List Char) : List (List Char) :=
  ((atCommas (commaFor " or ".toList 0 (commaFor " and ".toList 0 cs))).map Text.trim).filter
    (· ≠ [])

/-! ## Sentences -/

/-- The sentence so far, `before` being the text up to a place, its last character first. -/
def sentenceBefore (before : List Char) : List Char := (before.takeWhile (· ≠ '.')).reverse

/-- Whether the sentence of a place opens with a coin flip or an "if", so that what stands
there is only a consequence; `before` is the text up to the place, its last character first. -/
def isGated (before : List Char) : Bool :=
  let sentence := Text.trimStart (sentenceBefore before)
  startsWith "if " sentence || startsWith "flip " sentence

end CardEffects.Clause
