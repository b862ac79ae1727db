/-
  CardEffects.Text.Lowercase

  Lower-casing of whole texts by the full mapping of the Unicode Standard.  It is character by
  character except for two letters: capital I with a dot becomes two characters, and capital
  sigma becomes a final sigma at the end of a word.
-/
import CardEffects.Text.CaseTable
import CardEffects.Text.Ranges

namespace CardEffects.Text

/-- The lower-case form of a code point by the given runs, or the code point itself. -/
def lowerBy : List CaseRun → Nat → Nat
  | [], n => n
  | r :: rest, n =>
    if n < r.first then n
    else if r.covers n then r.image + (n - r.first)
    else lowerBy rest n

/-- The lower-case form of a character that has one of a single character, else itself. -/
def lowerChar (c : Char) : Char := Char.ofNat (lowerBy caseRuns c.toNat)

/-- Whether a character is a letter with case. -/
def isCased (c : Char) : Bool := inRanges casedRanges c.toNat

/-- Whether a character is passed over when the neighbours of a sigma are looked for. -/
def isCaseIgnorable (c : Char) : Bool := inRanges caseIgnorableRanges c.toNat

/-- Whether the next character that is not passed over has case. -/
def casedNext (cs : List Char) : Bool :=
  match cs.dropWhile isCaseIgnorable with
  | c :: _ => isCased c
  | [] => false

/-- The lower-case form of `c`.  `afterCased` says that the nearest character before it that is
not passed over has case; `rest` is the text behind it. -/
def lowerAt (afterCased : Bool) (c : Char) (rest : List Char) : List Char :=
  if c = 'Σ' then (if afterCased && !casedNext rest then ['ς'] else ['σ'])
  else if c = 'İ' then ['i', '\u0307']
  else [lowerChar c]

/-- Lower-cases the text from here on. -/
def lowerFrom (afterCased : Bool) : List Char → List Char
  | [] => []
  | c :: cs =>
    lowerAt afterCased c cs
      ++ lowerFrom (if isCaseIgnorable c then afterCased else isCased c) cs

/-- The text in lower case. -/
def lowercase (cs : List Char) : List Char := lowerFrom false cs

/-- A character in lower case, where only the letters A to Z have one. -/
def asciiLower (c : Char) : Char := if 'A' ≤ c ∧ c ≤ 'Z' then Char.ofNat (c.toNat + 32) else c

end CardEffects.Text
