/-
  CardEffects.Energy

  The eight energy types, the symbols an attack's cost is written with, and the tokens that
  stand for them on cards.
-/
import CardEffects.Enumeration
import CardEffects.Text.Blank
import CardEffects.Text.Lowercase

namespace CardEffects

/-! ## Energy types -/

/-- The named energy types; only these can be produced or attached. -/
inductive Energy where
  | grass
  | fire
  | water
  | lightning
  | psychic
  | fighting
  | darkness
  | metal
  deriving DecidableEq, Repr

namespace Energy

/-- The name in running text. -/
def name : Energy → String
  | grass => "grass"
  | fire => "fire"
  | water => "water"
  | lightning => "lightning"
  | psychic => "psychic"
  | fighting => "fighting"
  | darkness => "darkness"
  | metal => "metal"

/-- The letter of the printed symbol. -/
def symbol : Energy → Char
  | grass => 'G'
  | fire => 'R'
  | water => 'W'
  | lightning => 'L'
  | psychic => 'P'
  | fighting => 'F'
  | darkness => 'D'
  | metal => 'M'

instance : Labelled Energy where
  all := [grass, fire, water, lightning, psychic, fighting, darkness, metal]
  nodup_all := by decide
  mem_all := by intro k; cases k <;> decide
  label
    | grass => "Grass"
    | fire => "Fire"
    | water => "Water"
    | lightning => "Lightning"
    | psychic => "Psychic"
    | fighting => "Fighting"
    | darkness => "Darkness"
    | metal => "Metal"
  nodup_labels := by decide

end Energy

/-! ## Cost symbols and tokens -/

/-- One symbol of an attack's cost.  A colorless symbol is paid with any energy. -/
inductive CostSymbol where
  | typed (energy : Energy)
  | colorless
  deriving DecidableEq, Repr

/-- Why a token names no energy type. -/
inductive EnergyError where
  /-- The token stands for nothing. -/
  | unknownToken (token : String)
  /-- The token stands for colorless, which only a cost can ask for. -/
  | wildcard (token : String)
  deriving DecidableEq, Repr

/-- The message for a rejected token. -/
def EnergyError.message : EnergyError → String
  | unknownToken token => "unknown energy token '" ++ token ++ "'"
  | wildcard token => "wildcard energy '" ++ token ++ "' cannot be generated or attached"

namespace CostSymbol

/-- The bare tokens and what they stand for. -/
def tokens : List (List Char × CostSymbol) :=
  [("g".toList, typed .grass), ("grass".toList, typed .grass),
    ("r".toList, typed .fire), ("fire".toList, typed .fire),
    ("w".toList, typed .water), ("water".toList, typed .water),
    ("l".toList, typed .lightning), ("lightning".toList, typed .lightning),
    ("electric".toList, typed .lightning),
    ("p".toList, typed .psychic), ("psychic".toList, typed .psychic),
    ("f".toList, typed .fighting), ("fighting".toList, typed .fighting),
    ("d".toList, typed .darkness), ("darkness".toList, typed .darkness),
    ("dark".toList, typed .darkness),
    ("m".toList, typed .metal), ("metal".toList, typed .metal), ("steel".toList, typed .metal),
    ("c".toList, colorless), ("colorless".toList, colorless)]

/-- A token without the blanks around it, the braces at its ends and upper case. -/
def bareToken (token : List Char) : List Char :=
  let opened := (Text.trim token).dropWhile (· == '\x7b')
  ((opened.reverse.dropWhile (· == '\x7d')).reverse).map Text.asciiLower

/-- The symbol a token stands for: its letter, in braces or not, or its name. -/
def ofToken? (token : List Char) : Option CostSymbol :=
  (tokens.find? fun entry => entry.1 == bareToken token).map (·.2)

/-- The printed token of a symbol. -/
def token : CostSymbol → String
  | typed energy => String.ofList ['\x7b', energy.symbol, '\x7d']
  | colorless => String.ofList ['\x7b', 'C', '\x7d']

/-- The printed token of a symbol stands for it. -/
@[simp] theorem ofToken?_token (s : CostSymbol) : ofToken? s.token.toList = some s := by
  cases s with
  | typed e => cases e <;> decide
  | colorless => decide

end CostSymbol

/-- The energy type a token names, or why it names none. -/
def Energy.ofToken (token : String) : Except EnergyError Energy :=
  match CostSymbol.ofToken? token.toList with
  | some (.typed energy) => .ok energy
  | some .colorless => .error (.wildcard token)
  | none => .error (.unknownToken token)

end CardEffects
