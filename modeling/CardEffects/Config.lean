/-
  CardEffects.Config

  The settings of an engine.  Settings are valid when coins may be flipped at all and every
  condition has exactly one rule.
-/
import CardEffects.Condition
import CardEffects.Text.Term

namespace CardEffects

/-- Why an engine refuses its settings or a request. -/
inductive EngineError where
  /-- No coin may be flipped until tails. -/
  | zeroFlipCap
  | duplicateRule (condition : Condition)
  | missingRule (condition : Condition)
  | noSuchAttack (card : String) (index : Nat)
  | noSuchAbility (card : String) (index : Nat)
  deriving DecidableEq, Repr

/-- The message for a refusal. -/
def EngineError.message : EngineError → String
  | zeroFlipCap => "max_flips_until_tails must be at least 1"
  | duplicateRule c => "status rule for " ++ c.name ++ " is defined more than once"
  | missingRule c => "status rule for " ++ c.name ++ " is missing"
  | noSuchAttack card i => "card " ++ card ++ " has no attack #" ++ Term.number i
  | noSuchAbility card i => "card " ++ card ++ " has no ability #" ++ Term.number i

/-- The fault of a table with regard to one condition: a missing rule, or more than one. -/
def ConditionRules.faultOf? (t : ConditionRules) (c : Condition) : Option EngineError :=
  match t.rules.countP fun r => r.condition == c with
  | 0 => some (.missingRule c)
  | 1 => none
  | _ => some (.duplicateRule c)

/-- The settings of an engine. -/
structure Config where
  /-- How many coins are flipped at most when flipping until tails. -/
  maxFlips : Word
  /-- Whether the damage of a text is dealt to the defender. -/
  applyDamage : Bool
  /-- Whether a confused attacker flips a coin before it attacks. -/
  confusionCheck : Bool
  conditionRules : ConditionRules
  deriving DecidableEq, Repr

namespace Config

/-- The cap of the standard settings. -/
def standardMaxFlips : Word := 10

/-- The standard settings. -/
def standard : Config := ⟨standardMaxFlips, true, true, .standard⟩

/-- The first fault of the settings: the cap, then the conditions in order. -/
def fault? (c : Config) : Option EngineError :=
  if c.maxFlips = 0 then some .zeroFlipCap
  else (Enumeration.all : List Condition).findSome? c.conditionRules.faultOf?

/-- The settings, when they have no fault. -/
def validate (c : Config) : Except EngineError Config :=
  match c.fault? with
  | some e => .error e
  | none => .ok c

/-- The standard settings have no fault. -/
theorem validate_standard : standard.validate = .ok standard := rfl

end Config

end CardEffects
