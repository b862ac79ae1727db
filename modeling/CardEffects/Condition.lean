/-
  CardEffects.Condition

  Special conditions: the five kinds, the rule each is played by, and the set of conditions a
  Pokémon suffers from.
-/
import CardEffects.Enumeration
import CardEffects.EnumMap
import CardEffects.Text.Blank
import CardEffects.Text.Lowercase
import CardEffects.Word

namespace CardEffects

/-! ## Kinds -/

/-- The special conditions. -/
inductive Condition where
  | burned
  | poisoned
  | asleep
  | paralyzed
  | confused
  deriving DecidableEq, Repr

namespace Condition

/-- The name in running text. -/
def name : Condition → String
  | burned => "burned"
  | poisoned => "poisoned"
  | asleep => "asleep"
  | paralyzed => "paralyzed"
  | confused => "confused"

instance : Labelled Condition where
  all := [burned, poisoned, asleep, paralyzed, confused]
  nodup_all := by decide
  mem_all := by intro k; cases k <;> decide
  label
    | burned => "Burned"
    | poisoned => "Poisoned"
    | asleep => "Asleep"
    | paralyzed => "Paralyzed"
    | confused => "Confused"
  nodup_labels := by decide

/-- The words for each condition. -/
def words : List (List Char × Condition) :=
  [("burned".toList, burned), ("burn".toList, burned), ("burnt".toList, burned),
    ("poisoned".toList, poisoned), ("poison".toList, poisoned),
    ("asleep".toList, asleep), ("sleep".toList, asleep), ("sleeping".toList, asleep),
    ("paralyzed".toList, paralyzed), ("paralysis".toList, paralyzed),
    ("paralyze".toList, paralyzed),
    ("confused".toList, confused), ("confusion".toList, confused)]

/-- The condition a word stands for, whatever its case and the blanks around it. -/
def ofWord? (word : List Char) : Option Condition :=
  (words.find? fun entry => entry.1 == (Text.trim word).map Text.asciiLower).map (·.2)

end Condition

/-! ## Rules -/

/-- What a player may want to do with a Pokémon. -/
inductive Action where
  | attack
  | retreat
  | useAbility
  deriving DecidableEq, Repr

instance : Labelled Action where
  all := [.attack, .retreat, .useAbility]
  nodup_all := by decide
  mem_all := by intro k; cases k <;> decide
  label
    | .attack => "Attack"
    | .retreat => "Retreat"
    | .useAbility => "UseAbility"
  nodup_labels := by decide

/-- When a condition goes away by itself. -/
inductive Removal where
  /-- It stays until it is removed. -/
  | never
  /-- The first check between turns removes it. -/
  | afterOneTurn
  /-- A check between turns flips a coin and removes it on heads. -/
  | coinFlip
  deriving DecidableEq, Repr

instance : Labelled Removal where
  all := [.never, .afterOneTurn, .coinFlip]
  nodup_all := by decide
  mem_all := by intro k; cases k <;> decide
  label
    | .never => "Never"
    | .afterOneTurn => "AfterOneTurn"
    | .coinFlip => "CoinFlip"
  nodup_labels := by decide

/-- How one condition is played. -/
structure ConditionRule where
  condition : Condition
  /-- Damage taken at each check between turns. -/
  damage : Word
  removal : Removal
  /-- What the condition keeps its Pokémon from doing. -/
  blocks : List Action
  deriving DecidableEq, Repr

/-- The rule of the game for a condition. -/
def ConditionRule.standard : Condition → ConditionRule
  | .burned => ⟨.burned, 20, .never, []⟩
  | .poisoned => ⟨.poisoned, 10, .never, []⟩
  | .asleep => ⟨.asleep, 0, .coinFlip, [.attack, .retreat]⟩
  | .paralyzed => ⟨.paralyzed, 0, .afterOneTurn, [.attack, .retreat]⟩
  | .confused => ⟨.confused, 0, .never, []⟩

/-- A table of rules. -/
structure ConditionRules where
  rules : List ConditionRule
  deriving DecidableEq, Repr

namespace ConditionRules

/-- The rules of the game. -/
def standard : ConditionRules := ⟨(Enumeration.all : List Condition).map ConditionRule.standard⟩

/-- The first rule for a condition; the rule of the game when the table has none. -/
def rule (t : ConditionRules) (c : Condition) : ConditionRule :=
  (t.rules.find? fun r => r.condition == c).getD (ConditionRule.standard c)

end ConditionRules

/-! ## Conditions in force -/

/-- A condition in force, and the turn since when. -/
structure ConditionEntry where
  condition : Condition
  since : Word
  deriving DecidableEq, Repr

/-- Whether inflicting a condition did something. -/
inductive ApplyOutcome where
  | applied
  | alreadyPresent
  deriving DecidableEq, Repr

instance : Labelled ApplyOutcome where
  all := [.applied, .alreadyPresent]
  nodup_all := by decide
  mem_all := by intro k; cases k <;> decide
  label
    | .applied => "Applied"
    | .alreadyPresent => "AlreadyPresent"
  nodup_labels := by decide

/-- Whether removing a condition did something. -/
inductive RemoveOutcome where
  | removed
  | absent
  deriving DecidableEq, Repr

instance : Labelled RemoveOutcome where
  all := [.removed, .absent]
  nodup_all := by decide
  mem_all := by intro k; cases k <;> decide
  label
    | .removed => "Removed"
    | .absent => "Absent"
  nodup_labels := by decide

/-- The conditions in force on one Pokémon, at most one entry for each kind. -/
structure Conditions where
  active : EnumMap Condition ConditionEntry
  deriving DecidableEq

namespace Conditions

/-- No condition in force. -/
def empty : Conditions := ⟨∅⟩

instance : EmptyCollection Conditions := ⟨empty⟩

instance : Inhabited Conditions := ⟨empty⟩

/-- The entry for a condition, if it is in force. -/
def get? (s : Conditions) (c : Condition) : Option ConditionEntry := s.active.get? c

/-- Whether a condition is in force. -/
def contains (s : Conditions) (c : Condition) : Bool := s.active.contains c

/-- The conditions in force, in order. -/
def kinds (s : Conditions) : List Condition := s.active.keys

/-- Whether none is in force. -/
def isEmpty (s : Conditions) : Bool := s.active.isEmpty

/-- Puts a condition in force from the given turn; one already in force stays as it is. -/
def insert (s : Conditions) (c : Condition) (turn : Word) : ApplyOutcome × Conditions :=
  if s.contains c then (.alreadyPresent, s) else (.applied, ⟨s.active.insert c ⟨c, turn⟩⟩)

/-- Ends a condition. -/
def remove (s : Conditions) (c : Condition) : RemoveOutcome × Conditions :=
  if s.contains c then (.removed, ⟨s.active.erase c⟩) else (.absent, s)

end Conditions

end CardEffects
