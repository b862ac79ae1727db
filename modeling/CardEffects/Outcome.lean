/-
  CardEffects.Outcome

  What carrying out one effect did: whether it counted, the damage it added, and a record of
  every coin flipped and every change made to the board.
-/
import CardEffects.Coins
import CardEffects.Effect
import CardEffects.Text.Term

namespace CardEffects

/-! ## Records -/

/-- Whom a change landed on. -/
inductive Participant where
  | attacker
  | defender
  /-- The own bench. -/
  | bench
  deriving DecidableEq, Repr

instance : Labelled Participant where
  all := [.attacker, .defender, .bench]
  nodup_all := by decide
  mem_all := by intro k; cases k <;> decide
  label
    | .attacker => "Attacker"
    | .defender => "Defender"
    | .bench => "Bench"
  nodup_labels := by decide

/-- The coins one effect flipped. -/
structure FlipRecord where
  kind : EffectKind
  /-- The flips in order; `true` is heads. -/
  flips : List Bool
  heads : Word
  deriving DecidableEq, Repr

/-- The record of some flips. -/
def FlipRecord.ofFlips (kind : EffectKind) (flips : List Bool) : FlipRecord :=
  ⟨kind, flips, Coins.headsCount flips⟩

/-- A condition inflicted, or found in force already. -/
structure ConditionChange where
  condition : Condition
  target : Participant
  outcome : ApplyOutcome
  deriving DecidableEq, Repr

/-- Whether energy comes or goes. -/
inductive Direction where
  | gain
  | loss
  deriving DecidableEq, Repr

instance : Labelled Direction where
  all := [.gain, .loss]
  nodup_all := by decide
  mem_all := by intro k; cases k <;> decide
  label
    | .gain => "Gain"
    | .loss => "Loss"
  nodup_labels := by decide

/-- Units of energy gained or lost. -/
structure EnergyChange where
  direction : Direction
  energy : Energy
  amount : Word
  target : Participant
  /-- Whether the board holds the change already, or the caller has yet to place it. -/
  applied : Bool
  deriving DecidableEq, Repr

/-- Work left to the caller. -/
inductive PendingAction where
  | distributeEnergy (energy : Energy) (amount : Word) (target : EnergyTarget)
  | draw (count : Word)
  | search (criteria : String)
  | manualEffect (text : String)
  deriving DecidableEq, Repr

/-! ## Outcomes -/

/-- What became of an effect. -/
inductive EffectStatus where
  /-- It changed the board or the damage. -/
  | applied
  /-- It came to nothing. -/
  | noEffect
  /-- It left work to the caller. -/
  | deferred
  /-- It is text to be handled by hand. -/
  | needsManual
  /-- Nothing carries out its kind. -/
  | notImplemented
  /-- The attack had been cancelled before. -/
  | skipped
  deriving DecidableEq, Repr

instance : Labelled EffectStatus where
  all := [.applied, .noEffect, .deferred, .needsManual, .notImplemented, .skipped]
  nodup_all := by decide
  mem_all := by intro k; cases k <;> decide
  label
    | .applied => "Applied"
    | .noEffect => "NoEffect"
    | .deferred => "Deferred"
    | .needsManual => "NeedsManual"
    | .notImplemented => "NotImplemented"
    | .skipped => "Skipped"
  nodup_labels := by decide

/-- What carrying out one effect did. -/
structure Outcome where
  kind : EffectKind
  status : EffectStatus
  bonus : Word := 0
  /-- Whether the attack is cancelled. -/
  negates : Bool := false
  flips : List FlipRecord := []
  conditionChanges : List ConditionChange := []
  energyChanges : List EnergyChange := []
  healed : Word := 0
  pending : List PendingAction := []
  notes : List String := []
  deriving DecidableEq, Repr

namespace Outcome

/-- An effect that came to nothing, and why. -/
def noEffect (kind : EffectKind) (note : String) : Outcome :=
  { kind, status := .noEffect, notes := [note] }

/-- An effect that nothing carries out. -/
def notImplemented (kind : EffectKind) : Outcome :=
  { kind, status := .notImplemented, notes := ["no handler registered for " ++ kind.id] }

/-- Bonus damage, with its notes; no damage is no effect. -/
def ofBonus (kind : EffectKind) (bonus : Word) (notes : List String) : Outcome :=
  { kind, status := if 0 < bonus then .applied else .noEffect, bonus, notes }

/-- The outcome with the coins that were flipped for it, and a note on them in front. -/
def afterFlips (o : Outcome) (flips : List Bool) (note : String) : Outcome :=
  { o with flips := o.flips ++ [FlipRecord.ofFlips o.kind flips], notes := note :: o.notes }

end Outcome

end CardEffects
