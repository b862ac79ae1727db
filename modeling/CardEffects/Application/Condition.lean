/-
  CardEffects.Application.Condition

  Conditions inflicted by card text: a given one, or one at random.
-/
import CardEffects.Board
import CardEffects.Infliction

namespace CardEffects.Application

/-- The outcome where the opponent is wanted and there is none. -/
def noOpponent (kind : EffectKind) : Outcome := .noEffect kind "no opposing Pokémon to target"

/-- Inflicts a condition, on behalf of an effect of the given kind. -/
def inflict (s : Setting) (b : Board) (kind : EffectKind) (c : Condition)
    (target : ConditionTarget) : Outcome × Board :=
  match b.active? target.side with
  | none => (noOpponent kind, b)
  | some m =>
    let (outcome, m') := m.inflict c s.turn
    let change : ConditionChange := ⟨c, target.side.participant, outcome⟩
    let result : Outcome :=
      match outcome with
      | .applied =>
        { kind, status := .applied, conditionChanges := [change],
          notes := [m.name ++ " is now " ++ c.name] }
      | .alreadyPresent =>
        { kind, status := .noEffect, conditionChanges := [change],
          notes := [m.name ++ " is already " ++ c.name] }
    (result, b.put target.side m')

/-- Inflicts a condition at random. -/
def inflictRandom (s : Setting) (b : Board) (target : ConditionTarget) : Outcome × Board :=
  match b.active? target.side with
  | none => (noOpponent .conditionApplyRandom, b)
  | some m =>
    match m.inflictRandom s.turn b.coins with
    | (some c, m', coins) =>
      ({ kind := .conditionApplyRandom, status := .applied,
         conditionChanges := [⟨c, target.side.participant, .applied⟩],
         notes := [m.name ++ " is now " ++ c.name] },
        { b.put target.side m' with coins })
    | (none, _, _) =>
      (.noEffect .conditionApplyRandom (m.name ++ " already has every condition"), b)

end CardEffects.Application
