/-
  CardEffects.Plan.Description

  Plans in words.
-/
import CardEffects.Effect.Description
import CardEffects.Plan

namespace CardEffects

/-- The term for the reason why an effect is not carried out. -/
def DropReason.term : DropReason → String
  | mechanism winner m =>
    Term.fields "Mechanism" [("by", Labelled.label winner), ("mechanism", m.term)]
  | duplicate => "Duplicate"

/-- The line that says in a trace why an effect was not carried out. -/
def Dropped.traceLine (d : Dropped) : String :=
  match d.reason with
  | .duplicate => "dropped duplicate " ++ d.effect.describe
  | .mechanism winner _ => "dropped " ++ d.effect.describe ++ " in favour of " ++ winner.id

/-- The lines of a plan: what is carried out, with the rank of its class, and what is not. -/
def Plan.lines (p : Plan) : List String :=
  (p.kept.map fun e => "  [" ++ Term.number e.priority.cls.rank ++ "] " ++ e.describe)
    ++ p.dropped.map fun d => "  dropped " ++ d.effect.describe ++ " (" ++ d.reason.term ++ ")"

end CardEffects
