/-
  CardEffects.Plan

  From the effects read in one text to the ones that are carried out.  They are put in order of
  priority; then each in turn is kept unless it repeats a kept one, or uses a mechanism that a
  kept effect of strictly higher priority has claimed.
-/
import CardEffects.Priority

namespace CardEffects

/-- Why an effect is not carried out. -/
inductive DropReason where
  /-- The same clause was already claimed by an effect of higher priority. -/
  | mechanism (winner : EffectKind) (mechanism : Mechanism)
  /-- The same effect was already kept. -/
  | duplicate
  deriving DecidableEq, Repr

/-- An effect that is not carried out. -/
structure Dropped where
  effect : Effect
  reason : DropReason
  deriving DecidableEq, Repr

/-- The effects to carry out, in order, and those that are not. -/
structure Plan where
  kept : List Effect
  dropped : List Dropped
  deriving DecidableEq, Repr

namespace Plan

/-- Effects in order of priority; those of one kind keep their order. -/
def inOrder (effects : List Effect) : List Effect :=
  effects.mergeSort fun a b => !b.priority.before a.priority

/-- The first kept effect of strictly higher priority with the mechanism of `e`. -/
def claimant? (kept : List Effect) (e : Effect) : Option Effect :=
  kept.find? fun k => k.mechanism == e.mechanism && k.priority.before e.priority

/-- Settles the effects one by one, `kept` being those kept before. -/
def settle (kept : List Effect) : List Effect → Plan
  | [] => ⟨[], []⟩
  | e :: rest =>
    if e ∈ kept then
      let p := settle kept rest
      { p with dropped := ⟨e, .duplicate⟩ :: p.dropped }
    else
      match claimant? kept e with
      | some c =>
        let p := settle kept rest
        { p with dropped := ⟨e, .mechanism c.kind e.mechanism⟩ :: p.dropped }
      | none =>
        let p := settle (kept ++ [e]) rest
        { p with kept := e :: p.kept }

/-- The plan for the effects of one text. -/
def ofEffects (effects : List Effect) : Plan := settle [] (inOrder effects)

end Plan

end CardEffects
