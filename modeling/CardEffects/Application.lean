/-
  CardEffects.Application

  Carrying out one effect on the board.
-/
import CardEffects.Application.CoinFlip
import CardEffects.Application.Damage

namespace CardEffects

namespace Application

/-- What is left to the caller when cards are drawn or searched for. -/
def pendingOf : CardFlow → PendingAction
  | .draw n => .draw n
  | .search criteria => .search criteria

/-- Leaves drawing and searching to the caller. -/
def searchOrDraw (flow : CardFlow) : Outcome :=
  { kind := .searchOrDraw, status := .deferred, pending := [pendingOf flow],
    notes := [flow.term ++ " for the caller"] }

/-- Leaves text that no rule reads to the caller. -/
def unparsed (text : String) : Outcome :=
  { kind := .unparsed, status := .needsManual, pending := [.manualEffect text],
    notes := ["needs manual handling: " ++ text] }

end Application

open Application in
/-- Carries out an effect. -/
def Effect.apply (s : Setting) (b : Board) : Effect → Outcome × Board
  | coinFlipDamage coins perHeads => Application.coinFlipDamage s b coins perHeads
  | coinFlipEnergy coins perHeads energy target =>
    Application.coinFlipEnergy s b coins perHeads energy target
  | coinFlipConditional coins wanted c => Application.coinFlipConditional s b coins wanted c
  | conditionApply c target => inflict s b .conditionApply c target
  | conditionApplyRandom target => inflictRandom s b target
  | damageBonus amount => (Application.damageBonus amount, b)
  | energyScalingDamage each energy source =>
    (Application.energyScalingDamage b each energy source, b)
  | conditionalDamage bonus c => (Application.conditionalDamage s b bonus c, b)
  | benchScalingDamage each side filter =>
    (Application.benchScalingDamage b each side filter, b)
  | heal amount target => Application.heal b .heal target (some amount)
  | healFull target => Application.heal b .healFull target none
  | energyAttach energy n target => attach b .energyAttach (energyOf b energy) n target
  | energyDiscard d => discard b .energyDiscard d
  | searchOrDraw flow => (Application.searchOrDraw flow, b)
  | unparsed text => (Application.unparsed text, b)

end CardEffects
