/-
  CardEffects.Battle

  A battle as its caller plays it: an engine, a board, and the operations on them, from carrying
  out a text to healing one Pokémon by hand.  Every operation gives an answer and the battle
  after it; one that cannot be carried out leaves the battle as it is.
-/
import CardEffects.Engine

namespace CardEffects

/-! ## Calls of the engine -/

/-- A text to be carried out: by itself, or as an attack or an ability of a card. -/
inductive Call where
  | text (text : String) (base : Word)
  | attack (card : Card) (index : Nat)
  | ability (card : Card) (index : Nat)
  deriving DecidableEq, Repr

/-- Carries out a call. -/
def Engine.call (g : Engine) (turn : Word) (b : Board) :
    Call → Except EngineError (Resolution × Board)
  | .text text base => .ok (g.resolveText turn b text base)
  | .attack card index => g.resolveAttack turn b card index
  | .ability card index => g.resolveAbility turn b card index

/-! ## Operations -/

/-- Something done to one Pokémon by hand. -/
inductive Intervention where
  /-- The check between turns. -/
  | check (turn : Word)
  | inflict (condition : Condition) (turn : Word)
  | cure (condition : Condition)
  | cureAll
  | inflictRandom (turn : Word)
  | confusionFlip
  | damage (amount : Word)
  | heal (amount : Word)
  | attach (energy : Energy)
  | discard (energy : Energy)
  | healSlot (slot : Nat) (amount : Word)
  deriving DecidableEq, Repr

/-- Something done in a battle. -/
inductive Operation where
  | call (turn : Word) (call : Call)
  /-- Effects carried out one by one. -/
  | execute (turn : Word) (attack : Option Attack) (effects : List Effect) (base : Word)
  /-- One effect, carried out by the handler in place. -/
  | handle (turn : Word) (attack : Option Attack) (effect : Effect)
  | flip (count : CoinCount)
  | intervene (side : Side) (intervention : Intervention)
  /-- The two sides change places. -/
  | swap
  | unregister (kind : EffectKind)
  | moveHandler (kind place : EffectKind)
  deriving DecidableEq, Repr

/-- What an operation answers. -/
inductive Answer where
  | resolution (r : Resolution)
  | refusal (e : EngineError)
  | outcome (o : Outcome)
  | flips (flips : List Bool)
  | logs (logs : List CheckLog)
  | applied (o : ApplyOutcome)
  | removed (o : RemoveOutcome)
  | conditions (conditions : List Condition)
  | condition (condition : Option Condition)
  | roll (heads : Option Bool)
  | amount (n : Word)
  /-- The hit points restored on the bench; none for an empty slot. -/
  | restored (n : Option Word)
  | truth (b : Bool)
  | done
  /-- There is no such Pokémon, slot or handler. -/
  | impossible
  deriving DecidableEq, Repr

namespace Intervention

/-- Does something to one Pokémon. -/
def apply (t : ConditionRules) (m : Combatant) (coins : Coins) :
    Intervention → Answer × Combatant × Coins
  | check turn =>
    let (logs, m, coins) := t.betweenTurns turn m coins
    (.logs logs, m, coins)
  | inflict c turn =>
    let (o, m) := m.inflict c turn
    (.applied o, m, coins)
  | cure c =>
    let (o, m) := m.cure c
    (.removed o, m, coins)
  | cureAll =>
    let (l, m) := m.cureAll
    (.conditions l, m, coins)
  | inflictRandom turn =>
    let (c, m, coins) := m.inflictRandom turn coins
    (.condition c, m, coins)
  | confusionFlip =>
    let (roll, coins) := m.confusionFlip coins
    (.roll roll, m, coins)
  | damage amount =>
    let (taken, m) := m.takeDamage amount
    (.amount taken, m, coins)
  | heal amount =>
    let (healed, m) := m.heal amount
    (.amount healed, m, coins)
  | attach e => (.done, m.attachEnergy e, coins)
  | discard e =>
    let (had, m) := m.discardEnergy e
    (.truth had, m, coins)
  | healSlot slot amount =>
    match m.healSlot? slot amount with
    | some (healed, m) => (.restored healed, m, coins)
    | none => (.impossible, m, coins)

end Intervention

/-! ## Battles -/

/-- A battle: the engine in use, and the board. -/
structure Battle where
  engine : Engine
  board : Board
  deriving DecidableEq

namespace Battle

/-- The setting for effects carried out by hand. -/
def setting (g : Battle) (turn : Word) (attack : Option Attack) : Setting :=
  { config := g.engine.config, turn, attack }

/-- The battle with another board. -/
def withBoard (g : Battle) (b : Board) : Battle := { g with board := b }

/-- The battle with other handlers in place. -/
def withRegistry (g : Battle) (r : Registry) : Battle :=
  { g with engine := { g.engine with registry := r } }

/-- Does one thing in a battle. -/
def perform (g : Battle) : Operation → Answer × Battle
  | .call turn call =>
    match g.engine.call turn g.board call with
    | .ok (r, b) => (.resolution r, g.withBoard b)
    | .error e => (.refusal e, g)
  | .execute turn attack effects base =>
    let (r, b) := g.engine.registry.run (g.setting turn attack) g.board base effects
    (.resolution r, g.withBoard b)
  | .handle turn attack effect =>
    let (o, b) := g.engine.registry.execute (g.setting turn attack) g.board effect
    (.outcome o, g.withBoard b)
  | .flip count =>
    let (flips, b) := g.board.flip (g.setting 0 none) count
    (.flips flips, g.withBoard b)
  | .intervene side intervention =>
    match g.board.active? side with
    | some m =>
      let (answer, m, coins) :=
        intervention.apply g.engine.config.conditionRules m g.board.coins
      (answer, g.withBoard { g.board.put side m with coins })
    | none => (.impossible, g)
  | .swap =>
    match g.board.swap? with
    | some b => (.done, g.withBoard b)
    | none => (.impossible, g)
  | .unregister kind =>
    (.truth (g.engine.registry.get? kind).isSome,
      g.withRegistry (g.engine.registry.unregister kind))
  | .moveHandler kind place =>
    match g.engine.registry.move? kind place with
    | some r =>
      (.truth (kind ≠ place && (g.engine.registry.get? place).isSome), g.withRegistry r)
    | none => (.impossible, g)

/-- Does several things in a battle, one after the other. -/
def play (g : Battle) : List Operation → List Answer × Battle
  | [] => ([], g)
  | op :: rest =>
    let (answer, g) := g.perform op
    let (answers, g) := g.play rest
    (answer :: answers, g)

end Battle

end CardEffects
