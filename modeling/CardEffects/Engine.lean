/-
  CardEffects.Engine

  The engine: it reads a text, plans its effects and carries them out on the board.  An attack
  has to pass a gate first: conditions may block it, and a confused attacker flips a coin.
-/
import CardEffects.BetweenTurns
import CardEffects.Plan.Description
import CardEffects.Reading
import CardEffects.Resolution

namespace CardEffects

/-- An engine: settings, and the handlers in place. -/
structure Engine where
  config : Config
  registry : Registry
  deriving DecidableEq

namespace Engine

/-- The engine with all handlers, whatever its settings. -/
def ofConfig (c : Config) : Engine := ⟨c, .standard⟩

/-- The engine with all handlers, when the settings have no fault. -/
def ofValid (c : Config) : Except EngineError Engine := c.validate.map ofConfig

/-- The engine with the standard settings. -/
def standard : Engine := ofConfig .standard

/-! ## Texts -/

/-- Deals the total to the defender, where the settings say so, there is a defender, and there
is damage. -/
def dealDamage (c : Config) (r : Resolution) (b : Board) : Resolution × Board :=
  match b.defender with
  | none => (r, b)
  | some d =>
    if c.applyDamage ∧ 0 < r.total then
      let (dealt, d) := d.takeDamage r.total
      ({ r with dealt := some dealt, knockedOut := d.isKnockedOut }.tracing
          (d.name ++ " took " ++ dealt.text ++ " damage"),
        { b with defender := some d })
    else (r, b)

/-- Carries out a text, of an attack or not. -/
def run (g : Engine) (turn : Word) (attack : Option Attack) (b : Board) (text : String)
    (base : Word) : Resolution × Board :=
  let plan := Plan.ofText text
  let (r, b) := g.registry.run { config := g.config, turn, attack } b base plan.kept
  dealDamage g.config { r with trace := r.trace ++ plan.dropped.map Dropped.traceLine } b

/-- Carries out a text that stands by itself. -/
def resolveText (g : Engine) (turn : Word) (b : Board) (text : String) (base : Word) :
    Resolution × Board :=
  g.run turn none b text base

/-! ## Attacks and abilities -/

/-- An attack that conditions block. -/
def blockedAttack (m : Combatant) (a : Attack) (blockers : List Condition) : Resolution :=
  (Resolution.start a.damage).negate
    (m.name ++ " cannot attack while " ++ ", ".intercalate (blockers.map Condition.name))

/-- An attack that fails because of confusion. -/
def confusedAttack (m : Combatant) (a : Attack) : Resolution :=
  { Resolution.start a.damage with
    flips := [.ofFlips .coinFlipConditional [false]] }.negate
      (m.name ++ " is confused and flipped tails")

/-- The coin a confused attacker flips, where the settings ask for it. -/
def confusionFlip (g : Engine) (b : Board) : Option Bool × Board :=
  if g.config.confusionCheck then
    let (roll, coins) := b.attacker.confusionFlip b.coins
    (roll, { b with coins })
  else (none, b)

/-- Carries out an attack. -/
def attack (g : Engine) (turn : Word) (b : Board) (a : Attack) : Resolution × Board :=
  match g.config.conditionRules.gate b.attacker .attack with
  | .blockedBy blockers => (blockedAttack b.attacker a blockers, b)
  | .allowed =>
    match g.confusionFlip b with
    | (some false, b) => (confusedAttack b.attacker a, b)
    | (_, b) => g.run turn (some a) b a.effect a.damage

/-- Carries out an attack of a card, if the card has it. -/
def resolveAttack (g : Engine) (turn : Word) (b : Board) (card : Card) (index : Nat) :
    Except EngineError (Resolution × Board) :=
  match card.attacks[index]? with
  | some a => .ok (g.attack turn b a)
  | none => .error (.noSuchAttack card.id index)

/-- Carries out an ability of a card, if the card has it.  It starts from no damage. -/
def resolveAbility (g : Engine) (turn : Word) (b : Board) (card : Card) (index : Nat) :
    Except EngineError (Resolution × Board) :=
  match card.abilities[index]? with
  | some a => .ok (g.run turn none b a.effect 0)
  | none => .error (.noSuchAbility card.id index)

end Engine

end CardEffects
