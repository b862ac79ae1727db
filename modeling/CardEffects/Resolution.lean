/-
  CardEffects.Resolution

  What a whole text did: the damage it comes to, every change and flip in the order of
  execution, a record for each effect, and a trace in words.  Once an effect cancels the
  attack, the effects behind it are skipped.
-/
import CardEffects.Registry

namespace CardEffects

/-- What became of one effect of a text. -/
structure EffectRecord where
  kind : EffectKind
  status : EffectStatus
  description : String
  deriving DecidableEq, Repr

/-- What a text did. -/
structure Resolution where
  base : Word
  bonus : Word
  /-- The damage in all; none when the attack is cancelled. -/
  total : Word
  negated : Bool
  /-- The damage that the defender took, if it was dealt. -/
  dealt : Option Word
  knockedOut : Bool
  flips : List FlipRecord
  conditionChanges : List ConditionChange
  energyChanges : List EnergyChange
  healed : Word
  pending : List PendingAction
  effects : List EffectRecord
  trace : List String
  deriving DecidableEq, Repr

namespace Resolution

/-! ## Building -/

/-- Nothing done yet. -/
def start (base : Word) : Resolution where
  base := base
  bonus := 0
  total := base
  negated := false
  dealt := none
  knockedOut := false
  flips := []
  conditionChanges := []
  energyChanges := []
  healed := 0
  pending := []
  effects := []
  trace := []

/-- The damage that base and bonus come to. -/
def damage (r : Resolution) : Word := if r.negated then 0 else Word.add r.base r.bonus

/-- The resolution with its total worked out anew. -/
def retotalled (r : Resolution) : Resolution := { r with total := r.damage }

/-- The resolution with one more line in its trace. -/
def tracing (r : Resolution) (line : String) : Resolution :=
  { r with trace := r.trace ++ [line] }

/-- Takes in the outcome of an effect. -/
def absorb (r : Resolution) (o : Outcome) (description : String) : Resolution :=
  retotalled
    { r with
      bonus := Word.add r.bonus o.bonus
      negated := r.negated || o.negates
      flips := r.flips ++ o.flips
      conditionChanges := r.conditionChanges ++ o.conditionChanges
      energyChanges := r.energyChanges ++ o.energyChanges
      healed := Word.add r.healed o.healed
      pending := r.pending ++ o.pending
      effects := r.effects ++ [⟨o.kind, o.status, description⟩]
      trace := r.trace ++ o.notes.map fun note => o.kind.id ++ ": " ++ note }

/-- Records an effect that is skipped. -/
def skip (r : Resolution) (e : Effect) : Resolution :=
  { r with effects := r.effects ++ [⟨e.kind, .skipped, e.describe⟩] }

/-- Cancels the attack for the given reason. -/
def negate (r : Resolution) (reason : String) : Resolution :=
  retotalled ({ r with negated := true }.tracing reason)

/-! ## Reading off -/

/-- How many effects have a status. -/
def countWith (r : Resolution) (status : EffectStatus) : Nat :=
  r.effects.countP fun e => e.status == status

/-- How many effects changed something. -/
def executed (r : Resolution) : Nat := r.countWith .applied

/-- Whether some effect has to be handled by hand. -/
def needsManual (r : Resolution) : Bool :=
  r.effects.any fun e => e.status == .needsManual || e.status == .notImplemented

/-- The units of one type gained, placed or not. -/
def energyGained (r : Resolution) (e : Energy) : Word :=
  Word.sumWrapping ((r.energyChanges.filter fun c => c.direction == .gain && c.energy == e).map
    fun c => c.amount)

/-- The heads of all flips. -/
def heads (r : Resolution) : Word := Word.sumWrapping (r.flips.map fun f => f.heads)

end Resolution

/-! ## Executing -/

namespace Registry

/-- Carries out one effect after others, unless they cancelled the attack. -/
def step (reg : Registry) (s : Setting) (r : Resolution) (b : Board) (e : Effect) :
    Resolution × Board :=
  if r.negated then (r.skip e, b)
  else
    let (o, b) := reg.execute s b e
    (r.absorb o e.describe, b)

/-- Carries out effects one by one, going on from `r`. -/
def runFrom (reg : Registry) (s : Setting) (r : Resolution) (b : Board) :
    List Effect → Resolution × Board
  | [] => (r, b)
  | e :: rest =>
    let (r, b) := reg.step s r b e
    reg.runFrom s r b rest

/-- Carries out effects one by one. -/
def run (reg : Registry) (s : Setting) (b : Board) (base : Word) (effects : List Effect) :
    Resolution × Board :=
  reg.runFrom s (.start base) b effects

end Registry

end CardEffects
