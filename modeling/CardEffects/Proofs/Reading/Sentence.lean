/-
  CardEffects.Proofs.Reading.Sentence

  The sentences that the rules are made for, as they are printed.  A sentence leaves open two
  numbers, written in decimal, and two energy types, written as their symbols: that of the energy
  it speaks of, and that of a Pokémon.  Everything else that varies is part of the sentence.

    * `Sentence.text` — the sentence as printed.
    * `Sentence.effect`, `Sentence.rule` — what it says, and the rule that reads it.
    * `Sentence.slots` — what that rule finds in its slots.
-/
import CardEffects.Effect.Description
import CardEffects.Clause.Rule
import CardEffects.Proofs.Reading.Normal
import CardEffects.Proofs.Reading.Template

namespace CardEffects.Clause

/-! ## Pieces -/

/-- A piece of a sentence: a text, with its letters spelled out, a number, the symbol of some
energy or that of the type of a Pokémon. -/
inductive Piece where
  | words (text : String) (letters : List Char) (spells : text.toList = letters)
  | count
  | amount
  | energy
  | kind

/-- A text as a piece. -/
def lit (text : String) {letters : List Char}
    (spells : text.toList = letters := by exact String.toList_ofList) : Piece :=
  .words text letters spells

namespace Piece

/-- The piece as printed. -/
def text (n k : Word) (e t : Energy) : Piece → String
  | words text _ _ => text
  | count => n.text
  | amount => k.text
  | energy => CostSymbol.token (.typed e)
  | kind => CostSymbol.token (.typed t)

/-- The piece in the normal form of the sentence, with holes for what is left open. -/
def template : Piece → Template
  | words _ letters _ => (letters.map normalChar).map .char
  | count => [.number .count]
  | amount => [.number .amount]
  | energy => [.char '\x7b', .letter .energy, .char '\x7d']
  | kind => [.char '\x7b', .letter .kind, .char '\x7d']

/-- Whether a word has to come next behind the piece; see `gapAfter?`. -/
def gapAfter? (gap : Bool) : Piece → Option Bool
  | words _ letters _ => Clause.gapAfter? gap letters
  | count => some false
  | amount => some false
  | energy => some false
  | kind => some false

end Piece

/-! ## What varies in sentences -/

/-- Who is to suffer from a condition. -/
inductive Sufferer where
  | opponent
  | defending
  | this
  deriving DecidableEq

instance : Enumeration Sufferer where
  all := [.opponent, .defending, .this]
  nodup_all := by decide
  mem_all := by intro k; cases k <;> decide

/-- Where energy from a coin flip goes. -/
inductive Gainer where
  | this
  | bench
  | oneBenched
  | oneOwn
  deriving DecidableEq

instance : Enumeration Gainer where
  all := [.this, .bench, .oneBenched, .oneOwn]
  nodup_all := by decide
  mem_all := by intro k; cases k <;> decide

/-- Where energy goes otherwise. -/
inductive Receiver where
  | this
  | active
  | bench
  | oneBenched
  | oneOwn
  deriving DecidableEq

instance : Enumeration Receiver where
  all := [.this, .active, .bench, .oneBenched, .oneOwn]
  nodup_all := by decide
  mem_all := by intro k; cases k <;> decide

/-- Who is healed. -/
inductive Patient where
  | this
  | eachOwn
  | oneOwn
  | active
  deriving DecidableEq

instance : Enumeration Patient where
  all := [.this, .eachOwn, .oneOwn, .active]
  nodup_all := by decide
  mem_all := by intro k; cases k <;> decide

/-- How much energy is discarded; one unit, with either article. -/
inductive Measure where
  | number
  | all
  | random
  | one (an : Bool)
  deriving DecidableEq

instance : Enumeration Measure where
  all := [.number, .all, .random, .one false, .one true]
  nodup_all := by decide
  mem_all := by
    intro k
    cases k with
    | one an => cases an <;> decide
    | _ => decide

namespace Sufferer

def piece : Sufferer → Piece
  | opponent => lit "your opponent's Active Pokémon"
  | defending => lit "the Defending Pokémon"
  | this => lit "this Pokémon"

/-- At the start of a sentence. -/
def first : Sufferer → Piece
  | opponent => lit "Your opponent's Active Pokémon"
  | defending => lit "The Defending Pokémon"
  | this => lit "This Pokémon"

def target : Sufferer → ConditionTarget
  | opponent => .opponent
  | defending => .opponent
  | this => .this

end Sufferer

namespace Gainer

def piece : Gainer → Piece
  | this => lit "this Pokémon"
  | bench => lit "your Benched Pokémon"
  | oneBenched => lit "1 of your Benched Pokémon"
  | oneOwn => lit "1 of your Pokémon"

def target : Gainer → EnergyTarget
  | this => .this
  | bench => .bench
  | oneBenched => .bench
  | oneOwn => .anyOwn

end Gainer

namespace Receiver

def piece : Receiver → Piece
  | this => lit "this Pokémon"
  | active => lit "your Active Pokémon"
  | bench => lit "your Benched Pokémon"
  | oneBenched => lit "1 of your Benched Pokémon"
  | oneOwn => lit "1 of your Pokémon"

def target : Receiver → EnergyTarget
  | this => .this
  | active => .this
  | bench => .bench
  | oneBenched => .bench
  | oneOwn => .anyOwn

end Receiver

namespace Patient

def piece : Patient → Piece
  | this => lit "this Pokémon"
  | eachOwn => lit "each of your Pokémon"
  | oneOwn => lit "1 of your Pokémon"
  | active => lit "your Active Pokémon"

def target : Patient → HealTarget
  | this => .this
  | eachOwn => .eachOwn
  | oneOwn => .anyOwn
  | active => .this

end Patient

/-- The article, "an" or "a". -/
def article : Bool → Piece
  | true => lit "an"
  | false => lit "a"

namespace Measure

def piece : Measure → Piece
  | number => .amount
  | all => lit "all"
  | random => lit "a random"
  | one an => article an

def count (k : Word) : Measure → DiscardCount
  | number => .count k
  | all => .all
  | random => .count 1
  | one _ => .count 1

end Measure

/-- Whose energy it is. -/
def holderPiece : Side → Piece
  | .own => lit "this Pokémon"
  | .opponent => lit "your opponent's Active Pokémon"

/-- Who it is, as one to suffer from a condition. -/
def holderTarget : Side → ConditionTarget
  | .own => .this
  | .opponent => .opponent

/-- That one has damage on it. -/
def holderDamaged : Side → DamageCondition
  | .own => .selfDamaged
  | .opponent => .targetDamaged

/-- Whose bench it is. -/
def benchPiece : Side → Piece
  | .own => lit "your"
  | .opponent => lit "your opponent's"

/-- A condition as printed. -/
def conditionPiece : Condition → Piece
  | .burned => lit "Burned"
  | .poisoned => lit "Poisoned"
  | .asleep => lit "Asleep"
  | .paralyzed => lit "Paralyzed"
  | .confused => lit "Confused"

/-- A condition to be met, or any. -/
def sufferedPiece : Option Condition → Piece
  | some c => conditionPiece c
  | none => lit "affected by a Special Condition"

/-- One of the Pokémon of a type, on the bench or not. -/
def oneOfKind (benched : Bool) : List Piece :=
  [if benched then lit "1 of your Benched " else lit "1 of your ", .kind, lit " Pokémon"]

/-- Energy, of a type or without one. -/
def energyPieces (typed : Bool) : List Piece :=
  if typed then [.energy, lit " Energy"] else [lit "Energy"]

/-! ## Sentences -/

/-- The sentences, up to two numbers and two energy types.  Where energy may be named or not,
`typed` says whether it is. -/
inductive Sentence where
  | coinDamageFixed
  | coinDamageUntilTails
  | coinDamagePerEnergy (typed : Bool)
  | coinDamagePerPokemonInPlay
  | coinDamagePerBench (side : Side)
  | coinEnergyAmount (typed : Bool) (gainer : Gainer)
  | coinEnergyTake (an typed : Bool) (gainer : Gainer)
  | coinEnergyAttach (an typed zone : Bool) (gainer : Gainer)
  | coinBonus
  | coinFail
  | coinCondition (sufferer : Sufferer) (c : Condition)
  | coinHeal (named : Bool)
  | coinDiscard (typed : Bool) (measure : Measure) (source : Side)
  | conditionApply (sufferer : Sufferer) (c : Condition)
  | conditionApplyRandom (side : Side)
  | conditionalTargetCondition (c : Option Condition)
  | conditionalDamaged (side : Side)
  | conditionalExtraEnergy (typed : Bool)
  | energyScaling (typed : Bool) (source : Side)
  | benchScaling (side : Side)
  | damageBonus
  | damageBonusTurn
  | healFull (patient : Patient)
  | heal (patient : Option Patient)
  | energyAttachZone (receiver : Receiver)
  | energyAttachKind (benched : Bool)
  | energyAttachGeneric (typed zone : Bool) (receiver : Option Receiver)
  | energyDiscard (typed : Bool) (measure : Measure) (source : Side)
  | draw
  | search

namespace Sentence

/-- The pieces of a sentence. -/
def pieces : Sentence → List Piece
  | coinDamageFixed =>
    [lit "Flip ", .count, lit " coins. This attack does ", .amount,
      lit " damage for each heads."]
  | coinDamageUntilTails =>
    [lit "Flip a coin until you get tails. This attack does ", .amount,
      lit " damage for each heads."]
  | coinDamagePerEnergy typed =>
    lit "Flip a coin for each " :: energyPieces typed
      ++ [lit " attached to this Pokémon. This attack does ", .amount,
        lit " damage for each heads."]
  | coinDamagePerPokemonInPlay =>
    [lit "Flip a coin for each Pokémon you have in play. This attack does ", .amount,
      lit " damage for each heads."]
  | coinDamagePerBench side =>
    [lit "Flip a coin for each of ", benchPiece side,
      lit " Benched Pokémon. This attack does ", .amount, lit " damage for each heads."]
  | coinEnergyAmount typed gainer =>
    [lit "Flip ", .count, lit " coins. Take an amount of "] ++ energyPieces typed
      ++ [lit " from your Energy Zone equal to the number of heads and attach it to ", gainer.piece,
        lit "."]
  | coinEnergyTake an typed gainer =>
    [lit "Flip a coin. If heads, take ", article an, lit " "] ++ energyPieces typed
      ++ [lit " from your Energy Zone and attach it to ", gainer.piece, lit "."]
  | coinEnergyAttach an typed zone gainer =>
    [lit "Flip a coin. If heads, attach ", article an, lit " "] ++ energyPieces typed
      ++ (if zone then [lit " from your Energy Zone"] else [])
      ++ [lit " to ", gainer.piece, lit "."]
  | coinBonus =>
    [lit "Flip ", .count, lit " coins. If all of them are heads, ", lit "this attack does ",
      .amount, lit " more damage."]
  | coinFail => [lit "Flip a coin. If tails, this attack does nothing."]
  | coinCondition sufferer c =>
    [lit "Flip ", .count, lit " coins. If all of them are heads, ", sufferer.piece, lit " is now ",
      conditionPiece c, lit "."]
  | coinHeal named =>
    [lit "Flip ", .count, lit " coins. If all of them are heads, ", lit "heal ", .amount,
      lit " damage"] ++ (if named then [lit " from this Pokémon"] else []) ++ [lit "."]
  | coinDiscard typed measure source =>
    [lit "Flip ", .count, lit " coins. If all of them are heads, ", lit "discard ",
      measure.piece, lit " "] ++ energyPieces typed ++ [lit " from ", holderPiece source, lit "."]
  | conditionApply sufferer c => [sufferer.first, lit " is now ", conditionPiece c, lit "."]
  | conditionApplyRandom side =>
    [match side with
      | .own => Sufferer.this.first
      | .opponent => Sufferer.opponent.first,
      lit " is now affected by a random Special Condition."]
  | conditionalTargetCondition c =>
    [lit "If your opponent's Active Pokémon is ", sufferedPiece c, lit ", this attack does ",
      .amount, lit " more damage."]
  | conditionalDamaged side =>
    [lit "If ", holderPiece side, lit " has damage on it, this attack does ", .amount,
      lit " more damage."]
  | conditionalExtraEnergy typed =>
    [lit "If this Pokémon has at least ", .count, lit " extra "] ++ energyPieces typed
      ++ [lit " attached, this attack does ", .amount, lit " more damage."]
  | energyScaling typed source =>
    [lit "This attack does ", .amount, lit " damage for each "] ++ energyPieces typed
      ++ [lit " attached to ", holderPiece source, lit "."]
  | benchScaling side =>
    [lit "This attack does ", .amount, lit " damage for each of ", benchPiece side,
      lit " Benched ", lit "Pokémon", lit "."]
  | damageBonus => [lit "This attack does ", .amount, lit " more damage."]
  | damageBonusTurn =>
    [lit "Attacks used by your Pokémon do +", .amount, lit " damage."]
  | healFull patient => [lit "Heal all damage from ", patient.piece, lit "."]
  | heal patient =>
    [lit "Heal ", .amount, lit " damage"]
      ++ (match patient with
        | some patient => [lit " from ", patient.piece]
        | none => []) ++ [lit "."]
  | energyAttachZone receiver =>
    [lit "Take ", .count, lit " ", .energy,
      lit " Energy from your Energy Zone and attach it to ", receiver.piece, lit "."]
  | energyAttachKind benched =>
    [lit "Take ", .count, lit " ", .energy, lit " Energy from your Energy Zone and attach it to "]
      ++ oneOfKind benched ++ [lit "."]
  | energyAttachGeneric typed zone receiver =>
    [lit "Attach ", .count, lit " "] ++ energyPieces typed
      ++ (if zone then [lit " from your Energy Zone"] else [])
      ++ (match receiver with
        | some receiver => [lit " to ", receiver.piece]
        | none => []) ++ [lit "."]
  | energyDiscard typed measure source =>
    [lit "Discard ", measure.piece, lit " "] ++ energyPieces typed
      ++ [lit " from ", holderPiece source, lit "."]
  | draw => [lit "Draw ", .count, lit " cards."]
  | search => [lit "Put a random ", lit "Pokémon", lit " from your deck into your hand."]

/-- The sentence as printed, with the numbers `n` and `k`, the type `e` of the energy and the
type `t` of the Pokémon. -/
def text (s : Sentence) (n k : Word) (e t : Energy) : String :=
  String.join (s.pieces.map (Piece.text n k e t))

/-- The rule that reads a sentence. -/
def rule : Sentence → RuleName
  | coinDamageFixed => .coinDamageFixed
  | coinDamageUntilTails => .coinDamageUntilTails
  | coinDamagePerEnergy _ => .coinDamagePerEnergy
  | coinDamagePerPokemonInPlay => .coinDamagePerPokemonInPlay
  | coinDamagePerBench _ => .coinDamagePerBench
  | coinEnergyAmount _ _ => .coinEnergyAmount
  | coinEnergyTake _ _ _ => .coinEnergyHeads
  | coinEnergyAttach _ _ _ _ => .coinEnergyHeads
  | coinBonus => .coinBonus
  | coinFail => .coinFail
  | coinCondition _ _ => .coinCondition
  | coinHeal _ => .coinHeal
  | coinDiscard _ _ _ => .coinDiscard
  | conditionApply _ _ => .conditionApply
  | conditionApplyRandom _ => .conditionApplyRandom
  | conditionalTargetCondition _ => .conditionalTargetCondition
  | conditionalDamaged _ => .conditionalDamaged
  | conditionalExtraEnergy _ => .conditionalExtraEnergy
  | energyScaling _ _ => .energyScaling
  | benchScaling _ => .benchScaling
  | damageBonus => .damageBonus
  | damageBonusTurn => .damageBonusTurn
  | healFull _ => .healFull
  | heal _ => .heal
  | energyAttachZone _ => .energyAttachZone
  | energyAttachKind _ => .energyAttachZone
  | energyAttachGeneric _ _ _ => .energyAttachGeneric
  | energyDiscard _ _ _ => .energyDiscard
  | draw => .draw
  | search => .search

/-- The energy a sentence speaks of, if it names one. -/
def named (typed : Bool) (e : Energy) : Option Energy := if typed then some e else none

/-- What a sentence says. -/
def effect (n k : Word) (e : Energy) : Sentence → Effect
  | coinDamageFixed => .coinFlipDamage (.fixed n) k
  | coinDamageUntilTails => .coinFlipDamage .untilTails k
  | coinDamagePerEnergy typed => .coinFlipDamage (.perEnergyAttached (named typed e)) k
  | coinDamagePerPokemonInPlay => .coinFlipDamage .perPokemonInPlay k
  | coinDamagePerBench side => .coinFlipDamage (.perBenchOccupant side) k
  | coinEnergyAmount typed gainer =>
    .coinFlipEnergy (.fixed n) 1 (energySpec (named typed e)) gainer.target
  | coinEnergyTake _ typed gainer =>
    .coinFlipEnergy (.fixed 1) 1 (energySpec (named typed e)) gainer.target
  | coinEnergyAttach _ typed _ gainer =>
    .coinFlipEnergy (.fixed 1) 1 (energySpec (named typed e)) gainer.target
  | coinBonus => .coinFlipConditional n .heads (.bonusDamage k)
  | coinFail => .coinFlipConditional 1 .tails .attackFails
  | coinCondition sufferer c => .coinFlipConditional n .heads (.condition c sufferer.target)
  | coinHeal _ => .coinFlipConditional n .heads (.heal k)
  | coinDiscard typed measure source =>
    .coinFlipConditional n .heads (.discard ⟨named typed e, measure.count k, source⟩)
  | conditionApply sufferer c => .conditionApply c sufferer.target
  | conditionApplyRandom side => .conditionApplyRandom (holderTarget side)
  | conditionalTargetCondition c => .conditionalDamage k (.targetHasCondition c)
  | conditionalDamaged side => .conditionalDamage k (holderDamaged side)
  | conditionalExtraEnergy typed => .conditionalDamage k (.selfExtraEnergy (named typed e) n)
  | energyScaling typed source => .energyScalingDamage k (named typed e) source
  | benchScaling side => .benchScalingDamage k side none
  | damageBonus => .damageBonus k
  | damageBonusTurn => .damageBonus k
  | healFull patient => .healFull patient.target
  | heal patient => .heal k ((patient.map Patient.target).getD .this)
  | energyAttachZone receiver => .energyAttach (.named e) n receiver.target
  | energyAttachKind benched => .energyAttach (.named e) n (if benched then .bench else .anyOwn)
  | energyAttachGeneric typed _ receiver =>
    .energyAttach (energySpec (named typed e)) n ((receiver.map Receiver.target).getD .this)
  | energyDiscard typed measure source => .energyDiscard ⟨named typed e, measure.count k, source⟩
  | draw => .searchOrDraw (.draw n)
  | search => .searchOrDraw (.search "pokemon")

/-! ## What its rule finds in a sentence -/

end Sentence

/-- Pieces in the slots of a rule. -/
structure Slots where
  count : Option (List Piece) := none
  amount : Option (List Piece) := none
  energy : Option (List Piece) := none
  target : Option (List Piece) := none
  condition : Option (List Piece) := none
  names : Option (List Piece) := none
  criteria : Option (List Piece) := none

/-- The pieces in a slot, if it is filled. -/
def Slots.get? (s : Slots) : Slot → Option (List Piece)
  | .count => s.count
  | .amount => s.amount
  | .energy => s.energy
  | .target => s.target
  | .condition => s.condition
  | .names => s.names
  | .criteria => s.criteria

/-- The slot for energy, if it is named. -/
def energySlot (typed : Bool) : Option (List Piece) := if typed then some [.energy] else none

namespace Sentence

/-- The pieces that the rule of a sentence finds. -/
def slots : Sentence → Slots
  | coinDamageFixed => { count := some [.count], amount := some [.amount] }
  | coinDamageUntilTails => { amount := some [.amount] }
  | coinDamagePerEnergy typed => { energy := energySlot typed, amount := some [.amount] }
  | coinDamagePerPokemonInPlay => { amount := some [.amount] }
  | coinDamagePerBench side => { target := some [benchPiece side], amount := some [.amount] }
  | coinEnergyAmount typed gainer =>
    { count := some [.count], energy := energySlot typed, target := some [gainer.piece] }
  | coinEnergyTake _ typed gainer =>
    { energy := energySlot typed, target := some [gainer.piece] }
  | coinEnergyAttach _ typed _ gainer =>
    { energy := energySlot typed, target := some [gainer.piece] }
  | coinBonus => { count := some [.count], amount := some [.amount] }
  | coinFail => {}
  | coinCondition sufferer c =>
    { count := some [.count], target := some [sufferer.piece],
      condition := some [conditionPiece c] }
  | coinHeal _ => { count := some [.count], amount := some [.amount] }
  | coinDiscard typed measure source =>
    { count := some [.count], amount := some [measure.piece], energy := energySlot typed,
      target := some [holderPiece source] }
  | conditionApply sufferer c =>
    { target := some [sufferer.piece], condition := some [conditionPiece c] }
  | conditionApplyRandom side => { target := some [holderPiece side] }
  | conditionalTargetCondition c =>
    { condition := some [sufferedPiece c], amount := some [.amount] }
  | conditionalDamaged side => { target := some [holderPiece side], amount := some [.amount] }
  | conditionalExtraEnergy typed =>
    { count := some [.count], energy := energySlot typed, amount := some [.amount] }
  | energyScaling typed source =>
    { amount := some [.amount], energy := energySlot typed, target := some [holderPiece source] }
  | benchScaling side =>
    { amount := some [.amount], target := some [benchPiece side], names := some [lit "Pokémon"] }
  | damageBonus => { amount := some [.amount] }
  | damageBonusTurn => { amount := some [.amount] }
  | healFull patient => { target := some [patient.piece] }
  | heal patient => { amount := some [.amount], target := patient.map fun p => [p.piece] }
  | energyAttachZone receiver =>
    { count := some [.count], energy := some [.energy], target := some [receiver.piece] }
  | energyAttachKind benched =>
    { count := some [.count], energy := some [.energy], target := some (oneOfKind benched) }
  | energyAttachGeneric typed _ receiver =>
    { count := some [.count], energy := energySlot typed,
      target := receiver.map fun r => [r.piece] }
  | energyDiscard typed measure source =>
    { amount := some [measure.piece], energy := energySlot typed,
      target := some [holderPiece source] }
  | draw => { count := some [.count] }
  | search => { criteria := some [lit "Pokémon"] }

end Sentence

end CardEffects.Clause
