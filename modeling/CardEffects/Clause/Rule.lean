/-
  CardEffects.Clause.Rule

  The rules that read card text: for each, the phrase it looks for, where it may be used, and
  the effect it makes of what it finds.  A rule may turn a reading down; then the text read
  counts for nothing.  The rules stand in the order of the effects' priority classes.
-/
import CardEffects.Clause.Values

namespace CardEffects.Clause

/-! ## Rules and their names -/

/-- Where a rule may be used. -/
inductive Place where
  /-- The phrase spells out its own gate, a coin flip or an "if". -/
  | gate
  /-- Nowhere in a sentence that a coin flip or an "if" opens. -/
  | plain
  deriving DecidableEq, Repr

/-- The names of the rules. -/
inductive RuleName where
  | coinDamageFixed
  | coinDamageUntilTails
  | coinDamagePerEnergy
  | coinDamagePerPokemonInPlay
  | coinDamagePerBench
  | coinEnergyAmount
  | coinEnergyHeads
  | coinBonus
  | coinFail
  | coinCondition
  | coinHeal
  | coinDiscard
  | conditionApply
  | conditionApplySecond
  | conditionApplyRandom
  | conditionalTargetCondition
  | conditionalDamaged
  | conditionalExtraEnergy
  | energyScaling
  | benchScaling
  | damageBonus
  | damageBonusTurn
  | healFull
  | heal
  | energyAttachZone
  | energyAttachGeneric
  | energyDiscard
  | draw
  | search
  deriving DecidableEq, Repr

namespace RuleName

instance : Labelled RuleName where
  all := [coinDamageFixed, coinDamageUntilTails, coinDamagePerEnergy, coinDamagePerPokemonInPlay,
    coinDamagePerBench, coinEnergyAmount, coinEnergyHeads, coinBonus, coinFail, coinCondition,
    coinHeal, coinDiscard, conditionApply, conditionApplySecond, conditionApplyRandom,
    conditionalTargetCondition, conditionalDamaged, conditionalExtraEnergy, energyScaling,
    benchScaling, damageBonus, damageBonusTurn, healFull, heal, energyAttachZone,
    energyAttachGeneric, energyDiscard, draw, search]
  nodup_all := by decide
  mem_all := by intro k; cases k <;> decide
  label
    | coinDamageFixed => "coin_damage_fixed"
    | coinDamageUntilTails => "coin_damage_until_tails"
    | coinDamagePerEnergy => "coin_damage_per_energy"
    | coinDamagePerPokemonInPlay => "coin_damage_per_pokemon_in_play"
    | coinDamagePerBench => "coin_damage_per_bench"
    | coinEnergyAmount => "coin_energy_amount"
    | coinEnergyHeads => "coin_energy_heads"
    | coinBonus => "coin_bonus"
    | coinFail => "coin_fail"
    | coinCondition => "coin_status"
    | coinHeal => "coin_heal"
    | coinDiscard => "coin_discard"
    | conditionApply => "status_apply"
    | conditionApplySecond => "status_apply_second"
    | conditionApplyRandom => "status_apply_random"
    | conditionalTargetCondition => "conditional_target_status"
    | conditionalDamaged => "conditional_damaged"
    | conditionalExtraEnergy => "conditional_extra_energy"
    | energyScaling => "energy_scaling"
    | benchScaling => "bench_scaling"
    | damageBonus => "damage_bonus"
    | damageBonusTurn => "damage_bonus_turn"
    | healFull => "heal_full"
    | heal => "heal"
    | energyAttachZone => "energy_attach_zone"
    | energyAttachGeneric => "energy_attach_generic"
    | energyDiscard => "energy_discard"
    | draw => "draw"
    | search => "search"
  nodup_labels := by decide

end RuleName

/-! ## Parts of phrases -/

namespace Phrase

/-- A number, in digits or one of the given words. -/
def numberOr (ws : List String) : Phrase := either digits (words ws)

/-- How many coins. -/
def coinCount : Phrase :=
  slot .count (numberOr ["a", "an", "one", "two", "three", "four", "five", "six"])

/-- An amount of damage, in digits. -/
def amount : Phrase := slot .amount digits

/-- A token for energy: a letter in braces, or a name. -/
def energyToken : Phrase :=
  slot .energy
    (either (seq [word "\x7b", one .letter, word "\x7d"])
      (words ["grass", "fire", "water", "lightning", "psychic", "fighting", "darkness", "dark",
        "metal", "colorless"]))

/-- A token for energy that may be missing. -/
def someEnergy : Phrase := optional (both energyToken (word " "))

/-- The word "coin" or "coins". -/
def coinWord : Phrase := seq [word "coin", optional (word "s")]

/-- The part of a clause between the number of coins and what happens if all are heads. -/
def allHeads : Phrase :=
  seq [word " ", coinWord, word ". if ",
    words ["heads", "both of them are heads", "all of them are heads"], word ", "]

/-- "damage" or "more damage". -/
def moreDamage : Phrase := seq [word " ", optional (word "more "), word "damage"]

/-- The name of a condition. -/
def conditionWord : Phrase := words ["burned", "poisoned", "asleep", "paralyzed", "confused"]

/-- Who suffers from a condition. -/
def sufferer : Phrase :=
  slot .target (words ["your opponent's active pokemon", "the defending pokemon", "this pokemon"])

/-- Where energy from a coin flip goes. -/
def gainTarget : Phrase :=
  slot .target
    (words ["this pokemon", "your benched pokemon", "1 of your benched pokemon",
      "1 of your pokemon"])

/-- Whose energy counts or is discarded. -/
def holder : Phrase := slot .target (words ["this pokemon", "your opponent's active pokemon"])

/-- Who is healed. -/
def patient : Phrase :=
  slot .target
    (words ["this pokemon", "each of your pokemon", "1 of your pokemon", "your active pokemon"])

/-- How much energy is discarded. -/
def discardAmount : Phrase :=
  slot .amount
    (either (words ["a random", "a", "an"])
      (either digits (words ["one", "two", "three", "all"])))

end Phrase

/-! ## The table -/

open Phrase in
/-- The phrase of a rule. -/
def RuleName.phrase : RuleName → Phrase
  | coinDamageFixed =>
    seq [word "flip ", coinCount, word " ", coinWord, word ". this attack does ", amount,
      moreDamage, word " for each heads"]
  | coinDamageUntilTails =>
    seq [word "flip a coin until you get tails. this attack does ", amount, moreDamage,
      word " for each heads"]
  | coinDamagePerEnergy =>
    seq [word "flip a coin for each ", someEnergy,
      word "energy attached to this pokemon. this attack does ", amount, moreDamage,
      word " for each heads"]
  | coinDamagePerPokemonInPlay =>
    seq [word "flip a coin for each pokemon you have in play. this attack does ", amount,
      moreDamage, word " for each heads"]
  | coinDamagePerBench =>
    seq [word "flip a coin for each of ", slot .target (words ["your", "your opponent's"]),
      word " benched pokemon. this attack does ", amount, moreDamage, word " for each heads"]
  | coinEnergyAmount =>
    seq [word "flip ", coinCount, word " ", coinWord, word ". take an amount of ", someEnergy,
      word "energy from your energy zone equal to the number of heads and attach it to ",
      gainTarget]
  | coinEnergyHeads =>
    seq [word "flip a coin. if heads, ",
      either
        (seq [word "take a", optional (word "n"), word " ", someEnergy,
          word "energy from your energy zone and attach it"])
        (seq [word "attach a", optional (word "n"), word " ", someEnergy, word "energy",
          optional (word " from your energy zone")]),
      word " to ", gainTarget]
  | coinBonus =>
    seq [word "flip ", coinCount, allHeads, word "this attack does ", amount,
      word " more damage"]
  | coinFail => word "flip a coin. if tails, this attack does nothing"
  | coinCondition =>
    seq [word "flip ", coinCount, allHeads, sufferer, word " is now ",
      slot .condition conditionWord]
  | coinHeal => seq [word "flip ", coinCount, allHeads, word "heal ", amount, word " damage"]
  | coinDiscard =>
    seq [word "flip ", coinCount, allHeads, word "discard ", discardAmount, word " ", someEnergy,
      word "energy from ", holder]
  | conditionApply => seq [sufferer, word " is now ", slot .condition conditionWord]
  | conditionApplySecond =>
    seq [sufferer, word " is now ", conditionWord, word " and ", slot .condition conditionWord]
  | conditionApplyRandom =>
    seq [slot .target (words ["your opponent's active pokemon", "this pokemon"]),
      word " is now affected by ",
      either (word "a random special condition")
        (seq [word "a special condition ", optional (word "chosen "), word "at random"])]
  | conditionalTargetCondition =>
    seq [word "if your opponent's active pokemon is ",
      slot .condition
        (words ["burned", "poisoned", "asleep", "paralyzed", "confused",
          "affected by a special condition"]),
      word ", this attack does ", amount, word " more damage"]
  | conditionalDamaged =>
    seq [word "if ", slot .target (words ["your opponent's active pokemon", "this pokemon"]),
      word " has damage on it, this attack does ", amount, word " more damage"]
  | conditionalExtraEnergy =>
    seq [word "if this pokemon has at least ", slot .count (numberOr ["one", "two", "three"]),
      word " extra ", someEnergy, word "energy attached, this attack does ", amount,
      word " more damage"]
  | energyScaling =>
    seq [word "this attack does ", amount, moreDamage, word " for each ", someEnergy,
      word "energy attached to ", holder]
  | benchScaling =>
    seq [word "this attack does ", amount, moreDamage, word " for each of ",
      slot .target (words ["your", "your opponent's"]), word " benched ",
      slot .names (run .name 1), either (words [".", ","]) atEnd]
  | damageBonus =>
    seq [word "this attack does ", amount, word " more damage", either (word ".") atEnd]
  | damageBonusTurn => seq [word "attacks used by your pokemon do +", amount, word " damage"]
  | healFull => seq [word "heal all damage from ", patient]
  | heal =>
    seq [word "heal ", amount, word " damage", optional (both (word " from ") patient)]
  | energyAttachZone =>
    seq [word "take ",
      slot .count (either (words ["a", "an"]) (numberOr ["one", "two", "three"])), word " ",
      energyToken, word " energy from your energy zone and attach it to ",
      slot .target
        (either (words ["this pokemon", "your active pokemon", "your benched pokemon"])
          (either (seq [word "1 of your benched ", run .taggedName 0, word "pokemon"])
            (seq [word "1 of your ", run .taggedName 0, word "pokemon"])))]
  | energyAttachGeneric =>
    seq [word "attach ", slot .count (either (words ["a", "an"]) (numberOr ["one", "two"])),
      word " ", someEnergy, word "energy", optional (word " from your energy zone"),
      optional
        (both (word " to ")
          (slot .target
            (words ["this pokemon", "your active pokemon", "your benched pokemon",
              "1 of your benched pokemon", "1 of your pokemon"])))]
  | energyDiscard =>
    seq [word "discard ", discardAmount, word " ", someEnergy, word "energy from ", holder]
  | draw =>
    seq [word "draw ", slot .count (either (words ["a", "an"]) (numberOr ["one", "two", "three"])),
      word " card", optional (word "s")]
  | search =>
    seq [word "put ", optional (words ["a ", "1 "]), word "random ",
      slot .criteria (run .any 1), word " from your deck into your hand"]

/-- The kind of effect a rule makes. -/
def RuleName.kind : RuleName → EffectKind
  | coinDamageFixed | coinDamageUntilTails | coinDamagePerEnergy | coinDamagePerPokemonInPlay
  | coinDamagePerBench => .coinFlipDamage
  | coinEnergyAmount | coinEnergyHeads => .coinFlipEnergy
  | coinBonus | coinFail | coinCondition | coinHeal | coinDiscard => .coinFlipConditional
  | conditionApply | conditionApplySecond => .conditionApply
  | conditionApplyRandom => .conditionApplyRandom
  | conditionalTargetCondition | conditionalDamaged | conditionalExtraEnergy =>
    .conditionalDamage
  | energyScaling => .energyScalingDamage
  | benchScaling => .benchScalingDamage
  | damageBonus | damageBonusTurn => .damageBonus
  | healFull => .healFull
  | heal => .heal
  | energyAttachZone | energyAttachGeneric => .energyAttach
  | energyDiscard => .energyDiscard
  | draw | search => .searchOrDraw

/-- Where a rule may be used: the kinds with a gate of their own anywhere, all others outside
gated sentences only. -/
def RuleName.place (r : RuleName) : Place :=
  match r.kind with
  | .coinFlipDamage | .coinFlipEnergy | .coinFlipConditional | .conditionalDamage => .gate
  | _ => .plain

/-- A filter for the names behind "benched": none when Pokémon of any name count. -/
def benchFilter (phrase : List Char) : Option NameFilter :=
  if startsWith "pokemon" phrase then none else some (NameFilter.ofNames (nameList phrase))

/-- The effect a rule makes of a reading, unless it turns it down. -/
def RuleName.build (r : RuleName) (f : Found) : Option Effect :=
  let count := number (f.get? .count)
  let amount := number (f.get? .amount)
  match r with
  | coinDamageFixed => some (.coinFlipDamage (.fixed count) amount)
  | coinDamageUntilTails => some (.coinFlipDamage .untilTails amount)
  | coinDamagePerEnergy => do
    let e ← energy? (f.get? .energy)
    some (.coinFlipDamage (.perEnergyAttached e) amount)
  | coinDamagePerPokemonInPlay => some (.coinFlipDamage .perPokemonInPlay amount)
  | coinDamagePerBench =>
    some (.coinFlipDamage (.perBenchOccupant (side (f.get? .target))) amount)
  | coinEnergyAmount => do
    let e ← energy? (f.get? .energy)
    some (.coinFlipEnergy (.fixed count) 1 (energySpec e) (energyTarget (f.get? .target)))
  | coinEnergyHeads => do
    let e ← energy? (f.get? .energy)
    some (.coinFlipEnergy (.fixed 1) 1 (energySpec e) (energyTarget (f.get? .target)))
  | coinBonus => some (.coinFlipConditional count .heads (.bonusDamage amount))
  | coinFail => some (.coinFlipConditional 1 .tails .attackFails)
  | coinCondition => do
    let c ← condition? (f.get? .condition)
    some (.coinFlipConditional count .heads (.condition c (conditionTarget (f.get? .target))))
  | coinHeal => some (.coinFlipConditional count .heads (.heal amount))
  | coinDiscard => do
    let e ← energy? (f.get? .energy)
    some (.coinFlipConditional count .heads
      (.discard ⟨e, discardCount (f.get? .amount), side (f.get? .target)⟩))
  | conditionApply | conditionApplySecond => do
    let c ← condition? (f.get? .condition)
    some (.conditionApply c (conditionTarget (f.get? .target)))
  | conditionApplyRandom => some (.conditionApplyRandom (conditionTarget (f.get? .target)))
  | conditionalTargetCondition =>
    some (.conditionalDamage amount (.targetHasCondition (condition? (f.get? .condition))))
  | conditionalDamaged =>
    match side (f.get? .target) with
    | .opponent => some (.conditionalDamage amount .targetDamaged)
    | .own => some (.conditionalDamage amount .selfDamaged)
  | conditionalExtraEnergy => do
    let e ← energy? (f.get? .energy)
    some (.conditionalDamage amount (.selfExtraEnergy e count))
  | energyScaling => do
    let e ← energy? (f.get? .energy)
    some (.energyScalingDamage amount e (side (f.get? .target)))
  | benchScaling =>
    some (.benchScalingDamage amount (side (f.get? .target))
      (benchFilter ((f.get? .names).getD "pokemon".toList)))
  | damageBonus | damageBonusTurn => some (.damageBonus amount)
  | healFull => some (.healFull (healTarget (f.get? .target)))
  | heal => some (.heal amount (healTarget (f.get? .target)))
  | energyAttachZone => do
    let e ← energy? (f.get? .energy)
    let named ← e
    some (.energyAttach (.named named) count (energyTarget (f.get? .target)))
  | energyAttachGeneric => do
    let e ← energy? (f.get? .energy)
    some (.energyAttach (energySpec e) count (energyTarget (f.get? .target)))
  | energyDiscard => do
    let e ← energy? (f.get? .energy)
    some (.energyDiscard ⟨e, discardCount (f.get? .amount), side (f.get? .target)⟩)
  | draw => some (.searchOrDraw (.draw count))
  | search => do
    let criteria ← f.get? .criteria
    some (.searchOrDraw (.search (String.ofList (Text.trim criteria))))

/-- A rule makes effects of its own kind only. -/
theorem RuleName.kind_build {r : RuleName} {f : Found} {e : Effect} (h : r.build f = some e) :
    e.kind = r.kind := by
  cases r <;> simp only [build, kind] at h ⊢
  all_goals
    first
      | (obtain rfl := Option.some.inj h; rfl)
      | (simp only [Option.bind_eq_bind, Option.bind_eq_some_iff, Option.some.injEq] at h
         obtain ⟨_, _, h⟩ := h
         first
           | (subst h; rfl)
           | (obtain ⟨_, _, rfl⟩ := h; rfl))
      | (split at h <;> (obtain rfl := Option.some.inj h; rfl))

end CardEffects.Clause
