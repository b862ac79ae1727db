/-
  CardEffects.Proofs.Reading.Check

  A check of sentences by evaluation, on their templates.

    * `Sentence.reads` — the sentence is tidy, its rule reads it from the front, and no other
      rule is used in it.
    * `Sentence.reads_eq_true` — the check succeeds, whatever varies in the sentence.
-/
import CardEffects.Proofs.Reading.Search
import CardEffects.Proofs.Reading.Sentence

namespace CardEffects.Clause

instance : Enumeration Slot where
  all := [.count, .amount, .energy, .target, .condition, .names, .criteria]
  nodup_all := by decide
  mem_all := by intro k; cases k <;> decide

/-! ## The check -/

namespace Sentence

/-- The template of a sentence in normal form. -/
def template (s : Sentence) : Template := s.pieces.flatMap Piece.template

/-- Whether a reading filled the slots of a sentence with their pieces. -/
def fills (s : Sentence) (w : Template.Way) : Bool :=
  (Enumeration.all : List Slot).all fun slot =>
    w.filled.lookup slot == (s.slots.get? slot).map fun ps => ps.flatMap Piece.template

/-- Checks that a sentence is tidy, that its rule reads it from the front and finds in its slots
what it should, and that no other rule is used in it. -/
def reads (s : Sentence) : Bool :=
  (s.pieces.foldlM Piece.gapAfter? true == some false)
    && s.template.silent s.rule []
    && match s.template.ways? s.rule.spelled.val with
      | some (w :: _) => s.fills w && w.taken.head?.isSome && w.rest.barren s.rule
      | _ => false

end Sentence

/-! ## Evaluating the check -/

/-- A property of all members of an enumeration can be decided. -/
instance decidableForallEnumeration {κ : Type} [Enumeration κ] {p : κ → Prop}
    [DecidablePred p] : Decidable (∀ k, p k) :=
  decidable_of_iff (∀ k ∈ (Enumeration.all : List κ), p k)
    ⟨fun h k => h k (Enumeration.mem_all k), fun h k _ => h k⟩

instance decidableForallOption {κ : Type} [Enumeration κ] {p : Option κ → Prop}
    [DecidablePred p] : Decidable (∀ o, p o) :=
  decidable_of_iff (p none ∧ ∀ k, p (some k)) Option.forall.symm

namespace Sentence

/-- The check succeeds for every sentence. -/
theorem reads_eq_true (s : Sentence) : s.reads = true := by
  cases s with
  | coinDamageFixed => decide +kernel
  | coinDamageUntilTails => decide +kernel
  | coinDamagePerEnergy typed => revert typed; decide +kernel
  | coinDamagePerPokemonInPlay => decide +kernel
  | coinDamagePerBench side => revert side; decide +kernel
  | coinEnergyAmount typed gainer => revert typed gainer; decide +kernel
  | coinEnergyTake an typed gainer => revert an typed gainer; decide +kernel
  | coinEnergyAttach an typed zone gainer => revert an typed zone gainer; decide +kernel
  | coinBonus => decide +kernel
  | coinFail => decide +kernel
  | coinCondition sufferer c => revert sufferer c; decide +kernel
  | coinHeal named => revert named; decide +kernel
  | coinDiscard typed measure source => revert typed measure source; decide +kernel
  | conditionApply sufferer c => revert sufferer c; decide +kernel
  | conditionApplyRandom side => revert side; decide +kernel
  | conditionalTargetCondition c => revert c; decide +kernel
  | conditionalDamaged side => revert side; decide +kernel
  | conditionalExtraEnergy typed => revert typed; decide +kernel
  | energyScaling typed source => revert typed source; decide +kernel
  | benchScaling side => revert side; decide +kernel
  | damageBonus => decide +kernel
  | damageBonusTurn => decide +kernel
  | healFull patient => revert patient; decide +kernel
  | heal patient => revert patient; decide +kernel
  | energyAttachZone receiver => revert receiver; decide +kernel
  | energyAttachKind benched => revert benched; decide +kernel
  | energyAttachGeneric typed zone receiver => revert typed zone receiver; decide +kernel
  | energyDiscard typed measure source => revert typed measure source; decide +kernel
  | draw => decide +kernel
  | search => decide +kernel

end Sentence

end CardEffects.Clause
