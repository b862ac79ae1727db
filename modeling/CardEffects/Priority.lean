/-
  CardEffects.Priority

  The order in which effects of one text are carried out: coin flips first, then conditions,
  damage, healing and energy; within a class, the more specific kind first.
-/
import CardEffects.Effect

namespace CardEffects

/-- The classes of effects, in the order in which they are carried out. -/
inductive PriorityClass where
  | coinFlip
  | status
  | damageModifier
  | healing
  | energy
  deriving DecidableEq, Repr

namespace PriorityClass

/-- The place of a class, counted from one. -/
def rank : PriorityClass → Nat
  | coinFlip => 1
  | status => 2
  | damageModifier => 3
  | healing => 4
  | energy => 5

instance : Labelled PriorityClass where
  all := [coinFlip, status, damageModifier, healing, energy]
  nodup_all := by decide
  mem_all := by intro k; cases k <;> decide
  label
    | coinFlip => "CoinFlip"
    | status => "Status"
    | damageModifier => "DamageModifier"
    | healing => "Healing"
    | energy => "Energy"
  nodup_labels := by decide

end PriorityClass

/-- A place in the order of execution: the class, then how specific the kind is. -/
structure Priority where
  cls : PriorityClass
  specificity : Nat
  deriving DecidableEq, Repr

namespace Priority

/-- Whether `p` comes strictly before `q`. -/
def before (p q : Priority) : Bool :=
  p.cls.rank < q.cls.rank || p.cls.rank == q.cls.rank && p.specificity < q.specificity

/-- The priorities of all kinds, in order. -/
def table : List (EffectKind × Priority) :=
  [(.coinFlipEnergy, ⟨.coinFlip, 0⟩), (.coinFlipConditional, ⟨.coinFlip, 1⟩),
    (.coinFlipDamage, ⟨.coinFlip, 2⟩),
    (.conditionApplyRandom, ⟨.status, 0⟩), (.conditionApply, ⟨.status, 1⟩),
    (.conditionalDamage, ⟨.damageModifier, 0⟩), (.energyScalingDamage, ⟨.damageModifier, 1⟩),
    (.benchScalingDamage, ⟨.damageModifier, 2⟩), (.damageBonus, ⟨.damageModifier, 9⟩),
    (.healFull, ⟨.healing, 0⟩), (.heal, ⟨.healing, 1⟩),
    (.energyDiscard, ⟨.energy, 0⟩), (.searchOrDraw, ⟨.energy, 1⟩), (.energyAttach, ⟨.energy, 8⟩),
    (.unparsed, ⟨.energy, 9⟩)]

end Priority

/-- The priority of a kind: the one the table has for it.  A kind that the table did not list
would come last of all. -/
def EffectKind.priority (k : EffectKind) : Priority :=
  (Priority.table.lookup k).getD ⟨.energy, 255⟩

/-- The table lists every kind once, with its priority, in ascending order. -/
theorem Priority.table_eq :
    (∀ k : EffectKind, (k, k.priority) ∈ Priority.table) ∧ Priority.table.length = 15
      ∧ Priority.table.Pairwise (fun a b => a.2.before b.2 = true) := by
  refine ⟨fun k => ?_, rfl, by decide⟩
  cases k <;> decide

/-- Kinds with one priority are one kind. -/
theorem EffectKind.priority_inj {k l : EffectKind} (h : k.priority = l.priority) : k = l := by
  cases k <;> cases l <;> first | rfl | exact absurd h (by decide)

/-- The priority of an effect is that of its kind. -/
def Effect.priority (e : Effect) : Priority := e.kind.priority

end CardEffects
