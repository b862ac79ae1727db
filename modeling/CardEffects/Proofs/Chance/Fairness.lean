/-
  CardEffects.Proofs.Chance.Fairness

  What is left to chance is left to it evenly.  A random condition is any of those not in force,
  and a unit discarded at random any of those attached, each by equally many values.

    * `Combatant.chosenBy?`, `EnergyPool.unitBy?` — what a value picks.
    * `Combatant.random_infliction` — a condition inflicted at random.
    * `EnergyPool.random_unit` — one unit of a random discard.
    * `Coins.picks_uniform` — every pick is even.
-/
import CardEffects.Proofs.Chance.Pick
import CardEffects.Proofs.Chance.Units

namespace CardEffects

/-! ## Conditions -/

/-- The places of a member in a list are as many as its occurrences. -/
theorem count_getElem? {α : Type} [DecidableEq α] (l : List α) (a : α) :
    Nat.count (fun i => l[i]? = some a) l.length = l.count a := by
  induction l with
  | nil => rfl
  | cons x l ih =>
    rw [List.length_cons, Nat.count_succ', List.count_cons]
    simp only [List.getElem?_cons_succ, List.getElem?_cons_zero, Option.some.injEq, ih, beq_iff_eq]

namespace Combatant

/-- The condition that a value picks among those not in force, when it is accepted. -/
def chosenBy? (m : Combatant) (v : UInt64) : Option Condition :=
  (Coins.pickOf? m.missingConditions.length v).bind fun i => m.missingConditions[i]?

/-- A condition that was not in force is, and nothing else is different. -/
structure Gets (m : Combatant) (c : Condition) (turn : Word) (m' : Combatant) : Prop where
  missing : m.conditions.get? c = none
  entry : m'.conditions.get? c = some ⟨c, turn⟩
  others : ∀ k, k ≠ c → m'.conditions.get? k = m.conditions.get? k
  rest : m' = { m with conditions := m'.conditions }

/-- What a condition inflicted at random comes to. -/
structure RandomInfliction (m : Combatant) (turn : Word) (coins : Coins) : Prop where
  /-- None is inflicted when all are in force, and only then; nothing is drawn or changed. -/
  none_iff : (m.inflictRandom turn coins).1 = none ↔ ∀ c, m.conditions.contains c = true
  idle : (m.inflictRandom turn coins).1 = none → (m.inflictRandom turn coins).2 = (m, coins)
  /-- Otherwise it is one that was not in force. -/
  gets : ∀ c, (m.inflictRandom turn coins).1 = some c →
    m.Gets c turn (m.inflictRandom turn coins).2.1
  /-- It is the one that the first accepted value picks, and no value is drawn behind that. -/
  chosen : m.missingConditions ≠ [] → ∀ n, coins.Settles m.missingConditions.length n →
    (m.inflictRandom turn coins).1 = m.chosenBy? (coins.peek n)
      ∧ (m.inflictRandom turn coins).2.2 = coins.advance (n + 1)
  /-- Each condition not in force is picked by equally many values, and no other by any. -/
  chances : ∀ c, Nat.card {v : UInt64 // m.chosenBy? v = some c}
    = if m.conditions.contains c then 0 else 2 ^ Coins.leadingZeros m.missingConditions.length

theorem mem_missingConditions {m : Combatant} {c : Condition} :
    c ∈ m.missingConditions ↔ m.conditions.contains c = false := by
  simp [missingConditions]

theorem length_missingConditions_lt (m : Combatant) : m.missingConditions.length < UInt64.size := by
  have hle : m.missingConditions.length ≤ (Enumeration.all : List Condition).length :=
    List.length_filter_le _ _
  exact Nat.lt_of_le_of_lt hle (by decide)

theorem missingConditions_eq_nil_iff {m : Combatant} :
    m.missingConditions = [] ↔ ∀ c, m.conditions.contains c = true := by
  simp [missingConditions]

theorem gets_inflict {m : Combatant} {c : Condition} (h : m.conditions.contains c = false)
    (turn : Word) : m.Gets c turn (m.inflict c turn).2 := by
  have hinflict : (m.inflict c turn).2
      = { m with conditions := ⟨m.conditions.active.insert c ⟨c, turn⟩⟩ } := by
    simp [inflict, Conditions.insert, h]
  rw [hinflict]
  refine ⟨Option.isNone_iff_eq_none.1 ?_, ?_, fun k hk => ?_, rfl⟩
  · rw [← Option.not_isSome, Bool.not_eq_true']
    exact h
  · show (m.conditions.active.insert c _).get? c = _
    rw [EnumMap.get?_insert, if_pos rfl]
  · show (m.conditions.active.insert c _).get? k = _
    rw [EnumMap.get?_insert, if_neg hk]
    rfl

/-- Where a condition is missing, a pick finds one. -/
theorem inflictRandom_of_missing {m : Combatant} (h : m.missingConditions ≠ []) (turn : Word)
    (coins : Coins) :
    ∃ c, m.missingConditions[(coins.pick m.missingConditions.length).1]? = some c
      ∧ m.inflictRandom turn coins
        = (some c, (m.inflict c turn).2, (coins.pick m.missingConditions.length).2) := by
  have hpick := coins.pick_lt (List.length_pos_iff.2 h)
  refine ⟨_, List.getElem?_eq_getElem hpick, ?_⟩
  simp only [inflictRandom, List.getElem?_eq_getElem hpick]

theorem inflictRandom_of_none {m : Combatant} (h : m.missingConditions = []) (turn : Word)
    (coins : Coins) : m.inflictRandom turn coins = (none, m, coins) := by
  simp [inflictRandom, h]

/-- A condition not in force is listed once among those missing. -/
theorem count_missingConditions (m : Combatant) (c : Condition) :
    m.missingConditions.count c = if m.conditions.contains c then 0 else 1 := by
  split
  next hin =>
    rw [List.count_eq_zero, mem_missingConditions, hin]
    decide
  next hout =>
    have hnodup : m.missingConditions.Nodup := Enumeration.nodup_all.filter _
    exact List.count_eq_one_of_mem hnodup (mem_missingConditions.2 (by simpa using hout))

theorem card_chosenBy? (m : Combatant) (c : Condition) :
    Nat.card {v : UInt64 // m.chosenBy? v = some c}
      = if m.conditions.contains c then 0
        else 2 ^ Coins.leadingZeros m.missingConditions.length := by
  have hcard := Coins.card_pickOf?_bind_of_lt m.length_missingConditions_lt
    (fun i _ hi => (List.getElem?_eq_some_iff.1 hi).1) c
  rw [count_getElem?, count_missingConditions, ite_mul, Nat.zero_mul, Nat.one_mul] at hcard
  exact hcard

theorem random_infliction (m : Combatant) (turn : Word) (coins : Coins) :
    m.RandomInfliction turn coins := by
  by_cases hmissing : m.missingConditions = []
  · have hnone := inflictRandom_of_none hmissing turn coins
    rw [missingConditions_eq_nil_iff] at hmissing
    exact {
      none_iff := by
        rw [hnone]
        exact iff_of_true rfl hmissing
      idle := fun _ => by rw [hnone]
      gets := by
        intro c hc
        rw [hnone] at hc
        cases hc
      chosen := fun hsome => absurd (missingConditions_eq_nil_iff.2 hmissing) hsome
      chances := m.card_chosenBy? }
  · obtain ⟨c, hc, hresult⟩ := inflictRandom_of_missing hmissing turn coins
    rw [missingConditions_eq_nil_iff] at hmissing
    exact {
      none_iff := by
        rw [hresult]
        exact iff_of_false nofun hmissing
      idle := by
        intro hnone
        rw [hresult] at hnone
        cases hnone
      gets := by
        intro k hk
        rw [hresult] at hk ⊢
        obtain rfl := Option.some.inj hk
        exact gets_inflict (mem_missingConditions.1 (List.mem_of_getElem? hc)) turn
      chosen := by
        intro _ n hn
        obtain ⟨hpick, hleft⟩ := Coins.pick_of_settles hn
        rw [hresult, chosenBy?, hpick]
        exact ⟨hc.symm, hleft⟩
      chances := m.card_chosenBy? }

end Combatant

/-! ## Units -/

namespace EnergyPool

/-- The type of the unit that a value picks among all, when it is accepted. -/
def unitBy? (p : EnergyPool) (v : UInt64) : Option Energy :=
  (Coins.pickOf? p.size v).bind fun i => unitAt? i p.entries

/-- What one step of a random discard of `n + 1` units comes to. -/
structure RandomUnit (p : EnergyPool) (coins : Coins) (n : Nat) : Prop where
  /-- The unit is the one that the first accepted value picks; the others are discarded in the
  same way from what is left. -/
  chosen : 0 < p.size → ∀ k, coins.Settles p.size k →
    ∃ e, p.unitBy? (coins.peek k) = some e ∧ p.discardRandom coins (n + 1)
      = (e :: ((p.discard e 1).2.discardRandom (coins.advance (k + 1)) n).1,
          ((p.discard e 1).2.discardRandom (coins.advance (k + 1)) n).2)
  /-- A type is picked by as many values as it has units, times the same for all. -/
  chances : ∀ e, Nat.card {v : UInt64 // p.unitBy? v = some e}
    = (p.count e).toNat * 2 ^ Coins.leadingZeros p.size

theorem card_unitBy? (p : EnergyPool) (e : Energy) :
    Nat.card {v : UInt64 // p.unitBy? v = some e}
      = (p.count e).toNat * 2 ^ Coins.leadingZeros p.size := by
  have hplaces := count_unitAt? p.entries e
  rw [← size_eq_entries, unitsOf_entries] at hplaces
  rw [← hplaces]
  refine Coins.card_pickOf?_bind_of_lt p.size_lt (fun i t hi => ?_) e
  rw [size_eq_entries, ← isSome_unitAt?_iff, hi]
  rfl

theorem random_unit (p : EnergyPool) (coins : Coins) (n : Nat) : p.RandomUnit coins n where
  chosen := by
    intro hsome k hk
    obtain ⟨hpick, hleft⟩ := Coins.pick_of_settles hk
    obtain ⟨e, he⟩ := exists_unitAt? (coins.pick_lt hsome)
    refine ⟨e, ?_, ?_⟩
    · rw [unitBy?, hpick]
      exact he
    · rw [← hleft]
      simp only [discardRandom, he]
  chances := p.card_unitBy?

end EnergyPool

/-- **Picks are uniform.**  Each index below the length has equally many of all values, and half of
them or more are accepted.  So a random condition is any of those not in force, each by equally
many values, and each unit of a random discard is of a type by as many values as there are units
of that type, times the same number for all. -/
theorem Coins.picks_uniform :
    (∀ len, 0 < len → len < UInt64.size → Coins.Uniform len)
      ∧ (∀ (m : Combatant) (turn : Word) (coins : Coins), m.RandomInfliction turn coins)
      ∧ ∀ (p : EnergyPool) (coins : Coins) (n : Nat), p.RandomUnit coins n :=
  ⟨fun _ => Coins.uniform, Combatant.random_infliction, EnergyPool.random_unit⟩

/-- Among two units of darkness and one of grass, darkness is picked by twice `2 ^ 62` values. -/
theorem Coins.picks_uniform_darkness :
    Coins.Uniform 3
      ∧ Nat.card {v : UInt64 // (EnergyPool.ofUnits [(.darkness, 2), (.grass, 1)]).unitBy? v
          = some .darkness} = 2 * 2 ^ 62 := by
  obtain ⟨huniform, -, hunits⟩ := Coins.picks_uniform
  refine ⟨huniform 3 (by decide) (by decide), ?_⟩
  rw [(hunits (.ofUnits [(.darkness, 2), (.grass, 1)]) (.ofSeed 0) 0).chances .darkness]
  decide

end CardEffects
