/-
  CardEffects.Proofs.Chance.Units

  Random discards, unit by unit.  The units of a pool are laid out type by type, and each pick is
  among all that are left; so every pick finds a unit, until there is none or enough are gone.

    * `EnergyPool.isSome_unitAt?_iff`, `EnergyPool.count_unitAt?` — the places of units, and how
      many are those of one type.
    * `EnergyPool.Drawn` — units picked and discarded one by one, with the lengths of the picks.
    * `EnergyPool.drawn_discardRandom` — a random discard picks as many units as it says, or all,
      each among one fewer than the one before.
    * `EnergyPool.Drawn.count_add`, `EnergyPool.Drawn.size_add` — the units that are left.
-/
import CardEffects.Proofs.ExtraEnergy
import CardEffects.Proofs.Ledger.Pool
import Mathlib.Data.Nat.Count

namespace CardEffects

namespace EnergyPool

/-! ## Places of units -/

/-- There is a unit at each place below the number of units. -/
theorem isSome_unitAt?_iff (us : List (Energy × Word)) (i : Nat) :
    (unitAt? i us).isSome = true ↔ i < Word.sum (us.map Prod.snd) := by
  induction us generalizing i with
  | nil => simp [unitAt?]
  | cons u us ih =>
    obtain ⟨e, n⟩ := u
    show (if i < n.toNat then some e else unitAt? (i - n.toNat) us).isSome = true
      ↔ i < n.toNat + Word.sum (us.map Prod.snd)
    split
    next hi => exact iff_of_true rfl (by omega)
    next hi =>
      rw [ih]
      omega

/-- The places of the units of one type are as many as there are of them. -/
theorem count_unitAt? (us : List (Energy × Word)) (t : Energy) :
    Nat.count (fun i => unitAt? i us = some t) (Word.sum (us.map Prod.snd)) = unitsOf us t := by
  induction us with
  | nil => rfl
  | cons u us ih =>
    obtain ⟨e, n⟩ := u
    -- the places of the first type come first, and the others behind them
    have hfirst : Nat.count (fun i => unitAt? i ((e, n) :: us) = some t) n.toNat
        = if e = t then n.toNat else 0 := by
      have hunit : ∀ i < n.toNat, (unitAt? i ((e, n) :: us) = some t ↔ e = t) := by
        intro i hi
        rw [unitAt?, if_pos hi, Option.some.injEq]
      split
      next het => exact Nat.count_of_forall fun i hi => (hunit i hi).2 het
      next het => exact Nat.count_of_forall_not fun i hi => mt (hunit i hi).1 het
    have hrest : ∀ i, (unitAt? (n.toNat + i) ((e, n) :: us) = some t) = (unitAt? i us = some t) := by
      intro i
      rw [unitAt?, if_neg (by omega), Nat.add_sub_cancel_left]
    rw [List.map_cons, Word.sum_cons, Nat.count_add, hfirst, unitsOf_cons]
    simp only [hrest]
    rw [ih]

/-- The size of a pool is the sum of its counts. -/
theorem size_eq_entries (p : EnergyPool) : p.size = Word.sum (p.entries.map Prod.snd) := by
  unfold size entries EnumMap.values EnumMap.toList
  rw [List.map_filterMap]
  simp

theorem exists_unitAt? {p : EnergyPool} {i : Nat} (h : i < p.size) :
    ∃ e, unitAt? i p.entries = some e := by
  rw [size_eq_entries, ← isSome_unitAt?_iff] at h
  exact Option.isSome_iff_exists.1 h

/-- A pool holds fewer units than 64 bits can count. -/
theorem size_lt (p : EnergyPool) : p.size < UInt64.size := by
  have hsum : unitsInAll (fun e => (p.count e).toNat) ≤ unitsInAll fun _ => Word.limit :=
    List.sum_le_sum fun e _ => Word.toNat_le_limit _
  rw [size_eq]
  exact Nat.lt_of_le_of_lt hsum (by decide)

/-- A unit that is attached can be discarded, and is missing then. -/
theorem size_discard_one {p : EnergyPool} {e : Energy} (h : 0 < (p.count e).toNat) :
    (p.discard e 1).2.size + 1 = p.size := by
  have hunit : (p.discard e 1).1.toNat = 1 := by
    rw [discard_fst, UInt32.toNat_one]
    omega
  have hone : unitsInAll (fun t => if e = t then 1 else 0) = 1 := by cases e <;> decide
  have hcount : (fun t => (p.count t).toNat)
      = fun t => ((p.discard e 1).2.count t).toNat + if e = t then 1 else 0 := by
    funext t
    have hleft := count_discard p e t 1
    rw [hunit] at hleft
    exact hleft.symm
  rw [size_eq p, size_eq (p.discard e 1).2, hcount, unitsInAll_add, hone]

/-! ## Units one by one -/

/-- Units are picked from a pool and discarded, one after the other: the pool and the coins
before, the lengths of the picks, the units, and the pool and the coins after. -/
inductive Drawn : EnergyPool → Coins → List Nat → List Energy → EnergyPool → Coins → Prop where
  | nil (p : EnergyPool) (coins : Coins) : Drawn p coins [] [] p coins
  /-- One unit is picked among all that are there, and discarded; neither fails. -/
  | cons {p : EnergyPool} {coins next : Coins} {i : Nat} {e : Energy} {lens : List Nat}
      {units : List Energy} {q : EnergyPool} {left : Coins}
      (picked : coins.pick? p.size = .ok (i, next))
      (unit : unitAt? i p.entries = some e)
      (discarded : (p.discard e 1).1 = 1)
      (rest : Drawn (p.discard e 1).2 next lens units q left) :
      Drawn p coins (p.size :: lens) (e :: units) q left

namespace Drawn

variable {p q : EnergyPool} {coins left : Coins} {lens : List Nat} {units : List Energy}

/-- Each pick is one unit. -/
theorem length_eq (h : Drawn p coins lens units q left) : units.length = lens.length := by
  induction h with
  | nil => rfl
  | cons _ _ _ _ ih => rw [List.length_cons, List.length_cons, ih]

/-- The units left and those discarded are the units there were. -/
theorem count_add (h : Drawn p coins lens units q left) (t : Energy) :
    (q.count t).toNat + units.count t = (p.count t).toNat := by
  induction h with
  | nil => exact Nat.add_zero _
  | @cons p _ _ _ e _ units _ _ _ _ discarded _ ih =>
    have hunit := count_discard p e t 1
    rw [discarded, UInt32.toNat_one] at hunit
    rw [List.count_cons]
    simp only [beq_iff_eq]
    omega

theorem size_add (h : Drawn p coins lens units q left) : q.size + lens.length = p.size := by
  induction h with
  | nil => exact Nat.add_zero _
  | @cons p _ _ _ e _ _ _ _ _ unit _ _ ih =>
    have hunit := size_discard_one (count_pos_of_unitAt? unit)
    rw [List.length_cons]
    omega

end Drawn

/-- A random discard picks as many units as it says, or all there are; each pick is among one unit
fewer than the one before, and never among none. -/
theorem drawn_discardRandom (p : EnergyPool) (coins : Coins) (n : Nat) :
    Drawn p coins ((List.range (min n p.size)).map fun k => p.size - k)
      (p.discardRandom coins n).1 (p.discardRandom coins n).2.1 (p.discardRandom coins n).2.2 := by
  -- unit by unit, the pool shrinking
  induction n generalizing p coins with
  | zero =>
    rw [Nat.zero_min]
    exact .nil p coins
  | succ n ih =>
    cases he : unitAt? (coins.pick p.size).1 p.entries with
    | none =>
      -- only among no units a pick finds none
      have hnone : p.size = 0 := by
        by_contra hsome
        obtain ⟨e, hpicked⟩ := exists_unitAt? (coins.pick_lt (Nat.pos_of_ne_zero hsome))
        rw [he] at hpicked
        cases hpicked
      rw [hnone, Nat.min_zero]
      simp only [discardRandom, he]
      exact .nil p coins
    | some e =>
      have hpos := count_pos_of_unitAt? he
      have hsize := size_discard_one hpos
      have hdiscarded : (p.discard e 1).1 = 1 := by
        apply Word.ext
        rw [discard_fst, UInt32.toNat_one]
        omega
      have hlens : (List.range (min (n + 1) p.size)).map (fun k => p.size - k)
          = p.size :: (List.range (min n (p.discard e 1).2.size)).map
              fun k => (p.discard e 1).2.size - k := by
        have hmin : min (n + 1) p.size = min n (p.discard e 1).2.size + 1 := by omega
        rw [hmin, List.range_succ_eq_map, List.map_cons, List.map_map, Nat.sub_zero]
        congr 1
        refine List.map_congr_left fun k _ => ?_
        show p.size - (k + 1) = _
        omega
      rw [hlens]
      simp only [discardRandom, he]
      exact .cons (if_neg (by omega)) he hdiscarded (ih _ _)

end EnergyPool

end CardEffects
