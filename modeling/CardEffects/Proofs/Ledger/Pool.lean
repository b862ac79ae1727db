/-
  CardEffects.Proofs.Ledger.Pool

  What attaching and discarding do to the count of each type.

    * `EnergyPool.count_attach` — attaching adds, up to the largest count.
    * `EnergyPool.count_discardBy` — whatever a discard says, the units it gives and the units
      it leaves come to the units there were, type by type.
-/
import CardEffects.Application.Energy

namespace CardEffects

namespace EnergyPool

/-! ## Counts -/

theorem count_of_get? {p : EnergyPool} {e : Energy} {n : Word} (h : p.units.get? e = some n) :
    p.count e = n := by
  rw [count, h]
  rfl

theorem count_of_get?_none {p : EnergyPool} {e : Energy} (h : p.units.get? e = none) :
    p.count e = 0 := by
  rw [count, h]
  rfl

theorem count_insert (p : EnergyPool) (e t : Energy) (n : Word) :
    (⟨p.units.insert e n⟩ : EnergyPool).count t = if t = e then n else p.count t := by
  simp only [count, EnumMap.get?_insert]
  split <;> rfl

theorem count_erase (p : EnergyPool) (e t : Energy) :
    (⟨p.units.erase e⟩ : EnergyPool).count t = if t = e then 0 else p.count t := by
  simp only [count, EnumMap.get?_erase]
  split <;> rfl

@[simp] theorem count_empty (e : Energy) : empty.count e = 0 :=
  count_of_get?_none (EnumMap.get?_empty e)

/-- The units of one type in a list of units counted by type. -/
def unitsOf (us : List (Energy × Word)) (t : Energy) : Nat :=
  Word.sum ((us.filter fun u => u.1 = t).map fun u => u.2)

@[simp] theorem unitsOf_nil (t : Energy) : unitsOf [] t = 0 := rfl

@[simp] theorem unitsOf_cons (u : Energy × Word) (us : List (Energy × Word)) (t : Energy) :
    unitsOf (u :: us) t = (if u.1 = t then u.2.toNat else 0) + unitsOf us t := by
  by_cases h : u.1 = t <;> simp [unitsOf, h]

/-- In a list with one entry for each member, the units of a type are those of its entry. -/
private theorem unitsOf_filterMap {f : Energy → Option Word} {l : List Energy} (hl : l.Nodup)
    (t : Energy) :
    unitsOf (l.filterMap fun e => (f e).map fun n => (e, n)) t
      = if t ∈ l then ((f t).getD 0).toNat else 0 := by
  induction l with
  | nil => rfl
  | cons e l ih =>
    obtain ⟨he, hl⟩ := List.nodup_cons.1 hl
    -- the entry of `t`, if there is one, is the only one of its type
    by_cases het : e = t
    · subst het
      cases hf : f e with
      | none => simp [hf, ih hl, he]
      | some n => simp [hf, ih hl, he]
    · have hmem : t ∈ e :: l ↔ t ∈ l := by simp [Ne.symm het]
      cases hf : f e with
      | none => simp [hf, ih hl, hmem]
      | some n => simp [hf, ih hl, hmem, het]

/-- The entries of a pool hold the units of each type. -/
theorem unitsOf_entries (p : EnergyPool) (t : Energy) :
    unitsOf p.entries t = (p.count t).toNat := by
  have h := unitsOf_filterMap (f := p.units.get?) Enumeration.nodup_all t
  rw [if_pos (Enumeration.mem_all t)] at h
  exact h

/-! ## Attaching -/

theorem count_attach (p : EnergyPool) (e t : Energy) (n : Word) :
    (p.attach e n).count t = if t = e then Word.add (p.count e) n else p.count t := by
  unfold attach
  split
  next hn =>
    subst hn
    -- nothing to attach leaves the pool as it is, which is to add nothing
    split
    next h =>
      subst h
      rw [Word.add_zero]
    · rfl
  next hn => exact count_insert p e t _

/-! ## Discarding -/

theorem discard_fst (p : EnergyPool) (e : Energy) (n : Word) :
    (p.discard e n).1.toNat = min (p.count e).toNat n.toNat := by
  unfold discard
  split
  next h => simp [count_of_get?_none h]
  next held h => simp [count_of_get? h]

/-- The units discarded and those left are the units there were. -/
theorem count_discard (p : EnergyPool) (e t : Energy) (n : Word) :
    ((p.discard e n).2.count t).toNat + (if e = t then (p.discard e n).1.toNat else 0)
      = (p.count t).toNat := by
  unfold discard
  split
  next h => simp
  next held h =>
    have hheld := count_of_get? h
    -- no more is taken than is held, so the subtraction does not saturate
    have hsub : (Word.sub held (Word.least held n)).toNat + (Word.least held n).toNat
        = held.toNat := by
      simp only [Word.toNat_sub, Word.toNat_least]
      omega
    by_cases het : e = t
    · subst het
      rw [if_pos rfl, hheld]
      dsimp only
      split
      next hleft =>
        -- nothing of the type is left, and its entry goes
        rw [hleft, UInt32.toNat_zero] at hsub
        rw [count_erase, if_pos rfl, UInt32.toNat_zero]
        exact hsub
      next hleft =>
        rw [count_insert, if_pos rfl]
        exact hsub
    · have hte : ¬ t = e := fun h => het h.symm
      dsimp only
      rw [if_neg het, Nat.add_zero]
      split
      · rw [count_erase, if_neg hte]
      · rw [count_insert, if_neg hte]

/-! ## Random discards -/

theorem exists_of_unitAt? {us : List (Energy × Word)} {i : Nat} {e : Energy}
    (h : unitAt? i us = some e) : ∃ n, (e, n) ∈ us ∧ 0 < n.toNat := by
  induction us generalizing i with
  | nil => cases h
  | cons u us ih =>
    obtain ⟨e', n⟩ := u
    unfold unitAt? at h
    split at h
    next hi =>
      obtain rfl := Option.some.inj h
      exact ⟨n, List.mem_cons_self, by omega⟩
    next =>
      obtain ⟨m, hm, hpos⟩ := ih h
      exact ⟨m, List.mem_cons_of_mem _ hm, hpos⟩

/-- A unit picked among those of a pool is there to be discarded. -/
theorem count_pos_of_unitAt? {p : EnergyPool} {i : Nat} {e : Energy}
    (h : unitAt? i p.entries = some e) : 0 < (p.count e).toNat := by
  obtain ⟨n, hn, hpos⟩ := exists_of_unitAt? h
  rw [count_of_get? (EnumMap.mem_toList.1 hn)]
  exact hpos

theorem count_discardRandom (p : EnergyPool) (coins : Coins) (n : Nat) (t : Energy) :
    ((p.discardRandom coins n).2.1.count t).toNat + (p.discardRandom coins n).1.count t
      = (p.count t).toNat := by
  -- unit by unit; each is one of those there, so it is really taken
  induction n generalizing p coins with
  | zero => simp [discardRandom]
  | succ n ih =>
    cases he : unitAt? (coins.pick p.size).1 p.entries with
    | none => simp [discardRandom, he]
    | some e =>
      obtain ⟨rest, hrest⟩ : ∃ r, (p.discard e 1).2.discardRandom (coins.pick p.size).2 n = r :=
        ⟨_, rfl⟩
      have hsplit : p.discardRandom coins (n + 1) = (e :: rest.1, rest.2) := by
        simp [discardRandom, he, hrest]
      -- the rest is picked from what the first unit leaves
      have hleft := ih (p.discard e 1).2 (coins.pick p.size).2
      have hunit := count_discard p e t 1
      have hone : (p.discard e 1).1.toNat = 1 := by
        have hpos := count_pos_of_unitAt? he
        rw [discard_fst, UInt32.toNat_one]
        omega
      rw [hrest] at hleft
      rw [hone] at hunit
      rw [hsplit, List.count_cons]
      simp only [beq_iff_eq]
      by_cases het : e = t
      · rw [if_pos het] at hunit ⊢
        omega
      · rw [if_neg het] at hunit ⊢
        omega

/-- The tally of units picked one by one counts each type, where the counts fit. -/
theorem unitsOf_tally {units : List Energy} {t : Energy} (h : units.count t ≤ Word.limit) :
    unitsOf (tally units) t = units.count t := by
  have hmap : tally units
      = (Enumeration.all : List Energy).filterMap fun e =>
          (some (Word.clamp (units.count e))).map fun n => (e, n) := by
    simp [tally]
  rw [hmap, unitsOf_filterMap (f := fun e => some (Word.clamp (units.count e)))
    Enumeration.nodup_all t, if_pos (Enumeration.mem_all t)]
  simp only [Option.getD_some, Word.toNat_clamp]
  omega

/-! ## Discards -/

/-- Whatever a discard says, the units it gives and those it leaves are the units there were. -/
theorem count_discardBy (p : EnergyPool) (coins : Coins) (d : EnergyDiscard) (t : Energy) :
    ((p.discardBy coins d).2.1.count t).toNat + unitsOf (p.discardBy coins d).1 t
      = (p.count t).toNat := by
  unfold discardBy
  split
  next e n _ _ => simpa using count_discard p e t n
  next e _ _ => simpa using count_discard p e t (Word.clamp Word.limit)
  · simp [discardAll, unitsOf_entries]
  next n _ _ =>
    have hrandom := count_discardRandom p coins n.toNat t
    have hfits := Word.toNat_le_limit (p.count t)
    dsimp only
    -- no more units were picked than there were, so the tally counts them all
    rw [unitsOf_tally (by omega)]
    exact hrandom

end EnergyPool

end CardEffects
