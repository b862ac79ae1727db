/-
  CardEffects.Proofs.Chance.Discard

  What a discard takes, and what it reports.  Of one type it takes as many units as it says, or
  all there are; of no type in particular it takes all, or as many as it says, unit by unit at
  random.  The report is the difference between the pool before and the pool after.

    * `EnergyPool.Leaves`, `EnergyPool.leaves_discardBy` — the pool that a discard leaves.
    * `EnergyPool.lost`, `EnergyPool.filter_discardBy` — the report is what the pool has lost.
    * `Board.Discards`, `Board.discards_discard` — a discard on the board.
    * `Board.discards_exactly` — by itself and after a flip of coins, a discard takes exactly
      what it says.
-/
import CardEffects.Proofs.Chance.Units
import CardEffects.Proofs.FlipCounts

namespace CardEffects

namespace EnergyPool

/-! ## Pools -/

/-- What a discard leaves of a pool, and of the coins. -/
inductive Leaves (p : EnergyPool) (coins : Coins) :
    Option Energy → DiscardCount → EnergyPool → Coins → Prop where
  /-- Of one type so many units are taken, or as many as there are. -/
  | count {e : Energy} {n : Word} {q : EnergyPool}
      (taken : (q.count e).toNat + min n.toNat (p.count e).toNat = (p.count e).toNat)
      (others : ∀ t, t ≠ e → q.count t = p.count t) : Leaves p coins (some e) (.count n) q coins
  /-- Of one type everything is taken. -/
  | every {e : Energy} {q : EnergyPool} (taken : q.count e = 0)
      (others : ∀ t, t ≠ e → q.count t = p.count t) : Leaves p coins (some e) .all q coins
  /-- Everything is taken. -/
  | everything : Leaves p coins none .all empty coins
  /-- So many units are taken one by one, or as many as there are, each picked among those
  left. -/
  | random {n : Word} {units : List Energy} {q : EnergyPool} {left : Coins}
      (drawn : p.Drawn coins ((List.range (min n.toNat p.size)).map fun k => p.size - k)
        units q left)
      (size : q.size + min n.toNat p.size = p.size) : Leaves p coins none (.count n) q left

theorem count_discard_of_ne (p : EnergyPool) {e t : Energy} (h : t ≠ e) (n : Word) :
    (p.discard e n).2.count t = p.count t := by
  have hcount := count_discard p e t n
  rw [if_neg h.symm, Nat.add_zero] at hcount
  exact Word.ext hcount

theorem leaves_discardBy (p : EnergyPool) (coins : Coins) (d : EnergyDiscard) :
    p.Leaves coins d.energy d.count (p.discardBy coins d).2.1 (p.discardBy coins d).2.2 := by
  obtain ⟨energy, count, source⟩ := d
  cases energy with
  | some e =>
    cases count with
    | count n =>
      refine .count ?_ fun t ht => p.count_discard_of_ne ht n
      have hcount := count_discard p e e n
      rw [if_pos rfl, discard_fst, Nat.min_comm] at hcount
      exact hcount
    | all =>
      refine .every ?_ fun t ht => p.count_discard_of_ne ht _
      have hcount := count_discard p e e (Word.clamp Word.limit)
      have hfits := Word.toNat_le_limit (p.count e)
      rw [if_pos rfl, discard_fst, Word.toNat_clamp] at hcount
      apply Word.ext
      show ((p.discard e (Word.clamp Word.limit)).2.count e).toNat = 0
      omega
  | none =>
    cases count with
    | all => exact .everything
    | count n =>
      have hdrawn := p.drawn_discardRandom coins n.toNat
      have hsize := hdrawn.size_add
      rw [List.length_map, List.length_range] at hsize
      exact .random hdrawn hsize

/-! ## Reports -/

/-- What is missing of each type from a pool that was another before, in the order of the types;
types of which nothing is missing are left out. -/
def lost (p q : EnergyPool) : List (Energy × Word) :=
  (Enumeration.all.map fun e => (e, Word.sub (p.count e) (q.count e))).filter fun u => u.2 ≠ 0

/-- One type with its units, among all types without any. -/
theorem filter_single (e : Energy) (n : Word) :
    ([(e, n)] : List (Energy × Word)).filter (fun u => u.2 ≠ 0)
      = ((Enumeration.all : List Energy).map fun t => (t, if t = e then n else 0)).filter
          fun u => u.2 ≠ 0 := by
  cases e <;> rfl

theorem lost_of_single {p q : EnergyPool} {e : Energy} {n : Word}
    (hunits : (q.count e).toNat + n.toNat = (p.count e).toNat)
    (hothers : ∀ t, t ≠ e → q.count t = p.count t) :
    p.lost q = [(e, n)].filter fun u => u.2 ≠ 0 := by
  rw [filter_single, lost]
  congr 1
  refine List.map_congr_left fun t _ => ?_
  rw [Prod.mk.injEq]
  refine ⟨rfl, Word.ext ?_⟩
  rw [Word.toNat_sub]
  by_cases ht : t = e
  · subst ht
    rw [if_pos rfl]
    omega
  · rw [if_neg ht, hothers t ht, Nat.sub_self, UInt32.toNat_zero]

theorem lost_empty (p : EnergyPool) : p.lost empty = p.entries.filter fun u => u.2 ≠ 0 := by
  have hentry : ∀ e, Option.filter (fun u => u.2 ≠ 0) (some (e, Word.sub (p.count e) 0))
      = ((p.units.get? e).map fun n => (e, n)).filter fun u => u.2 ≠ 0 := by
    intro e
    have hsub : Word.sub (p.count e) 0 = p.count e := Word.clamp_toNat _
    rw [hsub]
    cases he : p.units.get? e with
    | none =>
      rw [count_of_get?_none he]
      rfl
    | some n =>
      rw [count_of_get? he]
      rfl
  unfold lost entries EnumMap.toList
  rw [← List.filterMap_eq_map, List.filter_filterMap, List.filter_filterMap]
  refine List.filterMap_congr fun e _ => ?_
  rw [Function.comp_apply, count_empty]
  exact hentry e

/-- What is counted of the units discarded is what the pool has lost. -/
theorem tally_of_count_add {p q : EnergyPool} {units : List Energy}
    (h : ∀ t, (q.count t).toNat + units.count t = (p.count t).toNat) :
    (tally units).filter (fun u => u.2 ≠ 0) = p.lost q := by
  unfold tally lost
  congr 1
  refine List.map_congr_left fun t _ => ?_
  rw [Prod.mk.injEq]
  refine ⟨rfl, Word.ext ?_⟩
  have hcount := h t
  have hfits := Word.toNat_le_limit (p.count t)
  rw [Word.toNat_clamp, Word.toNat_sub]
  omega

/-- What a discard reports is what the pool has lost. -/
theorem filter_discardBy (p : EnergyPool) (coins : Coins) (d : EnergyDiscard) :
    (p.discardBy coins d).1.filter (fun u => u.2 ≠ 0) = p.lost (p.discardBy coins d).2.1 := by
  have hone : ∀ e n, [(e, (p.discard e n).1)].filter (fun u => u.2 ≠ 0)
      = p.lost (p.discard e n).2 := by
    intro e n
    have hcount := count_discard p e e n
    rw [if_pos rfl] at hcount
    exact (lost_of_single hcount fun t ht => p.count_discard_of_ne ht n).symm
  obtain ⟨energy, count, source⟩ := d
  cases energy with
  | some e =>
    cases count with
    | count n => exact hone e n
    | all => exact hone e _
  | none =>
    cases count with
    | all => exact p.lost_empty.symm
    | count n => exact tally_of_count_add (p.drawn_discardRandom coins n.toNat).count_add

/-- A random discard takes nothing when it says so, or when there is nothing. -/
theorem lost_discardRandom_eq_nil_iff (p : EnergyPool) (coins : Coins) (n : Nat) :
    p.lost (p.discardRandom coins n).2.1 = [] ↔ min n p.size = 0 := by
  have hdrawn := p.drawn_discardRandom coins n
  have hlength := hdrawn.length_eq
  rw [List.length_map, List.length_range] at hlength
  rw [← tally_of_count_add hdrawn.count_add, ← hlength, List.length_eq_zero_iff]
  constructor
  · exact nil_of_tally
  · intro hnone
    rw [hnone]
    rfl

end EnergyPool

/-! ## Boards -/

/-- What a discard comes to on a board, for the Pokémon it is aimed at: the energy `q` and the
coins left, and the report. -/
structure Board.Discards (b : Board) (d : EnergyDiscard) (m : Combatant) (q : EnergyPool)
    (left : Coins) (out : Outcome × Board) : Prop where
  /-- As many units are taken as the discard says. -/
  leaves : m.energy.Leaves b.coins d.energy d.count q left
  /-- Nothing but the energy of that Pokémon and the coins is touched. -/
  board : out.2 = { b.put d.source { m with energy := q } with coins := left }
  /-- No type loses more than there was of it. -/
  within : ∀ e, (q.count e).toNat ≤ (m.energy.count e).toNat
  /-- The report is the difference, type by type in their order. -/
  changes : out.1.energyChanges
    = (m.energy.lost q).map fun u => ⟨.loss, u.1, u.2, d.source.participant, true⟩
  /-- Nothing is done when nothing is missing. -/
  status : out.1.status = if m.energy.lost q = [] then .noEffect else .applied
  /-- Of a random discard, that is when it says none or there is none. -/
  idle : ∀ n, d.energy = none → d.count = .count n →
    (out.1.status = .noEffect ↔ min n.toNat m.energy.size = 0)

namespace Application

theorem discards_discard (b : Board) (kind : EffectKind) {d : EnergyDiscard} {m : Combatant}
    (hm : b.active? d.source = some m) :
    b.Discards d m (m.energy.discardBy b.coins d).2.1 (m.energy.discardBy b.coins d).2.2
      (discard b kind d) := by
  have hlost := m.energy.filter_discardBy b.coins d
  have hwithin : ∀ e, ((m.energy.discardBy b.coins d).2.1.count e).toNat
      ≤ (m.energy.count e).toNat := by
    intro e
    have hcount := m.energy.count_discardBy b.coins d e
    omega
  have hstatus : (discard b kind d).1.status
      = if m.energy.lost (m.energy.discardBy b.coins d).2.1 = [] then .noEffect else .applied := by
    rw [← hlost]
    unfold discard
    rw [hm]
    dsimp only
    split
    · rfl
    · rfl
  refine ⟨m.energy.leaves_discardBy b.coins d, ?_, hwithin, ?_, hstatus, ?_⟩
  · unfold discard
    rw [hm]
    dsimp only
    split
    · rfl
    · rfl
  · rw [← hlost]
    unfold discard
    rw [hm]
    dsimp only
    split
    next hnone =>
      rw [hnone]
      rfl
    · rfl
  · intro n henergy hcount
    have hidle := m.energy.lost_discardRandom_eq_nil_iff b.coins n.toNat
    obtain ⟨energy, count, source⟩ := d
    dsimp only at henergy hcount
    subst henergy hcount
    rw [← hidle, hstatus]
    show (if m.energy.lost (m.energy.discardRandom b.coins n.toNat).2.1 = [] then
      EffectStatus.noEffect else .applied) = .noEffect ↔ _
    split
    next h => exact iff_of_true rfl h
    next h => exact iff_of_false nofun h

/-- Behind coins that all show the wanted face, a discard is carried out with the coins left. -/
theorem discards_coinFlipConditional (s : Setting) (b : Board) {coins : Word} {wanted : CoinFace}
    {d : EnergyDiscard} {m : Combatant} {q : EnergyPool} {left : Coins}
    (hshown : ∀ heads ∈ (b.coins.flips (max coins.toNat 1)).1, heads = true ↔ wanted = .heads)
    (h : Board.Discards { b with coins := (b.coins.flips (max coins.toNat 1)).2 } d m q left
      (discard { b with coins := (b.coins.flips (max coins.toNat 1)).2 } .coinFlipConditional d)) :
    Board.Discards { b with coins := (b.coins.flips (max coins.toNat 1)).2 } d m q left
      (coinFlipConditional s b coins wanted (.discard d)) := by
  have hall := (allShow_iff wanted _).2 hshown
  unfold coinFlipConditional
  simp only [hall, if_true]
  exact ⟨h.leaves, h.board, h.within, h.changes, h.status, h.idle⟩

end Application

/-- **Discards take exactly what they say.**  Whatever is attached and whatever the coins: of one
type as many units as are said or as there are, of no type in particular everything, or as many
units as are said or as there are, one by one and each by a pick among those left.  The report is
the difference.  The same holds behind a flip of coins that all show the wanted face. -/
theorem Board.discards_exactly (s : Setting) (b : Board) (d : EnergyDiscard) {m : Combatant}
    (hm : b.active? d.source = some m) :
    (∃ q left, b.Discards d m q left ((Effect.energyDiscard d).apply s b))
      ∧ ∀ coins wanted,
          (∀ heads ∈ (b.coins.flips (max coins.toNat 1)).1, heads = true ↔ wanted = .heads) →
          ∃ q left, Board.Discards { b with coins := (b.coins.flips (max coins.toNat 1)).2 } d m
            q left ((Effect.coinFlipConditional coins wanted (.discard d)).apply s b) := by
  refine ⟨⟨_, _, Application.discards_discard b .energyDiscard hm⟩, fun coins wanted hshown => ?_⟩
  have hflipped : Board.active? { b with coins := (b.coins.flips (max coins.toNat 1)).2 } d.source
      = some m := by
    rw [← hm]
    cases d.source <;> rfl
  exact ⟨_, _, Application.discards_coinFlipConditional s b hshown
    (Application.discards_discard _ .coinFlipConditional hflipped)⟩

/-! ### Five units of two -/

/-- A board where the acting Pokémon has two units of energy, and one type counted without any. -/
def duskBoard : Board where
  attacker := { Combatant.new "Umbreon" .darkness 100 with
    energy := ⟨(∅ : EnumMap Energy Word).insert .darkness 1 |>.insert .fire 0 |>.insert .grass 1⟩ }
  defender := none
  coins := .ofSeed 2

/-- A discard of five units at random. -/
def duskDiscard : EnergyDiscard := ⟨none, .count 5, .own⟩

/-- Five of two units are two; so it is by itself, and behind a flip of one coin. -/
theorem duskBoard_discards :
    (∃ q left, duskBoard.Discards duskDiscard duskBoard.attacker q left
        ((Effect.energyDiscard duskDiscard).apply { config := .standard, turn := 1 } duskBoard)
      ∧ q.size = 0)
      ∧ ∃ q left, Board.Discards { duskBoard with coins := duskBoard.coins.advance 1 } duskDiscard
          duskBoard.attacker q left
          ((Effect.coinFlipConditional 1 .heads (.discard duskDiscard)).apply
            { config := .standard, turn := 1 } duskBoard) := by
  obtain ⟨⟨q, left, hplain⟩, hflip⟩ := Board.discards_exactly { config := .standard, turn := 1 }
    duskBoard duskDiscard (m := duskBoard.attacker) rfl
  have hsize : duskBoard.attacker.energy.size = 2 := by decide
  refine ⟨⟨q, left, hplain, ?_⟩, ?_⟩
  · have hleaves := hplain.leaves
    generalize duskBoard.attacker.energy = p at hleaves hsize
    cases hleaves with
    | random _ size =>
      rw [hsize] at size
      have hfive : (5 : Word).toNat = 5 := by decide
      omega
  · have hheads : (duskBoard.coins.flips (max (1 : Word).toNat 1)).1 = [true] := by
      decide +kernel
    refine hflip 1 .heads fun heads hmem => ?_
    rw [hheads, List.mem_singleton] at hmem
    exact iff_of_true hmem rfl

end CardEffects
