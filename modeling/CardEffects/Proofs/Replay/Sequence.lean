/-
  CardEffects.Proofs.Replay.Sequence

  The one sequence of flips behind a source of coins.  All ways to flip read on in it, and take one
  value for each coin they show: so flips made in parts are one long flip, and flips up to the first
  tails begin what as many flips as are allowed would be.

  The loop that stops at tails is opened once, in `Coins.flipOn_eq`: behind the coins it has made
  stands `upToTails` of the flips that are left to it.  All else is about lists of flips.

    * `Coins.flips_add`, `Coins.flips_of_isPrefix` — flips in parts, and their beginnings.
    * `upToTails` — the beginning of a list up to the first tails, and `upToTails_cases`.
    * `Coins.tossUntilTails_eq` — that is what flipping until tails gives.
    * `Coins.one_sequence` — flips as views of one sequence.
-/
import CardEffects.Coins
import Mathlib.Data.List.Infix

namespace CardEffects

/-! ## Flips in parts -/

namespace Coins

@[simp] theorem length_flips (c : Coins) (n : Nat) : (c.flips n).1.length = n := by
  simp [flips]

theorem flips_add (c : Coins) (m n : Nat) :
    c.flips (m + n)
      = ((c.flips m).1 ++ ((c.flips m).2.flips n).1, ((c.flips m).2.flips n).2) := by
  have hfaces : (List.range n).map (c.advance m).face
      = ((List.range n).map (m + ·)).map c.face := by
    rw [List.map_map]
    exact List.map_congr_left fun i _ => face_advance c m i
  simp only [flips, advance_advance, List.range_add, List.map_append, hfaces]

/-- Flips are flips of one coin after the other. -/
theorem flips_succ (c : Coins) (n : Nat) :
    c.flips (n + 1) = (c.flip.1 :: (c.flip.2.flips n).1, (c.flip.2.flips n).2) := by
  rw [Nat.add_comm, flips_add]
  rfl

/-- A beginning of some flips is what flipping fewer coins gives. -/
theorem flips_of_isPrefix {c : Coins} {n : Nat} {l : List Bool} (h : l <+: (c.flips n).1) :
    c.flips l.length = (l, c.advance l.length) := by
  have hle : l.length ≤ n := by
    rw [← c.length_flips n]
    exact h.length_le
  have htake : (c.flips n).1.take l.length = (c.flips l.length).1 := by
    rw [flips, ← List.map_take, List.take_range, Nat.min_eq_left hle]
    rfl
  have hfirst : (c.flips l.length).1 = l := by
    rw [← htake]
    exact (List.prefix_iff_eq_take.1 h).symm
  exact Prod.ext hfirst rfl

end Coins

/-! ## Up to the first tails -/

/-- No coin before the last one is tails. -/
def TailsOnlyLast (l : List Bool) : Prop := false ∉ l.dropLast

/-- The flips up to the first tails, with it; all of them when there is none. -/
def upToTails : List Bool → List Bool
  | [] => []
  | false :: _ => [false]
  | true :: l => true :: upToTails l

/-- Either there is a first tails, behind heads, or all flips are heads. -/
theorem upToTails_cases (l : List Bool) :
    (∃ h rest, l = List.replicate h true ++ false :: rest
        ∧ upToTails l = List.replicate h true ++ [false])
      ∨ (l = List.replicate l.length true ∧ upToTails l = l) := by
  induction l with
  | nil => exact .inr ⟨rfl, rfl⟩
  | cons face l ih =>
    cases face with
    | false => exact .inl ⟨0, l, rfl, rfl⟩
    | true =>
      -- one more heads in front of the rest
      rcases ih with ⟨h, rest, hl, htails⟩ | ⟨hl, hall⟩
      · exact .inl ⟨h + 1, rest, congrArg (true :: ·) hl, congrArg (true :: ·) htails⟩
      · exact .inr ⟨congrArg (true :: ·) hl, congrArg (true :: ·) hall⟩

theorem prefix_upToTails (l : List Bool) : upToTails l <+: l := by
  rcases upToTails_cases l with ⟨h, rest, hl, htails⟩ | ⟨-, hall⟩
  · rw [htails, hl, List.append_cons (List.replicate h true) false rest]
    exact List.prefix_append _ rest
  · rw [hall]

theorem tailsOnlyLast_upToTails (l : List Bool) : TailsOnlyLast (upToTails l) := by
  unfold TailsOnlyLast
  rcases upToTails_cases l with ⟨h, rest, -, htails⟩ | ⟨hl, hall⟩
  · rw [htails, List.dropLast_concat]
    exact fun hmem => Bool.noConfusion (List.eq_of_mem_replicate hmem)
  · rw [hall]
    intro hmem
    have hfalse := List.mem_of_mem_dropLast hmem
    rw [hl] at hfalse
    exact Bool.noConfusion (List.eq_of_mem_replicate hfalse)

/-- A longer beginning has a tails before its last coin. -/
theorem length_le_upToTails {l p : List Bool} (hp : p <+: l) (h : TailsOnlyLast p) :
    p.length ≤ (upToTails l).length := by
  rcases upToTails_cases l with ⟨n, rest, -, htails⟩ | ⟨-, hall⟩
  · by_contra hlonger
    -- the first tails is part of the longer beginning, and more coins follow
    obtain ⟨more, rfl⟩ := List.prefix_of_prefix_length_le (prefix_upToTails l) hp (by omega)
    have hmore : more ≠ [] := by
      rintro rfl
      exact hlonger (by rw [List.append_nil])
    refine h ?_
    rw [List.dropLast_append_of_ne_nil hmore, htails]
    exact List.mem_append_left _ (List.mem_append_right _ List.mem_cons_self)
  · rw [hall]
    exact hp.length_le

/-- The first of all flips is never left out. -/
theorem min_le_length_upToTails (l : List Bool) : min l.length 1 ≤ (upToTails l).length := by
  cases l with
  | nil => exact Nat.zero_le _
  | cons face l => cases face <;> simp [upToTails]

theorem mem_upToTails_iff (l : List Bool) : false ∈ upToTails l ↔ false ∈ l := by
  rcases upToTails_cases l with ⟨h, rest, hl, htails⟩ | ⟨-, hall⟩
  · rw [htails, hl]
    simp
  · rw [hall]

/-- Without tails at the end, none is left out, and all are heads. -/
theorem upToTails_of_getLast? {l : List Bool} (h : (upToTails l).getLast? ≠ some false) :
    upToTails l = List.replicate l.length true := by
  rcases upToTails_cases l with ⟨n, rest, -, htails⟩ | ⟨hl, hall⟩
  · rw [htails, List.getLast?_concat] at h
    exact absurd rfl h
  · rw [hall]
    exact hl

/-! ## The loop -/

namespace Coins

@[simp] theorem headsCount_nil : headsCount [] = 0 := rfl

@[simp] theorem headsCount_cons_false (l : List Bool) :
    headsCount (false :: l) = headsCount l := by
  simp [headsCount, heads]

@[simp] theorem headsCount_cons_true (l : List Bool) :
    headsCount (true :: l) = 1 + headsCount l := by
  simp [headsCount, heads, Word.truncate, UInt32.ofNat_add, UInt32.add_comm]

/-- Behind the coins that were made, the loop makes those up to the first tails among the coins
that are left to it. -/
theorem flipOn_eq (left : Nat) (made : Array Bool) (heads : Word) (c : Coins) :
    flipOn left made heads c
      = ((made.toList ++ upToTails (c.flips left).1,
            heads + headsCount (upToTails (c.flips left).1)),
          c.advance (upToTails (c.flips left).1).length) := by
  -- along the coins that are left; each heads goes over to those made
  induction left generalizing made heads c with
  | zero => simp [flipOn, flips, upToTails]
  | succ left ih =>
    rw [flips_succ]
    unfold flipOn flip
    cases c.face 0 with
    | false => simp [upToTails]
    | true => simp [ih, upToTails, UInt32.add_assoc, Nat.add_comm]

/-- Flipping until tails gives the flips up to the first tails, counted. -/
theorem tossUntilTails_eq (c : Coins) (cap : Nat) :
    c.tossUntilTails cap
      = ((upToTails (c.flips cap).1, headsCount (upToTails (c.flips cap).1)),
          c.advance (upToTails (c.flips cap).1).length) := by
  rw [tossUntilTails, flipOn_eq, UInt32.zero_add]
  rfl

theorem flipsUntilTails_eq (c : Coins) (cap : Nat) :
    c.flipsUntilTails cap
      = (upToTails (c.flips cap).1, c.advance (upToTails (c.flips cap).1).length) := by
  rw [flipsUntilTails, tossUntilTails_eq]

/-- Heads are counted exactly, as far as a word can count the flips. -/
theorem toNat_headsCount {flips : List Bool} (h : flips.length ≤ Word.limit) :
    (headsCount flips).toNat = flips.count true :=
  Word.toNat_truncate_of_le (Nat.le_trans List.count_le_length h)

/-! ## Views of one sequence -/

/-- Some flips stop at tails, with `cap` of them at most: what there is to say of them, of the
heads counted among them, and of the source that is left. -/
structure StopsAtTails (c : Coins) (cap : Word) (flips : List Bool) (heads : Word)
    (left : Coins) : Prop where
  /-- They are the longest beginning, of what flipping `cap` coins gives, that has no tails before
  its last coin. -/
  begins : flips <+: (c.flips cap.toNat).1
  tailsOnlyLast : TailsOnlyLast flips
  longest : ∀ l, l <+: (c.flips cap.toNat).1 → TailsOnlyLast l → l.length ≤ flips.length
  /-- They are one at least, unless none is allowed, and no more than are allowed. -/
  least : min cap.toNat 1 ≤ flips.length
  most : flips.length ≤ cap.toNat
  /-- All of them are heads, unless the last is tails. -/
  allHeads : flips.getLast? ≠ some false → ∀ face ∈ flips, face = true
  /-- Without tails, they are as many heads as are allowed; and they are without tails exactly if
  flipping `cap` coins gives none. -/
  full : false ∉ flips → flips = List.replicate cap.toNat true
  tails_iff : false ∈ flips ↔ false ∈ (c.flips cap.toNat).1
  /-- The heads reported are those counted among them, and no word is too small for that. -/
  reported : heads = headsCount flips
  counted : heads.toNat = flips.count true
  /-- Flipping as many coins gives them too, and leaves the same source. -/
  taken : c.flips flips.length = (flips, left)

theorem stopsAtTails_tossUntilTails (c : Coins) (cap : Word) :
    c.StopsAtTails cap (c.tossUntilTails cap.toNat).1.1 (c.tossUntilTails cap.toNat).1.2
      (c.tossUntilTails cap.toNat).2 := by
  rw [tossUntilTails_eq]
  have hbegins := prefix_upToTails (c.flips cap.toNat).1
  have hlength := c.length_flips cap.toNat
  have hleast := min_le_length_upToTails (c.flips cap.toNat).1
  have hmost := hbegins.length_le
  rw [hlength] at hleast hmost
  exact {
    begins := hbegins
    tailsOnlyLast := tailsOnlyLast_upToTails _
    longest := fun _ => length_le_upToTails
    least := hleast
    most := hmost
    allHeads := by
      intro hlast face hface
      rw [upToTails_of_getLast? hlast] at hface
      exact List.eq_of_mem_replicate hface
    full := by
      intro hnone
      have hlast : (upToTails (c.flips cap.toNat).1).getLast? ≠ some false :=
        fun htails => hnone (List.mem_of_getLast? htails)
      rw [upToTails_of_getLast? hlast, hlength]
    tails_iff := mem_upToTails_iff _
    reported := rfl
    counted := toNat_headsCount (hmost.trans (Word.toNat_le_limit cap))
    taken := flips_of_isPrefix hbegins }

/-- **One sequence.**  Flips are flips of one coin after the other, from whatever source: so flips
made in parts are one long flip, and leave the source as that does.  Flips until tails are the
longest beginning of the flips allowed in which no tails comes before the last coin; their heads
are counted, and they leave the source as flipping as many coins does. -/
theorem one_sequence (c : Coins) :
    c.flips 0 = ([], c)
      ∧ (∀ n, c.flips (n + 1) = (c.flip.1 :: (c.flip.2.flips n).1, (c.flip.2.flips n).2))
      ∧ (∀ m n, c.flips (m + n)
          = ((c.flips m).1 ++ ((c.flips m).2.flips n).1, ((c.flips m).2.flips n).2))
      ∧ ∀ cap : Word, c.StopsAtTails cap (c.tossUntilTails cap.toNat).1.1
          (c.tossUntilTails cap.toNat).1.2 (c.tossUntilTails cap.toNat).2 :=
  ⟨rfl, c.flips_succ, c.flips_add, c.stopsAtTails_tossUntilTails⟩

end Coins

end CardEffects
