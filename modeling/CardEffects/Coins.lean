/-
  CardEffects.Coins

  A source of coin flips and of random picks.  A source is a seed and the number of values
  already drawn from its keystream, so equal sources go on alike and drawing is a matter of
  places: the flip at each place is fixed by the seed.
-/
import CardEffects.Coins.Keystream
import CardEffects.Word

namespace CardEffects

/-- A source of coin flips: a seed, and how many values have been drawn. -/
structure Coins where
  seed : UInt64
  drawn : Nat
  deriving DecidableEq, Repr

namespace Coins

/-- A fresh source. -/
def ofSeed (seed : UInt64) : Coins := ⟨seed, 0⟩

/-- The value `n` places ahead. -/
def peek (c : Coins) (n : Nat) : UInt64 := Keystream.value c.seed (c.drawn + n)

/-- The source after `n` more values. -/
def advance (c : Coins) (n : Nat) : Coins := { c with drawn := c.drawn + n }

@[simp] theorem seed_advance (c : Coins) (n : Nat) : (c.advance n).seed = c.seed := rfl

@[simp] theorem advance_zero (c : Coins) : c.advance 0 = c := rfl

@[simp] theorem advance_advance (c : Coins) (m n : Nat) :
    (c.advance m).advance n = c.advance (m + n) := by
  simp [advance, Nat.add_assoc]

@[simp] theorem peek_advance (c : Coins) (m n : Nat) : (c.advance m).peek n = c.peek (m + n) := by
  simp [advance, peek, Nat.add_assoc]

/-! ## Flipping -/

/-- The coin `n` places ahead; `true` is heads.  A coin is heads when its value lies in the
lower half. -/
def face (c : Coins) (n : Nat) : Bool := decide (c.peek n < 0x8000000000000000)

@[simp] theorem face_advance (c : Coins) (m n : Nat) : (c.advance m).face n = c.face (m + n) := by
  simp [face]

/-- Flips one coin. -/
def flip (c : Coins) : Bool × Coins := (c.face 0, c.advance 1)

/-- Flips `n` coins. -/
def flips (c : Coins) (n : Nat) : List Bool × Coins :=
  ((List.range n).map c.face, c.advance n)

/-- Flips on until the first tails, and for no more than `left` coins.  The coins `made` before
come first, and the heads are counted on from `heads`. -/
def flipOn : Nat → Array Bool → Word → Coins → (List Bool × Word) × Coins
  | 0, made, heads, c => ((made.toList, heads), c)
  | left + 1, made, heads, c =>
    match c.flip with
    | (false, c') => (((made.push false).toList, heads), c')
    | (true, c') => flipOn left (made.push true) (heads + 1) c'

/-- Flips coins until the first tails, and no more than `cap` of them, and counts the heads. -/
def tossUntilTails (c : Coins) (cap : Nat) : (List Bool × Word) × Coins := flipOn cap #[] 0 c

/-- Flips coins until the first tails, and no more than `cap` of them. -/
def flipsUntilTails (c : Coins) (cap : Nat) : List Bool × Coins :=
  let ((flips, _), c') := c.tossUntilTails cap
  (flips, c')

/-- How many of the flips are heads. -/
def heads (flips : List Bool) : Nat := flips.count true

/-- How many of the flips are heads, in 32 bits. -/
def headsCount (flips : List Bool) : Word := Word.truncate (heads flips)

/-! ## Picking -/

/-- The largest remainder with which a drawn value is accepted for a pick among `len`. -/
def zone (len : Nat) : Nat := len <<< (63 - Nat.log2 len) - 1

/-- The index that a drawn value stands for, when it is accepted: the value scaled to `len`
places.  The remainder decides, so that each index has equally many values. -/
def pickOf? (len : Nat) (v : UInt64) : Option Nat :=
  let scaled := v.toNat * len
  if scaled % UInt64.size ≤ zone len then some (scaled / UInt64.size) else none

/-- Draws until a value is accepted, no more than `n` of them. -/
def drawWithin (len : Nat) : Nat → Coins → Option (Nat × Coins)
  | 0, _ => none
  | n + 1, c =>
    match pickOf? len (c.peek 0) with
    | some i => some (i, c.advance 1)
    | none => drawWithin len n (c.advance 1)

/-- Draws until a value is accepted.  The values repeat, so when none is in a whole period there
never is one, and no result. -/
def draw? (c : Coins) (len : Nat) : Option (Nat × Coins) := drawWithin len Keystream.period c

/-- A uniform index below `len`, which has 64 bits and is not zero.  Even a pick among one
draws a value.  At least half of all values are accepted; should a source go on without one for
ever, the first index stands in for the pick. -/
def pick (c : Coins) (len : Nat) : Nat × Coins := (c.draw? len).getD (0, c)

theorem pickOf?_lt {len i : Nat} {v : UInt64} (hlen : 0 < len) (h : pickOf? len v = some i) :
    i < len := by
  unfold pickOf? at h
  dsimp only at h
  split at h
  · obtain rfl := Option.some.inj h
    have := v.toNat_lt_size
    rw [Nat.div_lt_iff_lt_mul (by decide), Nat.mul_comm len]
    exact Nat.mul_lt_mul_of_pos_right this hlen
  · simp at h

theorem lt_of_drawWithin {len : Nat} (hlen : 0 < len) {n : Nat} {c : Coins} {r : Nat × Coins}
    (h : drawWithin len n c = some r) : r.1 < len := by
  -- along the values drawn
  induction n generalizing c with
  | zero => cases h
  | succ n ih =>
    unfold drawWithin at h
    split at h
    next i hi =>
      obtain rfl := Option.some.inj h
      exact pickOf?_lt hlen hi
    next => exact ih h

/-- A pick among some is one of them. -/
theorem pick_lt (c : Coins) {len : Nat} (hlen : 0 < len) : (c.pick len).1 < len := by
  unfold pick
  cases h : c.draw? len with
  | none => exact hlen
  | some r => exact lt_of_drawWithin hlen h

/-- Why nothing can be picked. -/
inductive PickError where
  /-- There is nothing to pick from. -/
  | emptyRange
  deriving DecidableEq, Repr

/-- The message for a pick that cannot be made. -/
def PickError.message : PickError → String
  | emptyRange => "cannot sample empty range"

/-- A uniform index below `len`, when there is one. -/
def pick? (c : Coins) (len : Nat) : Except PickError (Nat × Coins) :=
  if len = 0 then .error .emptyRange else .ok (c.pick len)

end Coins

end CardEffects
