/-
  CardEffects.Proofs.Chance.Pick

  Picks by rejection.  A drawn value times the length has a high half, the index it stands for,
  and a low half, which says whether it is accepted.  The values accepted for one index are a
  row of neighbours, and the rows of all indices are equally long: as many values as the length
  has room to be doubled in 64 bits.

    * `Coins.leadingZeros`, `Coins.zone_eq` — how often a length can be doubled, and the largest
      remainder in terms of it.
    * `Coins.pickOf?_eq_some_iff` — the row of values for an index.
    * `Coins.card_pickOf?_bind` — how many values pick what is looked up at an index.
    * `Coins.Settles`, `Coins.pick_of_settles`, `Coins.isSome_draw?_iff` — the value that settles
      a pick, and when there is one.
    * `Coins.uniform` — each index has equally many values, and at least half of all are accepted.
-/
import CardEffects.Coins
import Mathlib.Algebra.Order.Floor.Div
import Mathlib.Data.Nat.Count
import Mathlib.SetTheory.Cardinal.Finite

namespace CardEffects

namespace Coins

/-! ## Lengths -/

/-- The zeros in front of a length that is written with 64 bits; so many times it can be doubled. -/
def leadingZeros (len : Nat) : Nat := 63 - Nat.log2 len

/-- The first value that stands for an index. -/
def firstValue (len i : Nat) : Nat := i * UInt64.size ⌈/⌉ len

theorem firstValue_le_iff {len : Nat} (hlen : 0 < len) {i n : Nat} :
    firstValue len i ≤ n ↔ i * UInt64.size ≤ n * len := by
  rw [firstValue, ceilDiv_le_iff_le_mul hlen, Nat.mul_comm len]

theorem zone_eq (len : Nat) : zone len = len * 2 ^ leadingZeros len - 1 := by
  rw [zone, leadingZeros, Nat.shiftLeft_eq]

section Lengths

variable {len : Nat} (hlen : 0 < len) (hfits : len < UInt64.size)

include hlen hfits

theorem log2_add_leadingZeros : Nat.log2 len + leadingZeros len = 63 := by
  have hlog : Nat.log2 len < 64 := (Nat.log2_lt (by omega)).2 hfits
  unfold leadingZeros
  omega

/-- Doubled as often as it can be, a length has its highest bit set, -/
theorem le_shifted : 2 ^ 63 ≤ len * 2 ^ leadingZeros len := by
  calc 2 ^ 63 = 2 ^ Nat.log2 len * 2 ^ leadingZeros len := by
        rw [← Nat.pow_add, log2_add_leadingZeros hlen hfits]
    _ ≤ len * 2 ^ leadingZeros len := Nat.mul_le_mul_right _ (Nat.log2_self_le (by omega))

/-- and still fits. -/
theorem shifted_lt : len * 2 ^ leadingZeros len < UInt64.size := by
  calc len * 2 ^ leadingZeros len
      < 2 ^ (Nat.log2 len + 1) * 2 ^ leadingZeros len :=
        Nat.mul_lt_mul_of_pos_right Nat.lt_log2_self (Nat.two_pow_pos _)
    _ = 2 ^ (Nat.log2 len + leadingZeros len + 1) := by
        rw [← Nat.pow_add, Nat.add_right_comm]
    _ = UInt64.size := by
        rw [log2_add_leadingZeros hlen hfits]
        rfl

/-- The largest remainder is what words of 64 bits make of it. -/
theorem toNat_zone :
    ((UInt64.ofNat len <<< UInt64.ofNat (leadingZeros len)) - 1).toNat = zone len := by
  have hshifted := shifted_lt hlen hfits
  have hpos := le_shifted hlen hfits
  have hzeros := log2_add_leadingZeros hlen hfits
  have hplaces : (UInt64.ofNat (leadingZeros len)).toNat % 64 = leadingZeros len := by
    have hsmall : leadingZeros len < UInt64.size := by
      have : (63 : Nat) < UInt64.size := by decide
      omega
    rw [UInt64.toNat_ofNat_of_lt' hsmall]
    omega
  have hshift : (UInt64.ofNat len <<< UInt64.ofNat (leadingZeros len)).toNat
      = len * 2 ^ leadingZeros len := by
    rw [UInt64.toNat_shiftLeft, hplaces, UInt64.toNat_ofNat_of_lt' hfits, Nat.shiftLeft_eq]
    exact Nat.mod_eq_of_lt hshifted
  have hone : 1 ≤ UInt64.ofNat len <<< UInt64.ofNat (leadingZeros len) := by
    rw [UInt64.le_iff_toNat_le, hshift, UInt64.toNat_one]
    omega
  rw [UInt64.toNat_sub_of_le _ _ hone, hshift, zone_eq, UInt64.toNat_one]

/-! ## Values -/

/-- A value is accepted for an index when, times the length, it lies less than the shifted
length beyond the index. -/
theorem pickOf?_eq_some_iff_mul {v : UInt64} {i : Nat} :
    pickOf? len v = some i
      ↔ i * UInt64.size ≤ v.toNat * len
        ∧ v.toNat * len < i * UInt64.size + len * 2 ^ leadingZeros len := by
  have hshifted := shifted_lt hlen hfits
  have hpos := le_shifted hlen hfits
  have hscaled := Nat.div_add_mod' (v.toNat * len) UInt64.size
  have hlow : (v.toNat * len) % UInt64.size < UInt64.size := Nat.mod_lt _ (by decide)
  unfold pickOf?
  dsimp only
  rw [zone_eq]
  constructor
  · intro h
    split at h
    next hzone =>
      obtain rfl := Option.some.inj h
      omega
    next => cases h
  · rintro ⟨hfrom, hto⟩
    -- the low half is what goes beyond the index, for less than all 64 bits do
    have hindex : v.toNat * len / UInt64.size = i := by
      rw [Nat.div_eq_iff (by decide)]
      omega
    rw [hindex] at hscaled ⊢
    exact if_pos (by omega)

/-- The values accepted for an index are a row of neighbours. -/
theorem pickOf?_eq_some_iff {v : UInt64} {i : Nat} :
    pickOf? len v = some i
      ↔ firstValue len i ≤ v.toNat ∧ v.toNat < firstValue len i + 2 ^ leadingZeros len := by
  rw [pickOf?_eq_some_iff_mul hlen hfits]
  refine and_congr (firstValue_le_iff hlen).symm ?_
  by_cases hv : v.toNat < 2 ^ leadingZeros len
  · have hmul := Nat.mul_lt_mul_of_pos_right hv hlen
    rw [Nat.mul_comm (2 ^ leadingZeros len)] at hmul
    exact iff_of_true (by omega) (by omega)
  · -- beyond the row are the values that are at or beyond its start when moved back by a row
    have hbefore := firstValue_le_iff hlen (i := i) (n := v.toNat - 2 ^ leadingZeros len)
    have hmul : (v.toNat - 2 ^ leadingZeros len) * len + len * 2 ^ leadingZeros len
        = v.toNat * len := by
      rw [Nat.mul_comm len, ← Nat.add_mul, Nat.sub_add_cancel (by omega)]
    omega

/-- The row of an index lies within the values there are. -/
theorem firstValue_add_le {i : Nat} (hi : i < len) :
    firstValue len i + 2 ^ leadingZeros len ≤ UInt64.size := by
  have hshifted := shifted_lt hlen hfits
  have hrow : 2 ^ leadingZeros len ≤ len * 2 ^ leadingZeros len := Nat.le_mul_of_pos_left _ hlen
  have hfirst : firstValue len i ≤ UInt64.size - 2 ^ leadingZeros len := by
    rw [firstValue_le_iff hlen, Nat.mul_comm _ len, Nat.mul_sub]
    apply Nat.le_sub_of_add_le
    calc i * UInt64.size + len * 2 ^ leadingZeros len
        ≤ i * UInt64.size + UInt64.size := Nat.add_le_add_left (Nat.le_of_lt hshifted) _
      _ = (i + 1) * UInt64.size := (Nat.succ_mul i _).symm
      _ ≤ len * UInt64.size := Nat.mul_le_mul hi (Nat.le_refl _)
  omega

/-- The value at a place of the row of an index. -/
def valueAt (len i k : Nat) : UInt64 := UInt64.ofNat (firstValue len i + k)

theorem toNat_valueAt {i k : Nat} (hi : i < len) (hk : k < 2 ^ leadingZeros len) :
    (valueAt len i k).toNat = firstValue len i + k := by
  have hlast := firstValue_add_le hlen hfits hi
  exact UInt64.toNat_ofNat_of_lt' (by omega)

theorem pickOf?_valueAt {i k : Nat} (hi : i < len) (hk : k < 2 ^ leadingZeros len) :
    pickOf? len (valueAt len i k) = some i := by
  rw [pickOf?_eq_some_iff hlen hfits, toNat_valueAt hlen hfits hi hk]
  omega

/-- The values that pick what is looked up at an index: a row for each index at which it is
found. -/
theorem card_pickOf?_bind {α : Type} [DecidableEq α] (f : Nat → Option α) (a : α) :
    Nat.card {v : UInt64 // (pickOf? len v).bind f = some a}
      = Nat.count (fun i => f i = some a) len * 2 ^ leadingZeros len := by
  let value (p : {i : Nat // i < len ∧ f i = some a} × Fin (2 ^ leadingZeros len)) :
      {v : UInt64 // (pickOf? len v).bind f = some a} :=
    ⟨valueAt len p.1 p.2, by
      rw [pickOf?_valueAt hlen hfits p.1.2.1 p.2.2]
      exact p.1.2.2⟩
  have hvalue : Function.Bijective value := by
    constructor
    · rintro ⟨⟨i, hi, _⟩, k⟩ ⟨⟨j, hj, _⟩, l⟩ hsame
      have hsame : valueAt len i k = valueAt len j l := congrArg Subtype.val hsame
      -- equal values stand for the same index, and are at the same place of its row
      have hindex : i = j := by
        have hpick := pickOf?_valueAt hlen hfits hi k.2
        rw [hsame, pickOf?_valueAt hlen hfits hj l.2] at hpick
        exact (Option.some.inj hpick).symm
      subst hindex
      have hplace := congrArg UInt64.toNat hsame
      rw [toNat_valueAt hlen hfits hi k.2, toNat_valueAt hlen hfits hi l.2] at hplace
      have hkl : k = l := Fin.ext (by omega)
      rw [hkl]
    · rintro ⟨v, hv⟩
      obtain ⟨i, hi, hfound⟩ := Option.bind_eq_some_iff.1 hv
      have hrow := (pickOf?_eq_some_iff hlen hfits).1 hi
      refine ⟨⟨⟨i, pickOf?_lt hlen hi, hfound⟩, ⟨v.toNat - firstValue len i, by omega⟩⟩, ?_⟩
      apply Subtype.ext
      apply UInt64.toNat_inj.1
      show (valueAt len i (v.toNat - firstValue len i)).toNat = v.toNat
      rw [toNat_valueAt hlen hfits (pickOf?_lt hlen hi) (by omega)]
      omega
  have hindices : Nat.card {i : Nat // i < len ∧ f i = some a}
      = Nat.count (fun i => f i = some a) len := by
    let _ := Nat.CountSet.fintype (fun i => f i = some a) len
    rw [Nat.count_eq_card_fintype, Nat.card_eq_fintype_card]
  rw [← Nat.card_eq_of_bijective value hvalue, Nat.card_prod, hindices, Nat.card_fin]

end Lengths

/-- The same for a length of zero too, where nothing is found at an index beyond the length. -/
theorem card_pickOf?_bind_of_lt {len : Nat} (hfits : len < UInt64.size) {α : Type}
    [DecidableEq α] {f : Nat → Option α} (hf : ∀ i a, f i = some a → i < len) (a : α) :
    Nat.card {v : UInt64 // (pickOf? len v).bind f = some a}
      = Nat.count (fun i => f i = some a) len * 2 ^ leadingZeros len := by
  rcases Nat.eq_zero_or_pos len with rfl | hlen
  · have hnone : IsEmpty {v : UInt64 // (pickOf? 0 v).bind f = some a} := by
      refine ⟨fun v => ?_⟩
      obtain ⟨i, -, hi⟩ := Option.bind_eq_some_iff.1 v.2
      exact Nat.not_lt_zero i (hf i a hi)
    rw [Nat.card_of_isEmpty, Nat.count_zero, Nat.zero_mul]
  · exact card_pickOf?_bind hlen hfits f a

/-! ## Draws -/

/-- The value `n` places ahead settles a pick: it is the first one that is accepted. -/
structure Settles (c : Coins) (len n : Nat) : Prop where
  rejected : ∀ k < n, pickOf? len (c.peek k) = none
  accepted : (pickOf? len (c.peek n)).isSome = true

theorem Settles.zero {c : Coins} {len : Nat} (h : (pickOf? len (c.peek 0)).isSome = true) :
    c.Settles len 0 :=
  ⟨fun _ hk => absurd hk (Nat.not_lt_zero _), h⟩

/-- Behind a value that is rejected a pick goes on as from there. -/
theorem settles_succ_iff {c : Coins} {len n : Nat} (h : pickOf? len (c.peek 0) = none) :
    c.Settles len (n + 1) ↔ (c.advance 1).Settles len n := by
  constructor
  · rintro ⟨hrejected, haccepted⟩
    refine ⟨fun k hk => ?_, ?_⟩
    · rw [peek_advance, Nat.add_comm]
      exact hrejected (k + 1) (by omega)
    · rw [peek_advance, Nat.add_comm]
      exact haccepted
  · rintro ⟨hrejected, haccepted⟩
    refine ⟨fun k hk => ?_, ?_⟩
    · cases k with
      | zero => exact h
      | succ k =>
        have hbehind := hrejected k (by omega)
        rwa [peek_advance, Nat.add_comm] at hbehind
    · rwa [peek_advance, Nat.add_comm] at haccepted

/-- The values repeat, so a pick is settled within a period or not at all. -/
theorem Settles.lt_period {c : Coins} {len n : Nat} (h : c.Settles len n) :
    n < Keystream.period := by
  by_contra hlate
  have hsame : c.peek n = c.peek (n - Keystream.period) := by
    have hplace : c.drawn + n = c.drawn + (n - Keystream.period) + Keystream.period := by omega
    rw [peek, hplace, Keystream.value_add_period]
    rfl
  have hperiod : 0 < Keystream.period := by decide
  have hbefore := h.rejected (n - Keystream.period) (by omega)
  have haccepted := h.accepted
  rw [hsame, hbefore] at haccepted
  cases haccepted

theorem drawWithin_of_settles {c : Coins} {len n m : Nat} (h : c.Settles len n) (hm : n < m) :
    drawWithin len m c = (pickOf? len (c.peek n)).map fun i => (i, c.advance (n + 1)) := by
  -- along the values that are rejected
  induction n generalizing c m with
  | zero =>
    obtain ⟨m, rfl⟩ := Nat.exists_eq_succ_of_ne_zero (Nat.ne_of_gt hm)
    obtain ⟨i, hi⟩ := Option.isSome_iff_exists.1 h.accepted
    simp only [drawWithin, hi]
    rfl
  | succ n ih =>
    obtain ⟨m, rfl⟩ := Nat.exists_eq_succ_of_ne_zero (Nat.ne_of_gt (Nat.zero_lt_of_lt hm))
    have hfirst := h.rejected 0 (Nat.succ_pos n)
    simp only [drawWithin, hfirst]
    rw [ih ((settles_succ_iff hfirst).1 h) (by omega), peek_advance, advance_advance,
      Nat.add_comm 1 n, Nat.add_comm 1 (n + 1)]

theorem exists_settles_of_drawWithin {c : Coins} {len m : Nat} {r : Nat × Coins}
    (h : drawWithin len m c = some r) : ∃ n, c.Settles len n := by
  induction m generalizing c with
  | zero => cases h
  | succ m ih =>
    unfold drawWithin at h
    split at h
    next i hi => exact ⟨0, .zero (by rw [hi]; rfl)⟩
    next hnone =>
      obtain ⟨n, hn⟩ := ih h
      exact ⟨n + 1, (settles_succ_iff hnone).2 hn⟩

/-- A pick that is settled takes the values up to the one that settles it, and answers with the
index that this one stands for. -/
theorem pick_of_settles {c : Coins} {len n : Nat} (h : c.Settles len n) :
    pickOf? len (c.peek n) = some (c.pick len).1 ∧ (c.pick len).2 = c.advance (n + 1) := by
  obtain ⟨i, hi⟩ := Option.isSome_iff_exists.1 h.accepted
  have hpick : c.pick len = (i, c.advance (n + 1)) := by
    rw [pick, draw?, drawWithin_of_settles h h.lt_period, hi]
    rfl
  rw [hpick]
  exact ⟨hi, rfl⟩

/-- A pick has an answer exactly when some value settles it. -/
theorem isSome_draw?_iff (c : Coins) (len : Nat) :
    (c.draw? len).isSome = true ↔ ∃ n, c.Settles len n := by
  constructor
  · intro h
    obtain ⟨r, hr⟩ := Option.isSome_iff_exists.1 h
    exact exists_settles_of_drawWithin hr
  · rintro ⟨n, hn⟩
    rw [draw?, drawWithin_of_settles hn hn.lt_period, Option.isSome_map]
    exact hn.accepted

/-! ## Chances -/

/-- How a pick among `len` is shared out among the indices. -/
structure Uniform (len : Nat) : Prop where
  /-- The largest remainder is what words of 64 bits make of it. -/
  zone : ((UInt64.ofNat len <<< UInt64.ofNat (leadingZeros len)) - 1).toNat = zone len
  /-- A value that is accepted stands for an index below the length. -/
  below : ∀ v i, pickOf? len v = some i → i < len
  /-- Each index has equally many values. -/
  each : ∀ i < len, Nat.card {v : UInt64 // pickOf? len v = some i} = 2 ^ leadingZeros len
  /-- At least half of all values are accepted. -/
  half : 2 ^ 64 ≤ 2 * Nat.card {v : UInt64 // (pickOf? len v).isSome = true}
  /-- There is an answer when some value is accepted. -/
  answered : ∀ c : Coins, (c.draw? len).isSome = true ↔ ∃ n, c.Settles len n
  /-- The first value that is accepted makes the pick, and is the last one drawn. -/
  answer : ∀ (c : Coins) (n : Nat), c.Settles len n →
    pickOf? len (c.peek n) = some (c.pick len).1 ∧ (c.pick len).2 = c.advance (n + 1)

theorem uniform {len : Nat} (hlen : 0 < len) (hfits : len < UInt64.size) : Uniform len where
  zone := toNat_zone hlen hfits
  below := fun _ _ => pickOf?_lt hlen
  each := by
    intro i hi
    have hcard := card_pickOf?_bind hlen hfits some i
    have hone : Nat.count (fun j => some j = some i) len = 1 := by
      simp [Nat.count_eq_card_filter_range, Finset.filter_eq', hi]
    rw [hone, Nat.one_mul] at hcard
    simpa only [Option.bind_fun_some] using hcard
  half := by
    have hcard := card_pickOf?_bind hlen hfits (fun _ => some ()) ()
    have hall : Nat.count (fun _ => some () = some ()) len = len := by simp
    have hsome : ∀ v, (pickOf? len v).bind (fun _ => some ()) = some ()
        ↔ (pickOf? len v).isSome = true := by
      intro v
      cases pickOf? len v <;> simp
    rw [hall] at hcard
    simp only [hsome] at hcard
    have hshifted := le_shifted hlen hfits
    omega
  answered := fun c => c.isSome_draw?_iff len
  answer := fun _ _ => pick_of_settles

end Coins

end CardEffects
