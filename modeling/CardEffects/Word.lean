/-
  CardEffects.Word

  Counts, hit points and damage amounts are 32-bit words.  They are added, subtracted and
  multiplied with saturation: a result that does not fit stays at the nearest bound.  What is
  summed up or counted over a list wraps around instead.  Each operation is described by its
  value as a natural number.
-/

namespace CardEffects

/-- A 32-bit count. -/
abbrev Word := UInt32

namespace Word

/-- The largest count, `2 ^ 32 - 1`. -/
def limit : Nat := 4294967295

/-- The count nearest to `n`: `n` itself, or the largest count when `n` does not fit. -/
def clamp (n : Nat) : Word := UInt32.ofNat (min n limit)

/-- The lowest 32 bits of `n`: `n` itself when it fits. -/
def truncate (n : Nat) : Word := UInt32.ofNat n

/-- The count equal to `n`, if there is one. -/
def ofNat? (n : Nat) : Option Word := if n ≤ limit then some (UInt32.ofNat n) else none

/-- Addition that stays at the largest count. -/
def add (a b : Word) : Word := clamp (a.toNat + b.toNat)

/-- Subtraction that stays at zero. -/
def sub (a b : Word) : Word := clamp (a.toNat - b.toNat)

/-- Multiplication that stays at the largest count. -/
def mul (a b : Word) : Word := clamp (a.toNat * b.toNat)

/-- The smaller of two counts. -/
def least (a b : Word) : Word := clamp (min a.toNat b.toNat)

/-- The sum of some counts, which need not be a count itself. -/
def sum : List Word → Nat
  | [] => 0
  | a :: as => a.toNat + sum as

/-- The sum of some counts as a count, which wraps around at the largest one. -/
def sumWrapping : List Word → Word
  | [] => 0
  | a :: as => a + sumWrapping as

@[simp] theorem sum_nil : sum [] = 0 := rfl

@[simp] theorem sum_cons (a : Word) (as : List Word) : sum (a :: as) = a.toNat + sum as := rfl

@[simp] theorem sum_append (as bs : List Word) : sum (as ++ bs) = sum as + sum bs := by
  induction as with
  | nil => simp
  | cons a as ih => rw [List.cons_append, sum_cons, sum_cons, ih, Nat.add_assoc]

/-! ## Values -/

theorem toNat_le_limit (a : Word) : a.toNat ≤ limit := by
  have := a.toNat_lt
  unfold limit
  omega

@[simp] theorem toNat_clamp (n : Nat) : (clamp n).toNat = min n limit := by
  unfold clamp limit
  rw [UInt32.toNat_ofNat']
  omega

theorem toNat_truncate (n : Nat) : (truncate n).toNat = n % UInt32.size := UInt32.toNat_ofNat'

theorem toNat_truncate_of_le {n : Nat} (h : n ≤ limit) : (truncate n).toNat = n := by
  rw [toNat_truncate]
  exact Nat.mod_eq_of_lt (Nat.lt_succ_of_le h)

theorem toNat_sumWrapping (as : List Word) : (sumWrapping as).toNat = sum as % UInt32.size := by
  induction as with
  | nil => rfl
  | cons a as ih => rw [sumWrapping, UInt32.toNat_add, ih, sum_cons, Nat.add_mod_mod]

/-- Clamping the value of a count gives the count back. -/
@[simp] theorem clamp_toNat (a : Word) : clamp a.toNat = a := by
  apply UInt32.toNat_inj.1
  have := toNat_le_limit a
  simp only [toNat_clamp]
  omega

@[simp] theorem toNat_add (a b : Word) : (add a b).toNat = min (a.toNat + b.toNat) limit :=
  toNat_clamp _

@[simp] theorem toNat_sub (a b : Word) : (sub a b).toNat = a.toNat - b.toNat := by
  have := toNat_le_limit a
  simp only [sub, toNat_clamp]
  omega

@[simp] theorem toNat_mul (a b : Word) : (mul a b).toNat = min (a.toNat * b.toNat) limit :=
  toNat_clamp _

@[simp] theorem toNat_least (a b : Word) : (least a b).toNat = min a.toNat b.toNat := by
  have := toNat_le_limit a
  simp only [least, toNat_clamp]
  omega

/-- Two counts with the same value are the same count. -/
theorem ext {a b : Word} (h : a.toNat = b.toNat) : a = b := UInt32.toNat_inj.1 h

protected theorem add_zero (a : Word) : add a 0 = a := by
  apply ext
  have hfits := toNat_le_limit a
  rw [toNat_add, UInt32.toNat_zero]
  omega

theorem toNat_pos {a : Word} (h : a ≠ 0) : 0 < a.toNat := by
  rcases Nat.eq_zero_or_pos a.toNat with hzero | hpos
  · exact absurd (ext hzero) h
  · exact hpos

@[simp] theorem ofNat?_toNat (a : Word) : ofNat? a.toNat = some a := by
  simp [ofNat?, toNat_le_limit]

end Word

end CardEffects
