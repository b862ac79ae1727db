/-
  CardEffects.Text.Ranges

  Character properties given by ascending ranges of code points.
-/

namespace CardEffects.Text

/-- Whether `n` lies in one of the ranges, which are closed and in ascending order. -/
def inRanges : List (Nat × Nat) → Nat → Bool
  | [], _ => false
  | (first, last) :: rest, n =>
    if n < first then false else if n ≤ last then true else inRanges rest n

/-- A member of the ranges lies between the ends of one of them. -/
theorem exists_of_inRanges {ranges : List (Nat × Nat)} {n : Nat} (h : inRanges ranges n = true) :
    ∃ r ∈ ranges, r.1 ≤ n ∧ n ≤ r.2 := by
  induction ranges with
  | nil => simp [inRanges] at h
  | cons r rest ih =>
    obtain ⟨first, last⟩ := r
    unfold inRanges at h
    split at h
    · simp at h
    next h₁ =>
      split at h
      next h₂ => exact ⟨_, List.mem_cons_self, Nat.not_lt.1 h₁, h₂⟩
      next h₂ =>
        obtain ⟨q, hq, hb⟩ := ih h
        exact ⟨q, List.mem_cons_of_mem _ hq, hb⟩

end CardEffects.Text
