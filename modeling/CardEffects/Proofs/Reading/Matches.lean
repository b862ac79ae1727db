/-
  CardEffects.Proofs.Reading.Matches

  What every match of a rule looks like.

    * `Found.Of` — a match is the preferred reading of its phrase at its place in the text.
    * `beside_of_mem_findAll` — matches of one phrase do not overlap.
    * `Reading.effects_cases` — the effects of a text were made of accepted matches, or the text
      is kept unread.
-/
import CardEffects.Proofs.Reading.Parts
import CardEffects.Proofs.Reading.Search
import Mathlib.Data.List.Pairwise

namespace CardEffects.Clause

/-! ## Places -/

/-- A match of a phrase in a text: where it stands, the phrase is read as the match says. -/
structure Found.Of (f : Found) (p : Phrase) (n : List Char) : Prop where
  text : f.before.reverse ++ (f.taken ++ f.after) = n
  read : read? p (f.taken ++ f.after) = some ⟨f.taken, f.filled, f.after⟩

theorem mem_findFrom {p : Phrase} {seen cs : List Char} {skip : Nat} {f : Found}
    (h : f ∈ findFrom p seen skip cs) :
    ∃ passed here, passed ++ here = cs ∧ f.before = passed.reverse ++ seen
      ∧ read? p here = some ⟨f.taken, f.filled, f.after⟩ := by
  -- along the text, for any text already seen and any number of places still to skip
  induction cs generalizing seen skip with
  | nil => cases skip <;> cases h
  | cons c cs ih =>
    -- a place further on has one more character before it
    have hlater : ∀ skip, f ∈ findFrom p (c :: seen) skip cs →
        ∃ passed here, passed ++ here = c :: cs ∧ f.before = passed.reverse ++ seen
          ∧ read? p here = some ⟨f.taken, f.filled, f.after⟩ := by
      intro skip h
      obtain ⟨passed, here, hcs, hbefore, hread⟩ := ih h
      refine ⟨c :: passed, here, by rw [List.cons_append, hcs], ?_, hread⟩
      rw [hbefore, List.reverse_cons, List.append_assoc]
      rfl
    cases skip with
    | succ skip => exact hlater skip h
    | zero =>
      unfold findFrom at h
      split at h
      next w hw =>
        rcases List.mem_cons.1 h with rfl | h
        · exact ⟨[], c :: cs, rfl, rfl, hw⟩
        · exact hlater _ h
      next => exact hlater 0 h

theorem of_mem_findAll {p : Phrase} {n : List Char} {f : Found} (h : f ∈ findAll p n) :
    f.Of p n := by
  obtain ⟨passed, here, rfl, hbefore, hread⟩ := mem_findFrom h
  have hhere : f.taken ++ f.after = here := taken_append_rest (mem_ways_of_read? hread)
  rw [List.append_nil] at hbefore
  constructor
  · rw [hbefore, List.reverse_reverse, hhere]
  · rw [hhere]
    exact hread

/-- The places still to skip are before everything found. -/
theorem le_of_mem_findFrom {p : Phrase} {seen cs : List Char} {skip : Nat} {f : Found}
    (h : f ∈ findFrom p seen skip cs) : seen.length + skip ≤ f.before.length := by
  induction cs generalizing seen skip with
  | nil => cases skip <;> cases h
  | cons c cs ih =>
    -- a place further on has one more character before it
    have hlater (skip : Nat) (h : f ∈ findFrom p (c :: seen) skip cs) :
        seen.length + 1 + skip ≤ f.before.length := by
      have hrest := ih h
      rwa [List.length_cons] at hrest
    cases skip with
    | succ skip =>
      have := hlater skip h
      omega
    | zero =>
      unfold findFrom at h
      split at h
      next w hw =>
        rcases List.mem_cons.1 h with rfl | h
        · exact Nat.le_refl _
        · have := hlater _ h
          omega
      next =>
        have := hlater 0 h
        omega

/-- Matches of one phrase do not overlap. -/
theorem pairwise_findFrom (p : Phrase) (seen cs : List Char) (skip : Nat) :
    (findFrom p seen skip cs).Pairwise fun f g =>
      f.before.length + f.taken.length ≤ g.before.length := by
  induction cs generalizing seen skip with
  | nil => cases skip <;> exact .nil
  | cons c cs ih =>
    cases skip with
    | succ skip => exact ih (c :: seen) skip
    | zero =>
      unfold findFrom
      split
      next w hw =>
        refine .cons (fun g hg => ?_) (ih (c :: seen) _)
        have hlater := le_of_mem_findFrom hg
        rw [List.length_cons] at hlater
        show seen.length + w.taken.length ≤ _
        omega
      next => exact ih (c :: seen) 0

/-- One match ends before the other begins. -/
def Found.Beside (f g : Found) : Prop :=
  f.before.length + f.taken.length ≤ g.before.length
    ∨ g.before.length + g.taken.length ≤ f.before.length

instance : Std.Symm Found.Beside := ⟨fun _ _ => Or.symm⟩

theorem beside_of_mem_findAll {p : Phrase} {n : List Char} {f g : Found} (hf : f ∈ findAll p n)
    (hg : g ∈ findAll p n) (hne : f ≠ g) : f.Beside g := by
  have hpairs : (findAll p n).Pairwise Found.Beside := (pairwise_findFrom p [] n 0).imp .inl
  exact hpairs.forall hf hg hne

/-! ## What is made of a match -/

/-- What a rule makes of a match does not depend on the text before it, -/
theorem RuleName.build_before (r : RuleName) (f : Found) (before : List Char) :
    r.build { f with before } = r.build f := by
  cases r <;> rfl

/-- nor on the text behind it. -/
theorem RuleName.build_after (r : RuleName) (f : Found) (after : List Char) :
    r.build { f with after } = r.build f := by
  cases r <;> rfl

end CardEffects.Clause

namespace CardEffects.Reading

open Clause

/-! ## The effects of a text -/

/-- What is accepted is a match that the rule may use at its place, and made an effect of. -/
theorem mem_accepted_iff {r : RuleName} {n : List Char} {f : Found} {e : Effect} :
    (f, e) ∈ accepted r n
      ↔ f ∈ findAll r.phrase n ∧ admits r f = true ∧ r.build f = some e := by
  unfold accepted
  rw [List.mem_filterMap]
  constructor
  · rintro ⟨f', hf', hmade⟩
    obtain ⟨e', he', heq⟩ := Option.map_eq_some_iff.1 hmade
    obtain ⟨rfl, rfl⟩ := Prod.mk.inj heq
    exact ⟨(List.mem_filter.1 hf').1, (List.mem_filter.1 hf').2, he'⟩
  · rintro ⟨hfound, hadmits, hmade⟩
    refine ⟨f, List.mem_filter.2 ⟨hfound, hadmits⟩, ?_⟩
    rw [hmade]
    rfl

/-- A match that is accepted, found by evaluation. -/
theorem exists_accepted {r : RuleName} {n : List Char} {e : Effect} {p : Found → Bool}
    (h : ((findAll r.spelled.val n).any fun f =>
      admits r f && r.build f == some e && p f) = true) :
    ∃ f, (f, e) ∈ accepted r n ∧ p f = true := by
  rw [List.any_eq_true] at h
  obtain ⟨f, hf, hall⟩ := h
  simp only [Bool.and_eq_true, beq_iff_eq] at hall
  rw [← r.spelled.property] at hf
  exact ⟨f, mem_accepted_iff.2 ⟨hf, hall.1.1, hall.1.2⟩, hall.2⟩

/-- A text that is not blank has effects; it is kept unread, or each of them was made of an
accepted match. -/
theorem effects_cases {text : String} (hne : normalize text.toList ≠ []) :
    (ofText text).effects = [.unparsed text]
      ∨ (ofText text).effects ≠ []
        ∧ ∀ e ∈ (ofText text).effects, ∃ r f, (f, e) ∈ accepted r (normalize text.toList) := by
  unfold ofText
  dsimp only
  rw [if_neg hne]
  split
  · exact .inl rfl
  next hsome =>
    -- the effects are those accepted, rule by rule, and there are some
    refine .inr ⟨fun hnil => hsome (List.map_eq_nil_iff.1 hnil), ?_⟩
    intro e he
    obtain ⟨⟨f, e'⟩, hmem, rfl⟩ := List.mem_map.1 he
    obtain ⟨x, hx, hf⟩ := List.mem_flatMap.1 hmem
    obtain ⟨r, -, rfl⟩ := List.mem_map.1 hx
    exact ⟨r, f, hf⟩

end CardEffects.Reading
