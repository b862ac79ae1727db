/-
  CardEffects.Proofs.Plan.Ranking

  The order of priority.  `Priority.before` is a strict order in which only equal priorities
  are not apart, and kinds with one priority are one kind, so the table of priorities lays
  effects out kind by kind:

    * `Plan.ranked es` — the effects of the first kind of the table in their order, then those
      of the second kind, and so on.
    * `Plan.inOrder_eq_ranked` — the stable sort by priority gives exactly this list.

  The layout makes no mention of sorting, and what it says about one kind can be read off it.
-/
import CardEffects.Plan
import Mathlib.Data.List.Basic

namespace CardEffects

/-! ## Priorities are strictly ordered -/

namespace Priority

variable {p q r : Priority}

theorem before_iff :
    p.before q = true ↔
      p.cls.rank < q.cls.rank
        ∨ p.cls.rank = q.cls.rank ∧ p.specificity < q.specificity := by
  simp [before]

theorem before_eq_false_iff :
    p.before q = false ↔
      ¬ (p.cls.rank < q.cls.rank
        ∨ p.cls.rank = q.cls.rank ∧ p.specificity < q.specificity) := by
  rw [← before_iff, Bool.not_eq_true]

@[simp] theorem before_irrefl (p : Priority) : p.before p = false := by
  rw [before_eq_false_iff]
  omega

theorem before_asymm (h : p.before q = true) : q.before p = false := by
  rw [before_iff] at h
  rw [before_eq_false_iff]
  omega

/-- What does not come before `q` is not left behind by anything that does. -/
theorem not_before_trans (h₁ : q.before p = false) (h₂ : r.before q = false) :
    r.before p = false := by
  rw [before_eq_false_iff] at *
  omega

/-- Of two priorities one comes before the other, unless they are equal. -/
theorem eq_of_not_before (h₁ : p.before q = false) (h₂ : q.before p = false) : p = q := by
  rw [before_eq_false_iff] at h₁ h₂
  have hspec : p.specificity = q.specificity := by omega
  have hrank : p.cls.rank = q.cls.rank := by omega
  have hcls : p.cls = q.cls := by
    revert hrank
    cases p.cls <;> cases q.cls <;> simp [PriorityClass.rank]
  cases p
  cases q
  simp_all

end Priority

/-- Effects with one priority are of one kind. -/
theorem Effect.kind_eq_of_not_before {a b : Effect} (h₁ : a.priority.before b.priority = false)
    (h₂ : b.priority.before a.priority = false) : a.kind = b.kind :=
  EffectKind.priority_inj (Priority.eq_of_not_before h₁ h₂)

/-! ## The layout by kinds -/

/-- The kinds of effects in order of priority. -/
def Priority.rankedKinds : List EffectKind := Priority.table.map (·.1)

theorem Priority.pairwise_rankedKinds :
    Priority.rankedKinds.Pairwise fun k l => k.priority.before l.priority = true := by
  decide

theorem Priority.mem_rankedKinds (k : EffectKind) : k ∈ Priority.rankedKinds := by
  cases k <;> decide

namespace Plan

/-- The effects kind by kind in the order of the table, those of one kind in their order. -/
def ranked (es : List Effect) : List Effect :=
  Priority.rankedKinds.flatMap fun k => es.filter fun e => e.kind == k

/-- In ascending order of priority. -/
def Ascending (es : List Effect) : Prop :=
  es.Pairwise fun a b => b.priority.before a.priority = false

theorem mem_ranked {es : List Effect} {e : Effect} : e ∈ ranked es ↔ e ∈ es := by
  simp [ranked, List.mem_flatMap, Priority.mem_rankedKinds]

/-- Where nothing with the property comes behind something without it, the list is cut in two. -/
private theorem eq_filter_append_filter {p : Effect → Bool} {l : List Effect}
    (h : l.Pairwise fun a b => p a = false → p b = false) :
    l = l.filter p ++ l.filter fun e => !p e := by
  induction l with
  | nil => rfl
  | cons a l ih =>
    obtain ⟨ha, hl⟩ := List.pairwise_cons.1 h
    cases hp : p a with
    | true => simpa [hp] using ih hl
    | false =>
      -- the cut is here: behind `a` everything is without the property
      have hnone : l.filter p = [] := by
        rw [List.filter_eq_nil_iff]
        intro b hb
        simp [ha b hb hp]
      have hall : (l.filter fun e => !p e) = l := by
        rw [List.filter_eq_self]
        intro b hb
        simp [ha b hb hp]
      simp [hp, hnone, hall]

/-- Effects in ascending order stand kind by kind, in the order of the kinds. -/
theorem Ascending.eq_flatMap {es : List Effect} {ks : List EffectKind} (hes : Ascending es)
    (hks : ks.Pairwise fun k l => k.priority.before l.priority = true)
    (hmem : ∀ e ∈ es, e.kind ∈ ks) :
    es = ks.flatMap fun k => es.filter fun e => e.kind == k := by
  -- kind by kind; the effects of the first kind are cut off, and the rest is still ascending
  induction ks generalizing es with
  | nil =>
    cases es with
    | nil => rfl
    | cons e es => simpa using hmem e List.mem_cons_self
  | cons k ks ih =>
    obtain ⟨hk, hks⟩ := List.pairwise_cons.1 hks
    have hkind : ∀ e ∈ es, e.kind ≠ k → e.kind ∈ ks := by
      intro e he hne
      exact (List.mem_cons.1 (hmem e he)).resolve_left hne
    -- the effects of kind `k` come first, for any other kind is behind `k`
    have hcut := eq_filter_append_filter (p := fun e => e.kind == k) (l := es) <| by
      refine hes.imp_of_mem ?_
      intro a b ha hb hab hane
      simp only [beq_eq_false_iff_ne] at hane ⊢
      intro hbk
      have hlt := hk a.kind (hkind a ha hane)
      rw [← hbk] at hlt
      rw [Effect.priority, Effect.priority, hlt] at hab
      exact absurd hab (by decide)
    have hrest : (es.filter fun e => !(e.kind == k))
        = ks.flatMap fun l => es.filter fun e => e.kind == l := by
      have hasc : Ascending (es.filter fun e => !(e.kind == k)) :=
        hes.sublist List.filter_sublist
      rw [ih hasc hks fun e he => by
        obtain ⟨he, hne⟩ := List.mem_filter.1 he
        exact hkind e he (by simpa using hne)]
      refine List.flatMap_congr fun l hl => ?_
      rw [List.filter_filter]
      refine List.filter_congr fun e _ => ?_
      -- an effect of another kind `l` was not cut off
      have hlk : l ≠ k := by
        rintro rfl
        simpa using hk l hl
      by_cases he : e.kind = l <;> simp [he, hlk]
    rw [List.flatMap_cons, ← hrest]
    exact hcut

theorem Ascending.eq_ranked {es : List Effect} (h : Ascending es) : es = ranked es :=
  h.eq_flatMap Priority.pairwise_rankedKinds fun e _ => Priority.mem_rankedKinds e.kind

/-! ## The sort by priority -/

private theorem notAfter_trans (a b c : Effect) (h₁ : (!b.priority.before a.priority) = true)
    (h₂ : (!c.priority.before b.priority) = true) : (!c.priority.before a.priority) = true := by
  rw [Bool.not_eq_true'] at *
  exact Priority.not_before_trans h₁ h₂

private theorem notAfter_total (a b : Effect) :
    (!b.priority.before a.priority || !a.priority.before b.priority) = true := by
  cases hba : b.priority.before a.priority with
  | false => rfl
  | true => rw [Priority.before_asymm hba]; rfl

theorem ascending_inOrder (es : List Effect) : Ascending (inOrder es) := by
  have h := List.pairwise_mergeSort notAfter_trans notAfter_total es
  exact h.imp fun hab => by simpa using hab

theorem inOrder_perm (es : List Effect) : (inOrder es).Perm es := List.mergeSort_perm es _

/-- The sort keeps the effects of one kind in their order. -/
theorem filter_inOrder (es : List Effect) (k : EffectKind) :
    ((inOrder es).filter fun e => e.kind == k) = es.filter fun e => e.kind == k := by
  -- the effects of one kind are tied, so a stable sort keeps them as a sublist
  have htie : (es.filter fun e => e.kind == k).Pairwise
      fun a b => (!b.priority.before a.priority) = true := by
    refine List.pairwise_of_forall_mem_list fun a ha b hb => ?_
    have hak : a.kind = k := eq_of_beq (List.mem_filter.1 ha).2
    have hbk : b.kind = k := eq_of_beq (List.mem_filter.1 hb).2
    rw [Effect.priority, Effect.priority, hak, hbk, Priority.before_irrefl]
    rfl
  have hsub : ((es.filter fun e => e.kind == k).filter fun e => e.kind == k).Sublist
      ((inOrder es).filter fun e => e.kind == k) :=
    (List.sublist_mergeSort notAfter_trans notAfter_total htie List.filter_sublist).filter _
  have hself : ((es.filter fun e => e.kind == k).filter fun e => e.kind == k)
      = es.filter fun e => e.kind == k := by
    rw [List.filter_filter]
    exact List.filter_congr fun e _ => Bool.and_self _
  rw [hself] at hsub
  -- a sublist as long as the list is the list
  exact (hsub.eq_of_length ((inOrder_perm es).filter _).length_eq.symm).symm

/-- Sorting by priority lays the effects out kind by kind. -/
theorem inOrder_eq_ranked (es : List Effect) : inOrder es = ranked es := by
  rw [(ascending_inOrder es).eq_ranked, ranked, ranked]
  exact List.flatMap_congr fun k _ => filter_inOrder es k

theorem ascending_ranked (es : List Effect) : Ascending (ranked es) :=
  inOrder_eq_ranked es ▸ ascending_inOrder es

theorem ranked_perm (es : List Effect) : (ranked es).Perm es :=
  inOrder_eq_ranked es ▸ inOrder_perm es

end Plan

end CardEffects
