/-
  CardEffects.Proofs.Plan.Reordering

  The order in which effects are listed hardly matters to their plan, and planning what a plan
  keeps changes nothing.  What is kept and what is dropped was said of each effect by itself: it
  depends on which effects there are, and on how often each is listed, never on where.

    * `Plan.Settled`, `Plan.Settled.ofEffects_eq` — effects that are their own plan.
    * `Plan.settled_kept` — what a plan keeps is such a list.
    * `Plan.count_droppedFrom` — how often an effect is dropped for a reason.
    * `Plan.EqualUpToOrder` — plans that differ in the order within one kind at most.
    * `Plan.ofEffects_reordered` — the two laws of planning.
-/
import CardEffects.Proofs.Plan.Settlement

namespace CardEffects

namespace Plan

variable {es es' : List Effect}

/-! ## Effects that are their own plan -/

/-- Effects in order of priority, each once, none of which beats another. -/
structure Settled (es : List Effect) : Prop where
  ascending : Ascending es
  nodup : es.Nodup
  unbeaten : ∀ d ∈ es, ¬ Beaten es d

/-- Where nothing is repeated and nothing beaten, everything is kept. -/
theorem settle_of_unbeaten {kept rest : List Effect} (hnodup : (kept ++ rest).Nodup)
    (hunbeaten : ∀ d ∈ rest, ¬ Beaten (kept ++ rest) d) : settle kept rest = ⟨rest, []⟩ := by
  -- effect by effect; each goes over from the rest to those kept, and the whole stays the same
  induction rest generalizing kept with
  | nil => rfl
  | cons d rest ih =>
    have hwhole : kept ++ d :: rest = kept ++ [d] ++ rest := by simp
    have hnew : d ∉ kept := fun hd =>
      (List.nodup_append.1 hnodup).2.2 d hd d List.mem_cons_self rfl
    have hunclaimed : claimant? kept d = none := by
      rw [claimant?, List.find?_eq_none]
      intro c hc hclaims
      rw [Bool.and_eq_true, beq_iff_eq] at hclaims
      exact hunbeaten d List.mem_cons_self ⟨c, List.mem_append_left _ hc, hclaims.1, hclaims.2⟩
    have hrest : settle (kept ++ [d]) rest = ⟨rest, []⟩ := by
      refine ih (hwhole ▸ hnodup) fun e he => ?_
      rw [← hwhole]
      exact hunbeaten e (List.mem_cons_of_mem d he)
    rw [settle, if_neg hnew, hunclaimed, hrest]

/-- Settled effects are their own plan. -/
theorem Settled.ofEffects_eq (h : Settled es) : ofEffects es = ⟨es, []⟩ := by
  have horder : inOrder es = es := by
    rw [inOrder_eq_ranked]
    exact h.ascending.eq_ranked.symm
  rw [ofEffects, horder]
  exact settle_of_unbeaten h.nodup h.unbeaten

/-! ## What is kept -/

/-- What a plan keeps is settled. -/
theorem settled_kept (es : List Effect) : Settled (ofEffects es).kept := by
  rw [kept_ofEffects]
  have hplaced := pairwise_survivors es
  refine ⟨hplaced.imp fun {a b} hab => ?_, hplaced.imp fun {a b} hab => ?_, fun d hd => ?_⟩
  · rcases hab with hbefore | ⟨hequal, -⟩
    · exact Priority.before_asymm hbefore
    · rw [hequal, Priority.before_irrefl]
  · -- nothing comes before itself, by priority or by place
    rintro rfl
    rcases hab with hbefore | ⟨-, hplace⟩
    · rw [Priority.before_irrefl] at hbefore
      cases hbefore
    · exact Nat.lt_irrefl _ hplace
  · -- whatever beats an effect among the survivors beats it in the text
    rintro ⟨e, he, hmechanism, hbefore⟩
    have hlisted : e ∈ es := mem_ranked.1 (mem_survivors.1 he).1
    exact (mem_survivors.1 hd).2 ⟨e, hlisted, hmechanism, hbefore⟩

/-! ## What is dropped, and how often -/

/-- How often `d` is dropped for a reason among effects of which `n` are `d`, and whether one was
listed before: each time if it is beaten, and else each time but the first. -/
def timesDropped (es : List Effect) (d : Effect) (reason : DropReason) (seen : Bool) (n : Nat) :
    Nat :=
  if Beaten es d then
    if reason = .mechanism (winner es d.mechanism) d.mechanism then n else 0
  else
    if reason = .duplicate then (if seen then n else n - 1) else 0

/-- The dropped occurrences are counted effect by effect, wherever they stand. -/
theorem count_droppedFrom (es seen rest : List Effect) (d : Effect) (reason : DropReason) :
    (droppedFrom es seen rest).count ⟨d, reason⟩
      = timesDropped es d reason (decide (d ∈ seen)) (rest.count d) := by
  -- along the ranked effects; only an occurrence of `d` itself changes either side
  induction rest generalizing seen with
  | nil => simp [droppedFrom_nil, timesDropped]
  | cons e rest ih =>
    rw [droppedFrom_cons, List.count_append, ih]
    by_cases hed : e = d
    · subst hed
      have hseen : e ∈ seen ++ [e] := by simp
      rw [decide_eq_true hseen, List.count_cons_self]
      unfold dropReason? timesDropped
      by_cases hbeaten : Beaten es e
      · by_cases hreason : reason = .mechanism (winner es e.mechanism) e.mechanism
        · simp [hbeaten, hreason, Nat.add_comm]
        · simp [hbeaten, hreason, Ne.symm hreason]
      · by_cases hfirst : e ∈ seen
        · by_cases hreason : reason = .duplicate
          · simp [hbeaten, hfirst, hreason, Nat.add_comm]
          · simp [hbeaten, hfirst, hreason, Ne.symm hreason]
        · simp [hbeaten, hfirst]
    · have hother : (((dropReason? es seen e).map fun r => (⟨e, r⟩ : Dropped)).toList).count
          ⟨d, reason⟩ = 0 := by
        rw [List.count_eq_zero, Option.mem_toList, Option.map_eq_some_iff]
        rintro ⟨r, -, hr⟩
        exact hed (Dropped.mk.inj hr).1
      have hseen : (d ∈ seen ++ [e]) ↔ d ∈ seen := by simp [Ne.symm hed]
      rw [hother, Nat.zero_add, List.count_cons_of_ne hed]
      simp only [hseen]

/-! ## Listing the effects in another order -/

theorem beaten_perm (h : es.Perm es') (d : Effect) : Beaten es d ↔ Beaten es' d :=
  exists_congr fun _ => and_congr_left' h.mem_iff

theorem winner_perm (h : es.Perm es') (m : Mechanism) : winner es m = winner es' m := by
  unfold winner
  rw [funext fun k => h.any_eq]

/-- The same effects survive. -/
theorem kept_perm (h : es.Perm es') : (ofEffects es).kept.Perm (ofEffects es').kept := by
  refine (List.perm_ext_iff_of_nodup (settled_kept es).nodup (settled_kept es').nodup).2 ?_
  intro e
  rw [kept_ofEffects, kept_ofEffects, mem_survivors, mem_survivors, mem_ranked, mem_ranked,
    h.mem_iff, beaten_perm h]

/-- They stand kind by kind in the order of the table, so the kinds are the same at each place. -/
theorem kinds_kept_perm (h : es.Perm es') :
    (ofEffects es).kept.map Effect.kind = (ofEffects es').kept.map Effect.kind := by
  have hsorted (es : List Effect) : ((ofEffects es).kept.map Effect.kind).Pairwise
      fun k l => l.priority.before k.priority = false :=
    List.pairwise_map.2 (settled_kept es).ascending
  refine List.Perm.eq_of_pairwise (fun k l _ _ hkl hlk => ?_) (hsorted es) (hsorted es')
    ((kept_perm h).map Effect.kind)
  exact EffectKind.priority_inj (Priority.eq_of_not_before hlk hkl)

/-- The same effects are dropped, each as often for the same reasons. -/
theorem dropped_perm (h : es.Perm es') : (ofEffects es).dropped.Perm (ofEffects es').dropped := by
  refine List.perm_iff_count.2 fun ⟨d, reason⟩ => ?_
  have hcount : (ranked es).count d = (ranked es').count d :=
    ((ranked_perm es).trans (h.trans (ranked_perm es').symm)).count_eq d
  rw [dropped_ofEffects, dropped_ofEffects, count_droppedFrom, count_droppedFrom, hcount]
  unfold timesDropped
  simp only [beaten_perm h, winner_perm h]

/-- Two plans that may differ in the order of effects of one kind, and in no other way. -/
structure EqualUpToOrder (p q : Plan) : Prop where
  /-- At each place stand effects of the same kind, -/
  kinds : p.kept.map Effect.kind = q.kept.map Effect.kind
  kept : p.kept.Perm q.kept
  /-- and those of one kind are the same. -/
  ofKind : ∀ k, (p.kept.filter fun e => e.kind == k).Perm (q.kept.filter fun e => e.kind == k)
  /-- As often as an effect is dropped for a reason by one, it is by the other. -/
  dropped : p.dropped.Perm q.dropped

theorem equalUpToOrder_of_perm (h : es.Perm es') :
    EqualUpToOrder (ofEffects es) (ofEffects es') where
  kinds := kinds_kept_perm h
  kept := kept_perm h
  ofKind _ := (kept_perm h).filter _
  dropped := dropped_perm h

/-- **A plan does not depend on the order in which effects are listed, and keeping is done once.**
However effects are reordered, the plan is the same but for the order within one kind, and so is
what is dropped, with its reasons.  What any plan keeps is its own plan, with nothing dropped. -/
theorem ofEffects_reordered (h : es.Perm es') :
    EqualUpToOrder (ofEffects es) (ofEffects es')
      ∧ ∀ ds, ofEffects (ofEffects ds).kept = ⟨(ofEffects ds).kept, []⟩ :=
  ⟨equalUpToOrder_of_perm h, fun ds => (settled_kept ds).ofEffects_eq⟩

/-! ### Effects that are repeated and beaten -/

/-- Energy attached twice, and by a coin flip, and healing of two amounts. -/
def mixedEffects : List Effect :=
  [.energyAttach .ownType 1 .this, .heal 10 .this,
    .coinFlipEnergy (.fixed 1) 1 .ownType .this, .heal 20 .this, .energyAttach .ownType 1 .this,
    .heal 20 .this]

/-- Listed backwards they are planned alike, though not in the same order of healing. -/
theorem reordered_mixedEffects :
    mixedEffects.reverse.Perm mixedEffects
      ∧ EqualUpToOrder (ofEffects mixedEffects.reverse) (ofEffects mixedEffects)
      ∧ (ofEffects mixedEffects.reverse).kept ≠ (ofEffects mixedEffects).kept := by
  have hperm : mixedEffects.reverse.Perm mixedEffects := List.reverse_perm mixedEffects
  refine ⟨hperm, (ofEffects_reordered hperm).1, ?_⟩
  rw [kept_ofEffects, kept_ofEffects]
  decide

end Plan

end CardEffects
