/-
  CardEffects.Proofs.Plan.Settlement

  What becomes of each effect of a text, said without going through the effects one by one.
  An effect is *beaten* when another effect of the text has its mechanism and a strictly higher
  priority.

    * `Plan.verdict es` — kept are the unbeaten effects, each once; dropped is every other
      occurrence, a beaten one in favour of the kind that wins its mechanism, a repeated one
      as a duplicate.
    * `Plan.settle_eq` — settling effects from any place of the order on gives the rest of the
      verdict: the effects kept so far are the unbeaten ones seen so far.
    * `Plan.ofEffects_eq_verdict` — the plan of a text is the verdict on its effects.
-/
import CardEffects.Proofs.Plan.Ranking

namespace CardEffects

namespace Plan

/-! ## The verdict -/

/-- Some effect with the mechanism of `d` has a strictly higher priority than `d`. -/
def Beaten (es : List Effect) (d : Effect) : Prop :=
  ∃ e ∈ es, e.mechanism = d.mechanism ∧ e.priority.before d.priority = true

instance (es : List Effect) (d : Effect) : Decidable (Beaten es d) :=
  inferInstanceAs (Decidable (∃ e ∈ es, e.mechanism = d.mechanism
    ∧ e.priority.before d.priority = true))

/-- The kind that wins a mechanism: the first of the ranked kinds to use it. -/
def winner (es : List Effect) (m : Mechanism) : EffectKind :=
  (Priority.rankedKinds.find? fun k =>
    es.any fun e => e.kind == k && e.mechanism == m).getD .unparsed

/-- Why an occurrence of `d` is dropped, `earlier` being the effects ranked before it. -/
def dropReason? (es earlier : List Effect) (d : Effect) : Option DropReason :=
  if Beaten es d then some (.mechanism (winner es d.mechanism) d.mechanism)
  else if d ∈ earlier then some .duplicate
  else none

/-- The effects dropped from `rest`, `seen` being the effects ranked before it. -/
def droppedFrom (es seen rest : List Effect) : List Dropped :=
  rest.zipIdx.filterMap fun o =>
    (dropReason? es (seen ++ rest.take o.2) o.1).map fun reason => ⟨o.1, reason⟩

/-- The unbeaten effects among `seen`, each once, in the order of their first occurrence. -/
def survivors (es seen : List Effect) : List Effect :=
  (seen.filter fun e => !decide (Beaten es e)).eraseDups

/-- The plan described occurrence by occurrence. -/
def verdict (es : List Effect) : Plan where
  kept := survivors es (ranked es)
  dropped := droppedFrom es [] (ranked es)

/-! ## Winners -/

/-- A mechanism that is used has a winner: an effect of the winning kind that uses it, and none
that uses it comes before that one. -/
theorem exists_winner {es : List Effect} {d : Effect} (hd : d ∈ es) :
    ∃ w ∈ es, w.kind = winner es d.mechanism ∧ w.mechanism = d.mechanism
      ∧ ∀ e ∈ es, e.mechanism = d.mechanism → e.priority.before w.priority = false := by
  let uses : EffectKind → Bool := fun k =>
    es.any fun e => e.kind == k && e.mechanism == d.mechanism
  have huses : ∀ e ∈ es, e.mechanism = d.mechanism → uses e.kind = true := by
    intro e he hm
    exact List.any_eq_true.2 ⟨e, he, by simp [hm]⟩
  -- the kind of `d` uses the mechanism, so the search ends with some kind
  obtain ⟨k, hk⟩ : ∃ k, Priority.rankedKinds.find? uses = some k := by
    rw [← Option.isSome_iff_exists, List.find?_isSome]
    exact ⟨d.kind, Priority.mem_rankedKinds d.kind, huses d hd rfl⟩
  have hwin : winner es d.mechanism = k := by
    show (Priority.rankedKinds.find? uses).getD .unparsed = k
    rw [hk]
    rfl
  obtain ⟨hku, as, bs, hsplit, has⟩ := List.find?_eq_some_iff_append.1 hk
  obtain ⟨w, hw, hwk⟩ := List.any_eq_true.1 hku
  simp only [Bool.and_eq_true, beq_iff_eq] at hwk
  refine ⟨w, hw, hwk.1.trans hwin.symm, hwk.2, ?_⟩
  intro e he hm
  -- the kind of `e` is the winner or ranked behind it
  have hmem : e.kind ∈ as ++ k :: bs := hsplit ▸ Priority.mem_rankedKinds e.kind
  have hpair := hsplit ▸ Priority.pairwise_rankedKinds
  rw [Effect.priority, Effect.priority, hwk.1]
  rcases List.mem_append.1 hmem with h | h
  · simpa [huses e he hm] using has e.kind h
  · rcases List.mem_cons.1 h with h | h
    · rw [h, Priority.before_irrefl]
    · have hbehind := (List.pairwise_append.1 hpair).2.1
      exact Priority.before_asymm ((List.pairwise_cons.1 hbehind).1 e.kind h)

/-! ## Survivors -/

theorem mem_survivors {es seen : List Effect} {e : Effect} :
    e ∈ survivors es seen ↔ e ∈ seen ∧ ¬ Beaten es e := by
  simp [survivors]

theorem survivors_concat (es seen : List Effect) (e : Effect) :
    survivors es (seen ++ [e])
      = survivors es seen ++ if e ∈ seen ∨ Beaten es e then [] else [e] := by
  unfold survivors
  rw [List.filter_append, List.eraseDups_append]
  congr 1
  by_cases hb : Beaten es e
  · simp [hb]
  · by_cases hs : e ∈ seen
    · simp [hb, hs, List.removeAll]
    · simp [hb, hs, List.removeAll, List.eraseDups_cons]

theorem droppedFrom_nil (es seen : List Effect) : droppedFrom es seen [] = [] := rfl

theorem droppedFrom_cons (es seen : List Effect) (e : Effect) (rest : List Effect) :
    droppedFrom es seen (e :: rest)
      = (((dropReason? es seen e).map fun reason => ⟨e, reason⟩).toList
        ++ droppedFrom es (seen ++ [e]) rest) := by
  have htail : (rest.zipIdx 1).filterMap (fun o =>
        (dropReason? es (seen ++ (e :: rest).take o.2) o.1).map fun reason =>
          (⟨o.1, reason⟩ : Dropped))
      = droppedFrom es (seen ++ [e]) rest := by
    rw [List.zipIdx_succ, List.filterMap_map]
    simp [droppedFrom, Function.comp_def]
  unfold droppedFrom at htail ⊢
  rw [List.zipIdx_cons, List.filterMap_cons]
  simp only [List.take_zero, List.append_nil]
  rw [htail]
  cases dropReason? es seen e <;> rfl

/-! ## Settling -/

/-- Among the survivors before `d`, none claims the mechanism of an unbeaten `d`. -/
theorem claimant?_eq_none {es seen : List Effect} {d : Effect} (hseen : ∀ e ∈ seen, e ∈ es)
    (hd : ¬ Beaten es d) : claimant? (survivors es seen) d = none := by
  rw [claimant?, List.find?_eq_none]
  intro c hc
  simp only [Bool.and_eq_true, beq_iff_eq, not_and]
  intro hm hp
  exact hd ⟨c, hseen c (mem_survivors.1 hc).1, hm, hp⟩

/-- Whatever has a higher priority than `d` is ranked before it. -/
theorem mem_seen_of_before {es seen rest : List Effect} {d w : Effect}
    (h : ranked es = seen ++ d :: rest) (hw : w ∈ es)
    (hwd : w.priority.before d.priority = true) : w ∈ seen := by
  have hasc : Ascending (seen ++ d :: rest) := h ▸ ascending_ranked es
  have hwr : w ∈ seen ++ d :: rest := h ▸ mem_ranked.2 hw
  rcases List.mem_append.1 hwr with hin | hin
  · exact hin
  · rcases List.mem_cons.1 hin with rfl | hin
    · rw [Priority.before_irrefl] at hwd
      exact absurd hwd (by decide)
    · -- behind `d` nothing comes before it
      have hnot := (List.pairwise_cons.1 (List.pairwise_append.1 hasc).2.1).1 w hin
      rw [hwd] at hnot
      exact absurd hnot (by decide)

/-- A beaten `d` finds its mechanism claimed by a survivor of the winning kind. -/
theorem claimant?_of_beaten {es seen rest : List Effect} {d : Effect}
    (h : ranked es = seen ++ d :: rest) (hd : Beaten es d) :
    ∃ c, claimant? (survivors es seen) d = some c ∧ c.kind = winner es d.mechanism := by
  obtain ⟨e, he, hem, hed⟩ := hd
  have hde : d ∈ es := mem_ranked.1 (h ▸ by simp)
  obtain ⟨w, hw, hwk, hwm, hmin⟩ := exists_winner hde
  -- `w` comes before `d`, for the effect `e` that beats `d` does not come before `w`
  have hwd : w.priority.before d.priority = true := by
    by_contra hne
    rw [Bool.not_eq_true] at hne
    have hne' := Priority.not_before_trans hne (hmin e he hem)
    rw [hed] at hne'
    exact absurd hne' (by decide)
  -- the winner was seen before `d`; nothing beats it, so it survived
  have hwsurv : w ∈ survivors es seen := by
    refine mem_survivors.2 ⟨mem_seen_of_before h hw hwd, ?_⟩
    rintro ⟨e', he', hem', hp'⟩
    rw [hmin e' he' (hem'.trans hwm)] at hp'
    exact absurd hp' (by decide)
  obtain ⟨c, hc⟩ : ∃ c, claimant? (survivors es seen) d = some c := by
    rw [← Option.isSome_iff_exists, claimant?, List.find?_isSome]
    exact ⟨w, hwsurv, by simp [hwm, hwd]⟩
  refine ⟨c, hc, ?_⟩
  have hcs := mem_survivors.1 (List.mem_of_find?_eq_some hc)
  have hcm := List.find?_some hc
  simp only [Bool.and_eq_true, beq_iff_eq] at hcm
  have hces : c ∈ es := mem_ranked.1 (h ▸ List.mem_append_left _ hcs.1)
  -- neither beats the other, so they are of one kind
  have hwc : w.priority.before c.priority = false := by
    rw [← Bool.not_eq_true]
    intro hp
    exact hcs.2 ⟨w, hw, hwm.trans hcm.1.symm, hp⟩
  exact (Effect.kind_eq_of_not_before (hmin c hces hcm.1) hwc).trans hwk

/-- Settling the rest of the order, the survivors of what was seen being kept, gives the rest
of the verdict. -/
theorem settle_eq {es seen rest : List Effect} (h : ranked es = seen ++ rest) :
    survivors es seen ++ (settle (survivors es seen) rest).kept = survivors es (ranked es)
      ∧ (settle (survivors es seen) rest).dropped = droppedFrom es seen rest := by
  -- along the order; what is kept at a place is the survivors of what was seen
  induction rest generalizing seen with
  | nil => simp [settle, h, droppedFrom_nil]
  | cons d rest ih =>
    have hseen : ∀ e ∈ seen, e ∈ es := fun e he =>
      mem_ranked.1 (h ▸ List.mem_append_left _ he)
    have hnext := @ih (seen ++ [d]) (by simp [h])
    rw [survivors_concat] at hnext
    rw [droppedFrom_cons]
    unfold settle
    by_cases hb : Beaten es d
    · -- a beaten effect is never kept, so it is not dropped as a duplicate
      obtain ⟨c, hc, hck⟩ := claimant?_of_beaten h hb
      have hnew : d ∉ survivors es seen := fun hd => (mem_survivors.1 hd).2 hb
      simp only [hb, or_true, if_true, List.append_nil] at hnext
      simp only [hnew, if_false, hc, hck, dropReason?, hb, if_true]
      exact ⟨hnext.1, by rw [hnext.2]; rfl⟩
    · by_cases hs : d ∈ seen
      · -- seen before and unbeaten, so it is kept already
        have hold : d ∈ survivors es seen := mem_survivors.2 ⟨hs, hb⟩
        simp only [hs, true_or, if_true, List.append_nil] at hnext
        simp only [hold, if_true, dropReason?, hb, if_false, hs]
        exact ⟨hnext.1, by rw [hnext.2]; rfl⟩
      · -- new and unbeaten, so no survivor claims its mechanism
        have hnew : d ∉ survivors es seen := fun hd => hs (mem_survivors.1 hd).1
        simp only [hs, hb, or_self, if_false, List.append_assoc, List.singleton_append] at hnext
        simp only [hnew, if_false, claimant?_eq_none hseen hb, dropReason?, hb, hs]
        exact ⟨hnext.1, by rw [hnext.2]; rfl⟩

/-- Settling loses no effect and invents none. -/
theorem settle_perm (kept rest : List Effect) :
    ((settle kept rest).kept ++ (settle kept rest).dropped.map Dropped.effect).Perm rest := by
  -- each effect goes to one of the two lists, whatever is kept before it
  induction rest generalizing kept with
  | nil => exact .refl _
  | cons d rest ih =>
    unfold settle
    split
    · exact (List.perm_middle).trans ((ih kept).cons d)
    · split
      · exact (List.perm_middle).trans ((ih kept).cons d)
      · exact (ih (kept ++ [d])).cons d

/-! ## The order of first occurrence -/

section FirstOccurrence

variable {α : Type} [BEq α] [LawfulBEq α]

/-- Leaving elements out does not change which of two that stay occurs first. -/
private theorem idxOf_filter_lt {l : List α} (p : α → Bool) {a b : α} (ha : p a = true)
    (hb : p b = true) :
    (l.filter p).idxOf a < (l.filter p).idxOf b ↔ l.idxOf a < l.idxOf b := by
  induction l with
  | nil => simp
  | cons c l ih =>
    cases hc : p c with
    | true =>
      rw [List.filter_cons_of_pos hc]
      simp only [List.idxOf_cons]
      cases c == a <;> cases c == b <;> simp [ih]
    | false =>
      have hca : (c == a) = false := by
        rw [beq_eq_false_iff_ne]
        rintro rfl
        simp [ha] at hc
      have hcb : (c == b) = false := by
        rw [beq_eq_false_iff_ne]
        rintro rfl
        simp [hb] at hc
      rw [List.filter_cons_of_neg (by simp [hc])]
      simp only [List.idxOf_cons, hca, hcb, cond_false, Nat.add_lt_add_iff_right]
      exact ih

/-- With repetitions left out, elements stand in the order of their first occurrence. -/
private theorem pairwise_eraseDups (l : List α) :
    l.eraseDups.Pairwise fun a b => l.idxOf a < l.idxOf b := by
  -- by length: behind the first element its repetitions are left out, and the rest is shorter
  induction h : l.length using Nat.strongRecOn generalizing l with
  | ind n ih =>
    cases l with
    | nil => simp
    | cons c l =>
      rw [List.eraseDups_cons, List.pairwise_cons]
      have hother : ∀ b ∈ (l.filter fun b => !b == c).eraseDups, (!b == c) = true := by
        intro b hb
        exact (List.mem_filter.1 (List.mem_eraseDups.1 hb)).2
      have hcons : ∀ b, (!b == c) = true → (c :: l).idxOf b = l.idxOf b + 1 := by
        intro b hb
        have hcb : (c == b) = false := by
          rw [Bool.not_eq_true', beq_eq_false_iff_ne] at hb
          exact beq_eq_false_iff_ne.2 (Ne.symm hb)
        rw [List.idxOf_cons, hcb, cond_false]
      refine ⟨fun b hb => ?_, ?_⟩
      · rw [List.idxOf_cons_self, hcons b (hother b hb)]
        omega
      · have hlen : (l.filter fun b => !b == c).length < n := by
          have := List.length_filter_le (fun b => !b == c) l
          rw [List.length_cons] at h
          omega
        refine (ih _ hlen (l.filter fun b => !b == c) rfl).imp_of_mem ?_
        intro a b ha hb hab
        rw [hcons a (hother a ha), hcons b (hother b hb)]
        have := (idxOf_filter_lt (fun b => !b == c) (hother a ha) (hother b hb)).1 hab
        omega

end FirstOccurrence

/-- Effects of one kind occur in the ranked order as they do in the text. -/
theorem idxOf_ranked_lt {es : List Effect} {a b : Effect} (h : a.kind = b.kind) :
    (ranked es).idxOf a < (ranked es).idxOf b ↔ es.idxOf a < es.idxOf b := by
  have hkind := idxOf_filter_lt (l := ranked es) (fun e => e.kind == b.kind) (a := a) (b := b)
    (by simp [h]) (by simp)
  have hkind' := idxOf_filter_lt (l := es) (fun e => e.kind == b.kind) (a := a) (b := b)
    (by simp [h]) (by simp)
  rw [← hkind, ← hkind', ← inOrder_eq_ranked, filter_inOrder]

/-- Of two effects the one that occurs first in the ranked order has the higher priority, or
they have one kind and it occurs first in the text. -/
theorem before_of_idxOf_ranked_lt {es : List Effect} {a b : Effect} (hb : b ∈ es)
    (h : (ranked es).idxOf a < (ranked es).idxOf b) :
    a.priority.before b.priority = true
      ∨ a.priority = b.priority ∧ es.idxOf a < es.idxOf b := by
  have hblt : (ranked es).idxOf b < (ranked es).length :=
    List.idxOf_lt_length_of_mem (mem_ranked.2 hb)
  have hba : b.priority.before a.priority = false := by
    have hasc := List.pairwise_iff_getElem.1 (ascending_ranked es) _ _ (Nat.lt_trans h hblt) hblt h
    simpa using hasc
  cases hab : a.priority.before b.priority with
  | true => exact .inl rfl
  | false =>
    -- neither comes before the other, so the order is that of one kind
    have hkind := Effect.kind_eq_of_not_before hab hba
    exact .inr ⟨Priority.eq_of_not_before hab hba, (idxOf_ranked_lt hkind).1 h⟩

/-- The survivors stand in order of priority, those of one priority in the order of their first
occurrence in the text. -/
theorem pairwise_survivors (es : List Effect) :
    (survivors es (ranked es)).Pairwise fun a b =>
      a.priority.before b.priority = true
        ∨ a.priority = b.priority ∧ es.idxOf a < es.idxOf b := by
  refine (pairwise_eraseDups _).imp_of_mem ?_
  intro a b ha hb hab
  obtain ⟨_, hau⟩ := List.mem_filter.1 (List.mem_eraseDups.1 ha)
  obtain ⟨hb, hbu⟩ := List.mem_filter.1 (List.mem_eraseDups.1 hb)
  have hranked := (idxOf_filter_lt (fun e => !decide (Beaten es e)) hau hbu).1 hab
  exact before_of_idxOf_ranked_lt (mem_ranked.1 hb) hranked

/-- Unbeaten effects with one mechanism are of one kind. -/
theorem kind_eq_of_mem_survivors {es : List Effect} {a b : Effect}
    (ha : a ∈ survivors es (ranked es)) (hb : b ∈ survivors es (ranked es))
    (h : a.mechanism = b.mechanism) : a.kind = b.kind := by
  obtain ⟨ha, hna⟩ := mem_survivors.1 ha
  obtain ⟨hb, hnb⟩ := mem_survivors.1 hb
  have hab : a.priority.before b.priority = false := by
    rw [← Bool.not_eq_true]
    exact fun hp => hnb ⟨a, mem_ranked.1 ha, h, hp⟩
  have hba : b.priority.before a.priority = false := by
    rw [← Bool.not_eq_true]
    exact fun hp => hna ⟨b, mem_ranked.1 hb, h.symm, hp⟩
  exact Effect.kind_eq_of_not_before hab hba

/-! ## The plan -/

theorem kept_ofEffects (es : List Effect) : (ofEffects es).kept = survivors es (ranked es) := by
  rw [ofEffects, inOrder_eq_ranked]
  exact (@settle_eq es [] (ranked es) rfl).1

theorem dropped_ofEffects (es : List Effect) :
    (ofEffects es).dropped = droppedFrom es [] (ranked es) := by
  rw [ofEffects, inOrder_eq_ranked]
  exact (@settle_eq es [] (ranked es) rfl).2

/-- The plan of any list of effects is the verdict on it: the unbeaten effects in order of
priority and of first occurrence, and every other occurrence with its reason, a beaten one
naming the kind of the effects of highest priority with its mechanism.  No effect is lost or
invented, and one kind is kept for each mechanism. -/
theorem ofEffects_eq_verdict (es : List Effect) :
    ofEffects es = verdict es
      ∧ (ranked es).Perm es
      ∧ Ascending (ranked es)
      ∧ (∀ d ∈ es, ∃ w ∈ es, w.kind = winner es d.mechanism ∧ w.mechanism = d.mechanism
          ∧ ∀ e ∈ es, e.mechanism = d.mechanism → e.priority.before w.priority = false)
      ∧ (∀ e, e ∈ (ofEffects es).kept ↔ e ∈ es ∧ ¬ Beaten es e)
      ∧ ((ofEffects es).kept.Pairwise fun a b =>
          a.priority.before b.priority = true
            ∨ a.priority = b.priority ∧ es.idxOf a < es.idxOf b)
      ∧ ((ofEffects es).kept ++ (ofEffects es).dropped.map Dropped.effect).Perm es
      ∧ ∀ a ∈ (ofEffects es).kept, ∀ b ∈ (ofEffects es).kept,
          a.mechanism = b.mechanism → a.kind = b.kind := by
  have hperm : ((ofEffects es).kept ++ (ofEffects es).dropped.map Dropped.effect).Perm es :=
    (settle_perm [] (inOrder es)).trans (inOrder_perm es)
  refine ⟨?_, ranked_perm es, ascending_ranked es, fun d hd => exists_winner hd, ?_, ?_,
    hperm, ?_⟩
  · calc ofEffects es = ⟨(ofEffects es).kept, (ofEffects es).dropped⟩ := rfl
      _ = verdict es := by rw [kept_ofEffects, dropped_ofEffects]; rfl
  · intro e
    rw [kept_ofEffects, mem_survivors, mem_ranked]
  · rw [kept_ofEffects]
    exact pairwise_survivors es
  · intro a ha b hb h
    rw [kept_ofEffects] at ha hb
    exact kind_eq_of_mem_survivors ha hb h

end Plan

end CardEffects
