/-
  CardEffects.Proofs.Coverage.Sharing

  What a set of cards comes to does not depend on how many workers share it.  Merging is
  associative, and the coverage of no cards adds nothing; so a list of cards may be cut anywhere,
  as long as the pieces are merged in order.  All that is counted obeys these laws; the sum of
  confidence does so in exact arithmetic, while floating point may round on the way.

    * `chunks?_spec`, `Cut` — the pieces are contiguous, none is empty, and there are not too many.
    * `Confidence.Exact` — the laws of exact sums, which rational numbers obey.
    * `ofCards_append` — the coverage of two sets of cards, one behind the other.
    * `mergeAll_ofCards` — the coverage of any cut of a set of cards.
    * `Agrees` — all that is counted is equal.
    * `ofCardsBy_shares` — any number of workers finds what one finds.
-/
import CardEffects.Coverage
import CardEffects.Decimal.Single

namespace CardEffects

/-! ## Merging maps -/

namespace EnumMap

variable {κ : Type} [DecidableEq κ] [Enumeration κ] {α : Type}

theorem merge_assoc (f : α → α → α) [Std.Associative f] (l m n : EnumMap κ α) :
    (l.merge f m).merge f n = l.merge f (m.merge f n) := by
  apply ext
  intro k
  rw [get?_merge, get?_merge, get?_merge, get?_merge]
  exact Std.Associative.assoc _ _ _

theorem empty_merge (f : α → α → α) (m : EnumMap κ α) : (∅ : EnumMap κ α).merge f m = m := by
  apply ext
  intro k
  rw [get?_merge, show (∅ : EnumMap κ α).get? k = none from get?_empty k, Option.merge_none_left]

theorem merge_empty (f : α → α → α) (m : EnumMap κ α) : m.merge f ∅ = m := by
  apply ext
  intro k
  rw [get?_merge, show (∅ : EnumMap κ α).get? k = none from get?_empty k, Option.merge_none_right]

end EnumMap

/-! ## Exact sums -/

/-- The laws of sums that lose nothing: they can be bracketed at will, and the sum of nothing
adds nothing. -/
class Confidence.Exact (σ : Type) [Confidence σ] : Prop where
  add_assoc : ∀ a b c : σ, a + b + c = a + (b + c)
  none_add : ∀ a : σ, Confidence.none + a = a
  add_none : ∀ a : σ, a + Confidence.none = a

/-- The value of a number as a fraction. -/
def Decimal.Binary.value (b : Decimal.Binary) : Rat := b.mantissa * 2 ^ b.exponent

/-- The confidence of each text in single precision, summed up exactly. -/
instance : Confidence Rat where
  none := 0
  ofShare s := (Decimal.Binary.ofSingle s.toFloat32).value

instance : Confidence.Exact Rat where
  add_assoc := Rat.add_assoc
  none_add := Rat.zero_add
  add_none := Rat.add_zero

/-- No confidence at all is summed up. -/
instance : Confidence Unit where
  add _ _ := ()
  none := ()
  ofShare _ := ()

instance : Confidence.Exact Unit where
  add_assoc _ _ _ := rfl
  none_add _ := rfl
  add_none _ := rfl

namespace Coverage

/-! ## Pieces -/

section Pieces

variable {α : Type}

theorem chunks_cons (more : Nat) (a : α) (rest : List α) :
    chunks more (a :: rest) = (a :: rest.take more) :: chunks more (rest.drop more) := by
  rw [chunks]

/-- The pieces, put together again, are the list. -/
theorem flatten_chunks (more : Nat) (l : List α) : (chunks more l).flatten = l := by
  induction l using chunks.induct more with
  | case1 => rw [chunks, List.flatten_nil]
  | case2 a rest ih =>
    rw [chunks_cons, List.flatten_cons, ih, List.cons_append, List.take_append_drop]

/-- No piece is empty, and none is longer than asked for. -/
theorem length_of_mem_chunks {more : Nat} {l p : List α} (hp : p ∈ chunks more l) :
    0 < p.length ∧ p.length ≤ more + 1 := by
  induction l using chunks.induct more with
  | case1 =>
    rw [chunks] at hp
    cases hp
  | case2 a rest ih =>
    rw [chunks_cons] at hp
    rcases List.mem_cons.1 hp with rfl | hp
    · rw [List.length_cons, List.length_take]
      omega
    · exact ih hp

/-- All pieces but the last are full. -/
theorem length_chunks_le {more n : Nat} {l : List α} (hl : l.length ≤ n * (more + 1)) :
    (chunks more l).length ≤ n := by
  induction l using chunks.induct more generalizing n with
  | case1 =>
    rw [chunks]
    exact Nat.zero_le n
  | case2 a rest ih =>
    cases n with
    | zero => simp at hl
    | succ n =>
      have hrest : (rest.drop more).length ≤ n * (more + 1) := by
        rw [List.length_cons, Nat.succ_mul] at hl
        rw [List.length_drop]
        omega
      rw [chunks_cons, List.length_cons]
      exact Nat.succ_le_succ (ih hrest)

/-- As many pieces as there are workers hold all the cards. -/
theorem le_mul_chunkSize (workers cards : Nat) (h : 0 < workers) :
    cards ≤ workers * chunkSize workers cards := by
  have hdiv := Nat.div_add_mod (cards + (workers - 1)) workers
  have hmod := Nat.mod_lt (cards + (workers - 1)) h
  show cards ≤ workers * ((cards + (workers - 1)) / workers)
  omega

/-- Pieces of a size that is not zero: there are some for every list, put together again they
are the list, none is empty and none too long; and there are no more of them than have room. -/
theorem chunks?_spec {size n : Nat} {l : List α} (hsize : 0 < size) (hl : l.length ≤ n * size) :
    ∃ parts, chunks? size l = some parts ∧ parts.flatten = l ∧ parts.length ≤ n
      ∧ ∀ p ∈ parts, 0 < p.length ∧ p.length ≤ size := by
  cases size with
  | zero => cases hsize
  | succ more =>
    exact ⟨chunks more l, rfl, flatten_chunks more l, length_chunks_le hl,
      fun p hp => length_of_mem_chunks hp⟩

end Pieces

/-! ## Merging coverages -/

section Merging

variable {σ : Type} [Confidence σ] [Confidence.Exact σ]

theorem merge_assoc (a b c : Coverage σ) : (a.merge b).merge c = a.merge (b.merge c) := by
  simp only [merge, Nat.add_assoc, EnumMap.merge_assoc, Confidence.Exact.add_assoc,
    List.append_assoc]

theorem empty_merge (a : Coverage σ) : empty.merge a = a := by
  simp only [merge, empty, Nat.zero_add, EnumMap.empty_merge, Confidence.Exact.none_add,
    List.nil_append]

theorem merge_empty (a : Coverage σ) : a.merge empty = a := by
  simp only [merge, empty, Nat.add_zero, EnumMap.merge_empty, Confidence.Exact.add_none,
    List.append_nil]

instance : Std.Associative (merge : Coverage σ → Coverage σ → Coverage σ) := ⟨merge_assoc⟩

theorem mergeAll_cons (a : Coverage σ) (parts : List (Coverage σ)) :
    mergeAll (a :: parts) = a.merge (mergeAll parts) := by
  rw [mergeAll, List.foldl_cons, empty_merge, ← merge_empty a, List.foldl_assoc, merge_empty]
  rfl

theorem mergeAll_append (as bs : List (Coverage σ)) :
    mergeAll (as ++ bs) = (mergeAll as).merge (mergeAll bs) := by
  induction as with
  | nil => exact (empty_merge _).symm
  | cons a as ih => rw [List.cons_append, mergeAll_cons, mergeAll_cons, ih, merge_assoc]

/-- The coverage of two sets of cards, one behind the other. -/
theorem ofCards_append (c₁ c₂ : List Card) :
    (ofCards (c₁ ++ c₂) : Coverage σ) = (ofCards c₁).merge (ofCards c₂) := by
  rw [ofCards, List.map_append, mergeAll_append]
  rfl

/-- The coverage of any cut of a set of cards. -/
theorem mergeAll_ofCards (parts : List (List Card)) :
    (mergeAll (parts.map ofCards) : Coverage σ) = ofCards parts.flatten := by
  induction parts with
  | nil => rfl
  | cons p parts ih => rw [List.map_cons, mergeAll_cons, ih, List.flatten_cons, ofCards_append]

end Merging

/-! ## What is counted -/

/-- All that is counted is equal; the confidence may have been summed up in another way. -/
structure Agrees {σ τ : Type} (a : Coverage σ) (b : Coverage τ) : Prop where
  cards : a.cards = b.cards
  texts : a.texts = b.texts
  parsed : a.parsed = b.parsed
  unparsed : a.unparsed = b.unparsed
  doubtful : a.doubtful = b.doubtful
  byKind : a.byKind = b.byKind
  byRule : a.byRule = b.byRule
  entries : a.entries = b.entries

/-- A coverage without its confidence. -/
def counted {σ : Type} (c : Coverage σ) : Coverage Unit := { c with confidence := () }

theorem Agrees.of_counted {σ τ : Type} {a : Coverage σ} {b : Coverage τ}
    (h : a.counted = b.counted) : Agrees a b where
  cards := congrArg Coverage.cards h
  texts := congrArg Coverage.texts h
  parsed := congrArg Coverage.parsed h
  unparsed := congrArg Coverage.unparsed h
  doubtful := congrArg Coverage.doubtful h
  byKind := congrArg Coverage.byKind h
  byRule := congrArg Coverage.byRule h
  entries := congrArg Coverage.entries h

section Counted

variable {σ : Type} [Confidence σ]

theorem counted_merge (a b : Coverage σ) : (a.merge b).counted = a.counted.merge b.counted := rfl

theorem counted_mergeAll (parts : List (Coverage σ)) :
    (mergeAll parts).counted = mergeAll (parts.map counted) := by
  have hstep (a b : Coverage σ) : a.counted.merge b.counted = (a.merge b).counted := rfl
  rw [mergeAll, mergeAll, List.foldl_map]
  exact (List.foldl_hom counted hstep).symm

theorem counted_ofCard (card : Card) : (ofCard card : Coverage σ).counted = ofCard card := by
  have htexts : (mergeAll (card.effectTexts.map fun t => ofText card t.1 t.2) : Coverage σ).counted
      = mergeAll (card.effectTexts.map fun t => ofText card t.1 t.2) := by
    rw [counted_mergeAll, List.map_map]
    rfl
  exact congrArg (fun c => ({ c with cards := 1 } : Coverage Unit)) htexts

theorem counted_ofCards (cards : List Card) :
    (ofCards cards : Coverage σ).counted = ofCards cards := by
  rw [ofCards, counted_mergeAll, List.map_map]
  exact congrArg mergeAll (List.map_congr_left fun card _ => counted_ofCard card)

/-- Workers count alike, however they sum up the confidence. -/
theorem counted_ofCardsBy? (threads cores : Nat) (cards : List Card) :
    (ofCardsBy? threads cores cards : Option (Coverage σ)).map counted
      = ofCardsBy? threads cores cards := by
  unfold ofCardsBy?
  dsimp only
  split
  · rw [Option.map_some, counted_ofCards]
  · rw [Option.map_map]
    refine congrArg (fun f => Option.map f _) (funext fun parts => ?_)
    rw [Function.comp_apply, counted_mergeAll, List.map_map]
    exact congrArg mergeAll (List.map_congr_left fun part _ => counted_ofCards part)

end Counted

/-! ## Workers -/

/-- With one worker nothing is cut. -/
theorem ofCardsBy?_one {σ : Type} [Confidence σ] (cores : Nat) (cards : List Card) :
    (ofCardsBy? 1 cores cards : Option (Coverage σ)) = some (ofCards cards) := by
  have hone : workerCount 1 cores cards.length ≤ 1 := by
    unfold workerCount
    split <;> omega
  exact if_pos hone

/-- The pieces that cards are cut into for the workers asked for. -/
structure Cut (threads cores : Nat) (cards : List Card) (parts : List (List Card)) : Prop where
  made : chunks? (chunkSize (workerCount threads cores cards.length) cards.length) cards
    = some parts
  size_pos : 0 < chunkSize (workerCount threads cores cards.length) cards.length
  /-- The pieces are contiguous, and hold every card once. -/
  flatten_eq : parts.flatten = cards
  /-- There are no more of them than workers asked for, or than cores when none is. -/
  length_le : parts.length ≤ if threads = 0 then cores else threads
  sizes : ∀ p ∈ parts, 0 < p.length
    ∧ p.length ≤ chunkSize (workerCount threads cores cards.length) cards.length

/-- Where more than one worker has something to do, the cards are cut. -/
theorem exists_cut {threads cores : Nat} {cards : List Card}
    (h : 1 < workerCount threads cores cards.length) : ∃ parts, Cut threads cores cards parts := by
  have hsize := chunkSize_pos h
  obtain ⟨parts, hmade, hflatten, hlength, hsizes⟩ :=
    chunks?_spec hsize (le_mul_chunkSize _ cards.length (by omega))
  refine ⟨parts, hmade, hsize, hflatten, Nat.le_trans hlength ?_, hsizes⟩
  unfold workerCount at h ⊢
  omega

/-- In exact arithmetic any number of workers finds what one finds. -/
theorem ofCardsBy?_eq {σ : Type} [Confidence σ] [Confidence.Exact σ] (threads cores : Nat)
    (cards : List Card) :
    (ofCardsBy? threads cores cards : Option (Coverage σ)) = some (ofCards cards) := by
  unfold ofCardsBy?
  dsimp only
  split
  next => rfl
  next hmany =>
    obtain ⟨parts, hcut⟩ := exists_cut (Nat.lt_of_not_le hmany)
    rw [hcut.made, Option.map_some, mergeAll_ofCards, hcut.flatten_eq]

/-- **Any number of workers finds what one finds.**  Where more than one worker has something to
do, the cards are cut into contiguous pieces.  The coverage is there, and all that it counts is
what one worker counts, with the unread texts in the same order; in exact arithmetic the sum of
confidence is the same as well.  And so it is for any cut of the cards in two. -/
theorem ofCardsBy_shares {σ : Type} [Confidence σ] (threads cores : Nat) (cards : List Card) :
    (workerCount threads cores cards.length ≤ 1 ∨ ∃ parts, Cut threads cores cards parts)
      ∧ (∃ c : Coverage σ, ofCardsBy? threads cores cards = some c
          ∧ ofCardsBy threads cores cards = c
          ∧ c.Agrees (ofCardsBy 1 cores cards : Coverage σ))
      ∧ ofCardsBy threads cores cards = (ofCardsBy 1 cores cards : Coverage Rat)
      ∧ ∀ c₁ c₂ : List Card,
          ((ofCards c₁).merge (ofCards c₂) : Coverage σ).Agrees (ofCards (c₁ ++ c₂) : Coverage σ)
            ∧ (ofCards c₁).merge (ofCards c₂) = (ofCards (c₁ ++ c₂) : Coverage Rat) := by
  refine ⟨(Nat.lt_or_ge 1 _).symm.imp id exists_cut, ?_, ?_,
    fun c₁ c₂ => ⟨?_, (ofCards_append c₁ c₂).symm⟩⟩
  · obtain ⟨c, hc⟩ := Option.isSome_iff_exists.1 (isSome_ofCardsBy? (σ := σ) threads cores cards)
    have hserial : (ofCardsBy 1 cores cards : Coverage σ) = ofCards cards :=
      Option.get_of_eq_some _ (ofCardsBy?_one cores cards)
    refine ⟨c, hc, Option.get_of_eq_some _ hc, .of_counted ?_⟩
    -- without the confidence every sum is exact
    have hcounted := counted_ofCardsBy? (σ := σ) threads cores cards
    rw [hc, Option.map_some, ofCardsBy?_eq] at hcounted
    rw [Option.some.inj hcounted, hserial, counted_ofCards]
  · rw [ofCardsBy, ofCardsBy, Option.get_of_eq_some _ (ofCardsBy?_eq threads cores cards),
      Option.get_of_eq_some _ (ofCardsBy?_one cores cards)]
  · refine .of_counted ?_
    rw [counted_merge, counted_ofCards, counted_ofCards, counted_ofCards, ofCards_append]

end Coverage

end CardEffects
