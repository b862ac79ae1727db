/-
  CardEffects.Proofs.Coverage.Accounting

  The books of a coverage balance.  A coverage counts texts, effects and rules side by side, and
  the coverages of cards are merged.  All of it is read off one list, the texts of the cards in
  printed order, and merging is appending such lists; the identities between the counts are then
  those of single texts: a text that is not blank is either kept as one unread effect, without a
  rule, or read by at least one rule, which counts it once.

    * `EnumMap.tally_append`, `EnumMap.sum_values_tally` — counts by key.
    * `Card.mem_effectTexts_iff`, `Card.pairwise_precedes` — the texts of a card and their order.
    * `Coverage.ofPrinted_append`, `Coverage.ofCards_eq` — a coverage, read off the texts.
    * `PrintedText.Settled` — what the reading of one text comes to.
    * `Coverage.Balanced` — the identities between the counts.
    * `Coverage.ofCardsBy_balanced` — every coverage obeys them.
-/
import CardEffects.Proofs.Coverage.Sharing
import CardEffects.Proofs.Reading.Account
import Mathlib.Algebra.BigOperators.Group.Finset.Basic

namespace CardEffects

/-! ## Counts by key -/

namespace EnumMap

variable {κ : Type} [DecidableEq κ] [Enumeration κ]

theorem get?_tally (l : List κ) (k : κ) :
    (tally l).get? k = if k ∈ l then some (l.count k) else none :=
  get?_tabulate _ k

/-- An absent key counts as zero. -/
theorem getD_tally (l : List κ) (k : κ) : ((tally l).get? k).getD 0 = l.count k := by
  rw [get?_tally]
  split
  next => rfl
  next h => exact (List.count_eq_zero.2 h).symm

/-- A key that is there counts something. -/
theorem pos_of_get?_tally {l : List κ} {k : κ} {n : Nat} (h : (tally l).get? k = some n) :
    0 < n ∧ n = l.count k := by
  rw [get?_tally] at h
  split at h
  next hmem =>
    obtain rfl := Option.some.inj h
    exact ⟨List.count_pos_iff.2 hmem, rfl⟩
  next => cases h

theorem tally_nil : tally ([] : List κ) = ∅ :=
  ext fun k => (get?_tally [] k).trans (get?_empty k).symm

/-- The counts of two lists add up. -/
theorem tally_append (l₁ l₂ : List κ) :
    tally (l₁ ++ l₂) = (tally l₁).merge (· + ·) (tally l₂) := by
  apply ext
  intro k
  rw [get?_merge, get?_tally, get?_tally, get?_tally, List.count_append]
  by_cases h₁ : k ∈ l₁ <;> by_cases h₂ : k ∈ l₂ <;> simp [h₁, h₂, List.count_eq_zero.2]

/-- The sum of the values of a map, absent ones being zero. -/
theorem sum_values (m : EnumMap κ Nat) :
    m.values.sum = ((Enumeration.all : List κ).map fun k => (m.get? k).getD 0).sum := by
  rw [values]
  induction (Enumeration.all : List κ) with
  | nil => rfl
  | cons k keys ih =>
    rw [List.filterMap_cons, List.map_cons, List.sum_cons, ← ih]
    cases m.get? k with
    | none => exact (Nat.zero_add _).symm
    | some n => exact List.sum_cons

/-- All counts together are as many as there are items. -/
theorem sum_values_tally (l : List κ) : (tally l).values.sum = l.length := by
  have hmem : ∀ k ∈ (l : Multiset κ), k ∈ (Enumeration.all : List κ).toFinset :=
    fun k _ => List.mem_toFinset.2 (Enumeration.mem_all k)
  calc (tally l).values.sum
      = ((Enumeration.all : List κ).map fun k => l.count k).sum := by
        simp only [sum_values, getD_tally]
    _ = ∑ k ∈ (Enumeration.all : List κ).toFinset, l.count k :=
        (List.sum_toFinset _ Enumeration.nodup_all).symm
    _ = l.length := by
        simpa only [Multiset.coe_count, Multiset.coe_card] using Multiset.sum_count_eq_card hmem

end EnumMap

/-! ## The texts of a card -/

/-- One place on a card is printed before another: attacks, then abilities, each from the first
on, and a trainer text last. -/
def TextSource.Precedes : TextSource → TextSource → Prop
  | .attack i, .attack j => i < j
  | .ability i, .ability j => i < j
  | .attack _, .ability _ => True
  | .attack _, .trainer => True
  | .ability _, .trainer => True
  | _, _ => False

namespace Card

/-- The text that stands at a place on a card. -/
def textAt? (card : Card) : TextSource → Option String
  | .attack i => card.attacks[i]?.map Attack.effect
  | .ability i => card.abilities[i]?.map Ability.effect
  | .trainer => some card.effect

theorem mem_allTexts_iff {card : Card} {source : TextSource} {text : String} :
    (source, text) ∈ card.allTexts ↔ card.textAt? source = some text := by
  cases source <;>
    simp [allTexts, textAt?, List.mem_zipIdx_iff_getElem?, eq_comm (a := text)]

/-- The texts of a card are those that stand somewhere on it and are more than blanks. -/
theorem mem_effectTexts_iff {card : Card} {source : TextSource} {text : String} :
    (source, text) ∈ card.effectTexts
      ↔ card.textAt? source = some text ∧ ∃ c ∈ text.toList, Text.isBlank c = false := by
  rw [effectTexts, List.mem_filter, mem_allTexts_iff, Bool.not_eq_true', List.all_eq_false]
  simp only [Bool.not_eq_true]

private theorem pairwise_zipIdx {α : Type} (l : List α) :
    l.zipIdx.Pairwise fun p q => p.2 < q.2 := by
  rw [← List.pairwise_map (f := Prod.snd) (R := (· < ·)), List.zipIdx_map_snd]
  exact List.pairwise_lt_range'

/-- The texts of a card come in printed order. -/
theorem pairwise_precedes (card : Card) :
    card.effectTexts.Pairwise fun a b => a.1.Precedes b.1 := by
  refine List.Pairwise.filter _ (List.pairwise_append.2 ⟨List.pairwise_append.2
    ⟨?_, ?_, ?_⟩, List.pairwise_singleton _ _, ?_⟩)
  · exact List.pairwise_map.2 (pairwise_zipIdx card.attacks)
  · exact List.pairwise_map.2 (pairwise_zipIdx card.abilities)
  · intro a ha b hb
    obtain ⟨p, -, rfl⟩ := List.mem_map.1 ha
    obtain ⟨q, -, rfl⟩ := List.mem_map.1 hb
    exact trivial
  · intro a ha b hb
    rw [List.mem_singleton.1 hb]
    rcases List.mem_append.1 ha with ha | ha <;>
    · obtain ⟨p, -, rfl⟩ := List.mem_map.1 ha
      exact trivial

end Card

/-! ## Texts in print -/

/-- A text on the card that it stands on. -/
structure PrintedText where
  card : Card
  source : TextSource
  text : String

namespace PrintedText

def reading (t : PrintedText) : Reading := Reading.ofText t.text

/-- The text is kept word for word. -/
def isUnread (t : PrintedText) : Bool := t.reading.effects.any Effect.isUnparsed

/-- The text is read, but with little confidence. -/
def isDoubtful (t : PrintedText) : Bool :=
  !t.isUnread && t.reading.confidence < Coverage.doubtfulBelow

/-- The text as it is listed if no rule reads it. -/
def entry (t : PrintedText) : UnreadText := ⟨t.card.id, t.card.name, t.source, t.text⟩

end PrintedText

/-- The texts of a card, in printed order. -/
def Card.printed (card : Card) : List PrintedText :=
  card.effectTexts.map fun t => ⟨card, t.1, t.2⟩

namespace Coverage

/-- What is counted of a number of cards and their texts, read off the list of texts. -/
def ofPrinted (cards : Nat) (texts : List PrintedText) : Coverage Unit where
  cards := cards
  texts := texts.length
  parsed := texts.countP fun t => !t.isUnread
  unparsed := texts.countP fun t => t.isUnread
  doubtful := texts.countP fun t => t.isDoubtful
  byKind := .tally (texts.flatMap fun t => t.reading.effects.map Effect.kind)
  byRule := .tally (texts.flatMap fun t => t.reading.rules)
  confidence := ()
  entries := (texts.filter fun t => t.isUnread).map PrintedText.entry

theorem ofPrinted_nil : ofPrinted 0 [] = empty := by
  simp only [ofPrinted, empty, List.flatMap_nil, EnumMap.tally_nil]
  rfl

/-- Merging is appending the texts. -/
theorem ofPrinted_append (m n : Nat) (l₁ l₂ : List PrintedText) :
    ofPrinted (m + n) (l₁ ++ l₂) = (ofPrinted m l₁).merge (ofPrinted n l₂) := by
  simp only [ofPrinted, merge, List.length_append, List.countP_append, List.flatMap_append,
    EnumMap.tally_append, List.filter_append, List.map_append]

/-- The coverage of one text, blank or not. -/
theorem ofText_eq (t : PrintedText) : ofText t.card t.source t.text = ofPrinted 0 [t] := by
  have hunread : ((Reading.ofText t.text).effects.any Effect.isUnparsed) = t.isUnread := rfl
  have hconfidence : (Reading.ofText t.text).confidence = t.reading.confidence := rfl
  simp only [ofText, ofPrinted, hunread, hconfidence, List.flatMap_cons, List.flatMap_nil,
    List.append_nil, List.countP_singleton, List.length_singleton, List.filter_cons,
    List.filter_nil, PrintedText.isDoubtful]
  cases t.isUnread <;> rfl

theorem mergeAll_ofPrinted (texts : List PrintedText) :
    mergeAll (texts.map fun t => ofPrinted 0 [t]) = ofPrinted 0 texts := by
  induction texts with
  | nil => exact ofPrinted_nil.symm
  | cons t texts ih =>
    rw [List.map_cons, mergeAll_cons, ih, ← ofPrinted_append]
    rfl

theorem ofCard_eq (card : Card) : ofCard card = ofPrinted 1 card.printed := by
  have htexts : (card.effectTexts.map fun t => ofText card t.1 t.2)
      = card.printed.map fun t => ofPrinted 0 [t] := by
    rw [Card.printed, List.map_map]
    exact List.map_congr_left fun t _ => ofText_eq ⟨card, t.1, t.2⟩
  rw [ofCard, htexts, mergeAll_ofPrinted]
  rfl

/-- What is counted of some cards, read off their texts. -/
theorem ofCards_eq (cards : List Card) :
    ofCards cards = ofPrinted cards.length (cards.flatMap Card.printed) := by
  induction cards with
  | nil => exact ofPrinted_nil.symm
  | cons card cards ih =>
    rw [ofCards, List.map_cons, mergeAll_cons, ofCard_eq]
    rw [ofCards] at ih
    rw [ih, ← ofPrinted_append, List.flatMap_cons, List.length_cons, Nat.add_comm]

end Coverage

/-! ## Single texts -/

/-- Some match of the rule is accepted in the text. -/
def Reading.fires (rule : Clause.RuleName) (text : String) : Bool :=
  !(accepted rule (Clause.normalize text.toList)).isEmpty

/-- The rules of a reading are those that fire. -/
theorem Reading.mem_rules_ofText_iff {rule : Clause.RuleName} {text : String} :
    rule ∈ (ofText text).rules ↔ fires rule text = true := by
  rw [fires, Bool.not_eq_true', List.isEmpty_eq_false_iff_exists_mem]
  by_cases hblank : Clause.normalize text.toList = []
  · have hreading : ofText text = ⟨[], [], .whole⟩ := if_pos hblank
    rw [hreading, hblank]
    refine iff_of_false List.not_mem_nil fun ⟨⟨f, e⟩, hmem⟩ => ?_
    -- a match has a first letter, and a blank text has none
    obtain ⟨c, more, htaken, -⟩ := exists_letter_of_accepted hmem
    have htext := (Clause.of_mem_findAll (mem_accepted_iff.1 hmem).1).text
    rw [htaken] at htext
    simp at htext
  · by_cases hnone : acceptedMatches (Clause.normalize text.toList) = []
    · rw [ofText_of_not_accepted hblank hnone, accepted_eq_nil hnone]
      exact iff_of_false List.not_mem_nil fun ⟨_, hmem⟩ => List.not_mem_nil hmem
    · rw [ofText_of_accepted hblank hnone, mem_rules_iff, Prod.exists]

namespace PrintedText

/-- What the reading of a text on a card comes to: it is kept word for word, as its only effect
and without a rule, or read by at least one rule, each listed once. -/
structure Settled (t : PrintedText) : Prop where
  isUnread_iff : t.isUnread = true ↔ t.reading.effects = [.unparsed t.text]
  count_unparsed : (t.reading.effects.map Effect.kind).count .unparsed = t.isUnread.toNat
  rules_eq_nil_iff : t.reading.rules = [] ↔ t.isUnread = true
  rules_nodup : t.reading.rules.Nodup

/-- A text that no rule reads is kept, and counts as unread once. -/
theorem settled_of_unread {t : PrintedText}
    (h : t.reading = ⟨[.unparsed t.text], [], .none⟩) : t.Settled := by
  have hunread : t.isUnread = true := by
    rw [isUnread, h]
    rfl
  refine ⟨iff_of_true hunread (by rw [h]), ?_, iff_of_true (by rw [h]) hunread, ?_⟩
  · rw [hunread, h]
    rfl
  · rw [h]
    exact List.nodup_nil

/-- A text that is accounted for has rules, and none of its effects is unread. -/
theorem settled_of_accounted {t : PrintedText} {n : List Char}
    (h : Reading.Accounted n t.reading) : t.Settled := by
  have hread : t.isUnread = false := List.any_eq_false.2 fun e he => by
    rw [h.isUnparsed e he]
    exact Bool.false_ne_true
  have hnot : ¬ t.isUnread = true := Bool.eq_false_iff.1 hread
  refine ⟨iff_of_false hnot fun heffects => ?_, ?_, iff_of_false h.rules_ne_nil hnot,
    h.rules_nodup⟩
  · rw [isUnread, heffects] at hread
    cases hread
  · rw [hread]
    refine List.count_eq_zero.2 fun hmem => ?_
    obtain ⟨e, he, hkind⟩ := List.mem_map.1 hmem
    exact hnot (List.any_eq_true.2 ⟨e, he, Effect.isUnparsed_iff.2 hkind⟩)

/-- Every text that is more than blanks is settled. -/
theorem Settled.of_exists {t : PrintedText} (h : ∃ c ∈ t.text.toList, Text.isBlank c = false) :
    t.Settled := by
  have hnormal : Clause.normalize t.text.toList ≠ [] := by
    intro hnil
    obtain ⟨c, hc, hblank⟩ := h
    rw [(Clause.normalize_eq_nil_iff _).1 hnil c hc] at hblank
    cases hblank
  rcases Reading.ofText_unread_or_accounted hnormal with ⟨-, hunread, -⟩ | haccounted
  · exact settled_of_unread hunread
  · exact settled_of_accounted haccounted

/-- A rule is listed once if it fires. -/
theorem Settled.count_rules {t : PrintedText} (h : t.Settled) (rule : Clause.RuleName) :
    t.reading.rules.count rule = (Reading.fires rule t.text).toNat := by
  by_cases hmem : rule ∈ t.reading.rules
  · rw [List.count_eq_one_of_mem h.rules_nodup hmem, Reading.mem_rules_ofText_iff.1 hmem]
    rfl
  · rw [List.count_eq_zero.2 hmem, Bool.eq_false_iff.2 (Reading.mem_rules_ofText_iff.not.1 hmem)]
    rfl

end PrintedText

/-! ## Lists of texts -/

section Sums

variable {α β : Type} [DecidableEq β] {f : α → List β} {l : List α} {p : α → Bool}

/-- What occurs at most once in each of several lists is counted by those that it occurs in. -/
theorem count_flatMap_eq_countP {b : β} (h : ∀ a ∈ l, (f a).count b = (p a).toNat) :
    (l.flatMap f).count b = l.countP p := by
  induction l with
  | nil => rfl
  | cons a l ih =>
    rw [List.flatMap_cons, List.count_append, h a List.mem_cons_self,
      ih fun a ha => h a (List.mem_cons_of_mem _ ha), List.countP_cons, Nat.add_comm]
    cases p a <;> rfl

omit [DecidableEq β] in
/-- Lists that are not empty have an item each, at least. -/
theorem countP_le_length_flatMap (h : ∀ a ∈ l, p a = true → f a ≠ []) :
    l.countP p ≤ (l.flatMap f).length := by
  induction l with
  | nil => exact Nat.le_refl 0
  | cons a l ih =>
    have hl := ih fun a ha => h a (List.mem_cons_of_mem _ ha)
    rw [List.flatMap_cons, List.length_append, List.countP_cons]
    split
    next ha =>
      have := List.length_pos_iff.2 (h a List.mem_cons_self ha)
      omega
    next => omega

end Sums

namespace Coverage

/-- The identities between the counts of a coverage and the cards that it is of. -/
structure Balanced {σ : Type} (cards : List Card) (c : Coverage σ) : Prop where
  cards_eq : c.cards = cards.length
  texts_eq : c.texts = (cards.map fun card => card.effectTexts.length).sum
  texts_eq_add : c.texts = c.parsed + c.unparsed
  doubtful_le : c.doubtful ≤ c.parsed
  unparsed_eq_length : c.unparsed = c.entries.length
  unparsed_eq_kind : c.unparsed = (c.byKind.get? .unparsed).getD 0
  /-- Listed are the texts that are kept as one unread effect, word for word, card by card. -/
  entries_eq : c.entries = cards.flatMap fun card =>
    (card.effectTexts.filter fun t => (Reading.ofText t.2).effects = [.unparsed t.2]).map
      fun t => ⟨card.id, card.name, t.1, t.2⟩
  sum_byKind : c.byKind.values.sum = (cards.map fun card =>
    (card.effectTexts.map fun t => (Reading.ofText t.2).effects.length).sum).sum
  byKind_pos : ∀ kind n, c.byKind.get? kind = some n → 0 < n
  /-- A rule is counted once for each text in which it fires. -/
  byRule_eq : ∀ rule, (c.byRule.get? rule).getD 0 = (cards.map fun card =>
    card.effectTexts.countP fun t => Reading.fires rule t.2).sum
  byRule_le : ∀ rule n, c.byRule.get? rule = some n → 1 ≤ n ∧ n ≤ c.parsed
  parsed_le : c.parsed ≤ c.byRule.values.sum

section Balanced

variable {σ : Type} {cards : List Card}

theorem settled_of_mem_printed {card : Card} {t : PrintedText} (h : t ∈ card.printed) :
    t.Settled := by
  obtain ⟨⟨source, text⟩, hmem, rfl⟩ := List.mem_map.1 h
  exact .of_exists (Card.mem_effectTexts_iff.1 hmem).2

theorem settled_of_mem_flatMap {t : PrintedText} (h : t ∈ cards.flatMap Card.printed) :
    t.Settled := by
  obtain ⟨card, -, hcard⟩ := List.mem_flatMap.1 h
  exact settled_of_mem_printed hcard

/-- The rule is counted once for each text in which it fires. -/
theorem get?_byRule_ofPrinted (n : Nat) (rule : Clause.RuleName) :
    ((ofPrinted n (cards.flatMap Card.printed)).byRule.get? rule).getD 0
      = (cards.flatMap Card.printed).countP fun t => Reading.fires rule t.text := by
  refine (EnumMap.getD_tally _ rule).trans (count_flatMap_eq_countP fun t ht => ?_)
  exact (settled_of_mem_flatMap ht).count_rules rule

/-- What is read off the texts of some cards is balanced. -/
theorem balanced_ofPrinted :
    Balanced cards (ofPrinted cards.length (cards.flatMap Card.printed)) where
  cards_eq := rfl
  texts_eq := by
    rw [ofPrinted, List.length_flatMap]
    exact congrArg List.sum (List.map_congr_left fun card _ => List.length_map _)
  texts_eq_add := by
    rw [ofPrinted, List.length_eq_countP_add_countP fun t : PrintedText => !t.isUnread]
    simp only [Bool.not_eq_true', Bool.not_eq_false, Bool.decide_eq_true]
  doubtful_le := List.countP_mono_left fun t _ ht => (Bool.and_eq_true _ _ ▸ ht).1
  unparsed_eq_length := by
    rw [ofPrinted, List.length_map]
    exact List.countP_eq_length_filter
  unparsed_eq_kind := by
    rw [ofPrinted, EnumMap.getD_tally]
    exact (count_flatMap_eq_countP fun t ht => (settled_of_mem_flatMap ht).count_unparsed).symm
  entries_eq := by
    refine (congrArg (List.map _) List.filter_flatMap).trans (List.map_flatMap.trans ?_)
    refine congrArg (cards.flatMap ·) (funext fun card => ?_)
    have hunread : card.printed.filter (fun t => t.isUnread)
        = card.printed.filter fun t => t.reading.effects = [.unparsed t.text] :=
      List.filter_congr fun t ht =>
        Bool.eq_iff_iff.2 ((settled_of_mem_printed ht).isUnread_iff.trans decide_eq_true_iff.symm)
    rw [hunread, Card.printed, List.filter_map, List.map_map]
    rfl
  sum_byKind := by
    rw [ofPrinted, EnumMap.sum_values_tally, List.flatMap_assoc, List.length_flatMap]
    refine congrArg List.sum (List.map_congr_left fun card _ => ?_)
    rw [List.length_flatMap, Card.printed, List.map_map]
    exact congrArg List.sum (List.map_congr_left fun t _ => List.length_map _)
  byKind_pos kind n h := (EnumMap.pos_of_get?_tally h).1
  byRule_eq rule := by
    rw [get?_byRule_ofPrinted, List.countP_flatMap]
    refine congrArg List.sum (List.map_congr_left fun card _ => ?_)
    rw [Function.comp_apply, Card.printed, List.countP_map]
    rfl
  byRule_le rule n h := by
    have hcount : n = (cards.flatMap Card.printed).countP fun t => Reading.fires rule t.text := by
      rw [← get?_byRule_ofPrinted cards.length rule, h]
      rfl
    refine ⟨(EnumMap.pos_of_get?_tally h).1, hcount.trans_le ?_⟩
    -- a text in which a rule fires is read
    refine List.countP_mono_left fun t ht hfires => ?_
    have hrules := List.ne_nil_of_mem (Reading.mem_rules_ofText_iff.2 hfires)
    rw [Bool.not_eq_true', ← Bool.not_eq_true, ← (settled_of_mem_flatMap ht).rules_eq_nil_iff]
    exact hrules
  parsed_le := by
    rw [ofPrinted, EnumMap.sum_values_tally]
    -- and in a text that is read some rule fires
    refine countP_le_length_flatMap fun t ht hread => ?_
    rw [Bool.not_eq_true', ← Bool.not_eq_true, ← (settled_of_mem_flatMap ht).rules_eq_nil_iff]
      at hread
    exact hread

/-- Being balanced is about what is counted. -/
theorem Balanced.of_agrees {τ : Type} {c : Coverage σ} {d : Coverage τ} (h : c.Agrees d)
    (hd : Balanced cards d) : Balanced cards c where
  cards_eq := h.cards.trans hd.cards_eq
  texts_eq := h.texts.trans hd.texts_eq
  texts_eq_add := by
    rw [h.texts, h.parsed, h.unparsed]
    exact hd.texts_eq_add
  doubtful_le := by
    rw [h.doubtful, h.parsed]
    exact hd.doubtful_le
  unparsed_eq_length := by
    rw [h.unparsed, h.entries]
    exact hd.unparsed_eq_length
  unparsed_eq_kind := by
    rw [h.unparsed, h.byKind]
    exact hd.unparsed_eq_kind
  entries_eq := h.entries.trans hd.entries_eq
  sum_byKind := by
    rw [h.byKind]
    exact hd.sum_byKind
  byKind_pos := by
    rw [h.byKind]
    exact hd.byKind_pos
  byRule_eq := by
    rw [h.byRule]
    exact hd.byRule_eq
  byRule_le := by
    rw [h.byRule, h.parsed]
    exact hd.byRule_le
  parsed_le := by
    rw [h.byRule, h.parsed]
    exact hd.parsed_le

/-- **The books balance.**  The texts of a card are those that stand somewhere on it and are more
than blanks, in printed order.  Whatever cards there are, and however many workers share them, the
counts of the coverage obey the identities above. -/
theorem ofCardsBy_balanced [Confidence σ] (threads cores : Nat) (cards : List Card) :
    (∀ card ∈ cards,
        (∀ source text, (source, text) ∈ card.effectTexts
          ↔ card.textAt? source = some text ∧ ∃ c ∈ text.toList, Text.isBlank c = false)
        ∧ (card.effectTexts.Pairwise fun a b => a.1.Precedes b.1)
        ∧ Balanced [card] (ofCard card : Coverage σ))
      ∧ Balanced cards (ofCardsBy threads cores cards : Coverage σ) := by
  refine ⟨fun card _ => ⟨fun _ _ => Card.mem_effectTexts_iff, card.pairwise_precedes, ?_⟩, ?_⟩
  · refine .of_agrees (.of_counted ?_) balanced_ofPrinted
    rw [counted_ofCard, ofCard_eq, List.flatMap_cons, List.flatMap_nil, List.append_nil]
    rfl
  · refine .of_agrees (.of_counted ?_) balanced_ofPrinted
    -- the workers count what one worker counts
    have hcounted := counted_ofCardsBy? (σ := σ) threads cores cards
    rw [ofCardsBy?_eq (σ := Unit), ofCards_eq, Option.map_eq_some_iff] at hcounted
    obtain ⟨c, hc, heq⟩ := hcounted
    rw [ofCardsBy, Option.get_of_eq_some _ hc, heq]
    rfl

end Balanced

end Coverage

end CardEffects
