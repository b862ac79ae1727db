/-
  CardEffects.Proofs.Reading.Account

  What the reading of a text tells about it.  A blank text says nothing, and a text that no rule
  reads is kept word for word.  Otherwise the effects, the rules and the share are three views of
  one thing, the matches that the rules accept: each match is an effect, each rule with a match is
  listed, and the share counts the letters and digits that lie in a match.

    * `Clause.normalize_eq_nil_iff` — only blanks have an empty normal form.
    * `mem_rules_iff`, `mem_effects_iff` — rules and effects, from the accepted matches.
    * `AccountedFor`, `hits_shareOf` — the places of a text that some match covers, and how many
      there are.
    * `Accounted` — the laws of a reading with accepted matches.
    * `ofText_accounts` — every text is blank, unread, or accounted for.
-/
import CardEffects.Proofs.Reading.Matches
import Mathlib.Data.Set.Card

namespace CardEffects

/-! ## Shares -/

theorem Share.toFloat32_whole : Share.whole.toFloat32 = 1 := by decide

theorem Share.toFloat32_none : Share.none.toFloat32 = 0 := by decide

/-- Text that is kept is an effect of a kind of its own. -/
theorem Effect.isUnparsed_iff {e : Effect} : e.isUnparsed = true ↔ e.kind = .unparsed := by
  cases e with
  | unparsed text => exact iff_of_true rfl rfl
  | _ => exact iff_of_false (fun h => nomatch h) (fun h => nomatch h)

/-! ## Blank texts -/

namespace Clause

theorem lowerFrom_eq_nil_iff (afterCased : Bool) (cs : List Char) :
    Text.lowerFrom afterCased cs = [] ↔ cs = [] := by
  cases cs with
  | nil => simp [Text.lowerFrom]
  | cons c cs =>
    have hsome : Text.lowerAt afterCased c cs ≠ [] := by
      unfold Text.lowerAt
      split
      · split <;> simp
      · split <;> simp
    simp [Text.lowerFrom, hsome]

/-- Only blanks have an empty normal form. -/
theorem normalize_eq_nil_iff (cs : List Char) :
    normalize cs = [] ↔ ∀ c ∈ cs, Text.isBlank c = true := by
  rw [normalize, Text.lowercase, lowerFrom_eq_nil_iff, Text.squeeze_eq_nil_iff, List.forall_mem_map]
  exact forall₂_congr fun c _ => by rw [isBlank_foldChar]

/-! ## The table of rules -/

namespace RuleName

/-- The table follows the priority classes. -/
theorem pairwise_rank : (Enumeration.all : List RuleName).Pairwise fun a b =>
    a.kind.priority.cls.rank ≤ b.kind.priority.cls.rank := by
  decide

theorem kind_ne_unparsed (r : RuleName) : r.kind ≠ .unparsed := by
  cases r <;> decide

/-- Every rule is read from a letter on. -/
theorem letter_of_mem_leads {r : RuleName} :
    ∀ l ∈ leads r.spelled.val, (l.head?.any Reading.isLetterOrDigit) = true := by
  cases r <;> decide

end RuleName

end Clause

namespace Reading

open Clause

/-! ## Accepted matches -/

/-- The first character of an accepted match is a letter. -/
theorem exists_letter_of_accepted {r : RuleName} {n : List Char} {f : Found} {e : Effect}
    (h : (f, e) ∈ accepted r n) : ∃ c more, f.taken = c :: more ∧ isLetterOrDigit c = true := by
  obtain ⟨hfound, -, -⟩ := mem_accepted_iff.1 h
  obtain ⟨l, hl, more, hmore⟩ := exists_lead (mem_ways_of_read? (of_mem_findAll hfound).read)
  rw [r.spelled.property] at hl
  have hletter := RuleName.letter_of_mem_leads l hl
  cases l with
  | nil => cases hletter
  | cons c l => exact ⟨c, l ++ more, hmore.symm, hletter⟩

/-- The kind of an effect is that of the rule that makes it, so it is not unread. -/
theorem kind_of_accepted {r : RuleName} {n : List Char} {f : Found} {e : Effect}
    (h : (f, e) ∈ accepted r n) : e.kind = r.kind :=
  RuleName.kind_build (mem_accepted_iff.1 h).2.2

theorem isUnparsed_of_accepted {r : RuleName} {n : List Char} {f : Found} {e : Effect}
    (h : (f, e) ∈ accepted r n) : e.isUnparsed = false := by
  rw [Bool.eq_false_iff]
  intro hunparsed
  exact r.kind_ne_unparsed ((kind_of_accepted h).symm.trans (Effect.isUnparsed_iff.1 hunparsed))

/-- The accepted matches of all rules, with the effects they make. -/
def acceptedMatches (n : List Char) : List (Found × Effect) := (allAccepted n).flatMap (·.2)

theorem mem_acceptedMatches {n : List Char} {p : Found × Effect} :
    p ∈ acceptedMatches n ↔ ∃ r, p ∈ accepted r n := by
  simp [acceptedMatches, allAccepted, List.mem_flatMap]

theorem accepted_eq_nil {n : List Char} (h : acceptedMatches n = []) (r : RuleName) :
    accepted r n = [] :=
  List.eq_nil_iff_forall_not_mem.2 fun _ hp =>
    List.not_mem_nil (h ▸ mem_acceptedMatches.2 ⟨r, hp⟩)

/-- A text in which some match is accepted. -/
theorem ofText_of_accepted {text : String} (h : normalize text.toList ≠ [])
    (hsome : acceptedMatches (normalize text.toList) ≠ []) :
    ofText text =
      { effects := (acceptedMatches (normalize text.toList)).map (·.2)
        rules := ((allAccepted (normalize text.toList)).filter fun p => !p.2.isEmpty).map (·.1)
        share := shareOf (normalize text.toList)
          ((acceptedMatches (normalize text.toList)).map (·.1)) } := by
  unfold ofText
  dsimp only
  rw [if_neg h]
  exact if_neg hsome

/-- A text in which none is. -/
theorem ofText_of_not_accepted {text : String} (h : normalize text.toList ≠ [])
    (hnone : acceptedMatches (normalize text.toList) = []) :
    ofText text = ⟨[.unparsed text], [], .none⟩ := by
  unfold ofText
  dsimp only
  rw [if_neg h]
  exact if_pos hnone

/-! ## Letters and digits -/

/-- A place of a text with a letter or a digit that lies in an accepted match. -/
def AccountedFor (n : List Char) (i : Nat) : Prop :=
  (∃ c, n[i]? = some c ∧ isLetterOrDigit c = true)
    ∧ ∃ r f e, (f, e) ∈ accepted r n
        ∧ f.before.length ≤ i ∧ i < f.before.length + f.taken.length

theorem covered_iff {n : List Char} {i : Nat} :
    covered (((acceptedMatches n).map (·.1)).map span) i = true
      ↔ ∃ r f e, (f, e) ∈ accepted r n
          ∧ f.before.length ≤ i ∧ i < f.before.length + f.taken.length := by
  have hspan (p : Found × Effect) :
      (decide ((span p.1).1 ≤ i) && decide (i < (span p.1).2)) = true
        ↔ p.1.before.length ≤ i ∧ i < p.1.before.length + p.1.taken.length := by
    rw [Bool.and_eq_true, decide_eq_true_iff, decide_eq_true_iff]
    rfl
  simp only [covered, List.any_map, List.any_eq_true, Function.comp_apply, hspan,
    mem_acceptedMatches]
  constructor
  · rintro ⟨⟨f, e⟩, ⟨r, h⟩, hi⟩
    exact ⟨r, f, e, h, hi⟩
  · rintro ⟨r, f, e, h, hi⟩
    exact ⟨(f, e), ⟨r, h⟩, hi⟩

/-- Counting entries of a list by what they are and where they stand is counting places. -/
theorem countP_zipIdx {α : Type} (l : List α) (p : α × Nat → Bool) :
    l.zipIdx.countP p = {i | ∃ a, l[i]? = some a ∧ p (a, i) = true}.ncard := by
  -- no place stands twice in the list of the entries counted
  have hnodup : ((l.zipIdx.filter p).map Prod.snd).Nodup := by
    have hsub : (l.zipIdx.filter p).Sublist l.zipIdx := List.filter_sublist
    refine (hsub.map Prod.snd).nodup ?_
    rw [List.zipIdx_map_snd]
    exact List.nodup_range'
  have hset : {i | ∃ a, l[i]? = some a ∧ p (a, i) = true}
      = (((l.zipIdx.filter p).map Prod.snd).toFinset : Set Nat) := by
    ext i
    simp only [Set.mem_ofPred_eq, List.coe_toFinset, List.mem_map, List.mem_filter, Prod.exists,
      exists_eq_right, List.mk_mem_zipIdx_iff_getElem?]
  rw [hset, Set.ncard_coe_finset, List.toFinset_card_of_nodup hnodup, List.length_map,
    List.countP_eq_length_filter]

/-- The hits are the places accounted for. -/
theorem hits_shareOf (n : List Char) :
    (shareOf n ((acceptedMatches n).map (·.1))).hits = {i | AccountedFor n i}.ncard := by
  have hset : {i | AccountedFor n i}
      = {i | ∃ a, n[i]? = some a ∧ (isLetterOrDigit a
          && covered (((acceptedMatches n).map (·.1)).map span) i) = true} := by
    ext i
    rw [Set.mem_ofPred_eq, Set.mem_ofPred_eq, AccountedFor, ← covered_iff]
    constructor
    · rintro ⟨⟨c, hc, hletter⟩, hcovered⟩
      exact ⟨c, hc, by rw [hletter, hcovered]; rfl⟩
    · rintro ⟨c, hc, hboth⟩
      rw [Bool.and_eq_true] at hboth
      exact ⟨⟨c, hc, hboth.1⟩, hboth.2⟩
  rw [hset]
  exact countP_zipIdx n _

/-- There are no more hits than letters and digits. -/
theorem hits_le_total (n : List Char) (found : List Found) :
    (shareOf n found).hits ≤ (shareOf n found).total := by
  have hfst : n.zipIdx.countP (fun p => isLetterOrDigit p.1) = n.countP isLetterOrDigit := by
    conv_rhs => rw [← List.zipIdx_map_fst 0 n, List.countP_map]
    rfl
  show n.zipIdx.countP _ ≤ n.countP isLetterOrDigit
  rw [← hfst]
  exact List.countP_mono_left fun p _ hp => (Bool.and_eq_true _ _ ▸ hp).1

/-- The first letter of an accepted match is a hit. -/
theorem hits_pos {n : List Char} (h : acceptedMatches n ≠ []) :
    0 < (shareOf n ((acceptedMatches n).map (·.1))).hits := by
  obtain ⟨⟨f, e⟩, hmem⟩ := List.exists_mem_of_ne_nil _ h
  obtain ⟨r, hacc⟩ := mem_acceptedMatches.1 hmem
  obtain ⟨c, more, htaken, hletter⟩ := exists_letter_of_accepted hacc
  have hplace : n[f.before.length]? = some c := by
    rw [← (of_mem_findAll (mem_accepted_iff.1 hacc).1).text, htaken, ← List.length_reverse]
    simp
  have hcovered : covered (((acceptedMatches n).map (·.1)).map span) f.before.length = true :=
    covered_iff.2 ⟨r, f, e, hacc, Nat.le_refl _, by rw [htaken, List.length_cons]; omega⟩
  refine List.countP_pos_iff.2 ⟨(c, f.before.length), ?_, ?_⟩
  · exact List.mk_mem_zipIdx_iff_getElem?.2 hplace
  · rw [Bool.and_eq_true]
    exact ⟨hletter, hcovered⟩

/-! ## Rules and effects -/

/-- The rules with an accepted match, in the order of the table. -/
theorem rules_eq (n : List Char) :
    ((allAccepted n).filter fun p => !p.2.isEmpty).map (·.1)
      = (Enumeration.all : List RuleName).filter fun r => !(accepted r n).isEmpty := by
  rw [allAccepted, List.filter_map, List.map_map]
  exact List.map_id _

theorem mem_rules_iff {n : List Char} {r : RuleName} :
    r ∈ ((allAccepted n).filter fun p => !p.2.isEmpty).map (·.1)
      ↔ ∃ f e, (f, e) ∈ accepted r n := by
  rw [rules_eq, List.mem_filter, Bool.not_eq_true', List.isEmpty_eq_false_iff_exists_mem]
  exact ⟨fun ⟨_, ⟨f, e⟩, h⟩ => ⟨f, e, h⟩, fun ⟨f, e, h⟩ => ⟨Enumeration.mem_all r, (f, e), h⟩⟩

theorem pairwise_rules (n : List Char) :
    (((allAccepted n).filter fun p => !p.2.isEmpty).map (·.1)).Pairwise
      fun a b => Enumeration.position a < Enumeration.position b := by
  rw [rules_eq]
  exact Enumeration.pairwise_position.filter _

theorem mem_effects_iff {n : List Char} {e : Effect} :
    e ∈ (acceptedMatches n).map (·.2) ↔ ∃ r f, (f, e) ∈ accepted r n := by
  simp only [List.mem_map, mem_acceptedMatches, Prod.exists, exists_eq_right]
  exact exists_comm

/-- Effects come rule by rule, and the table of rules follows the classes. -/
theorem pairwise_classes (n : List Char) :
    ((acceptedMatches n).map (·.2)).Pairwise
      fun a b => a.priority.cls.rank ≤ b.priority.cls.rank := by
  have hpriority {r : RuleName} {p : Found × Effect} (hp : p ∈ accepted r n) :
      p.2.priority = r.kind.priority := by
    rw [Effect.priority, kind_of_accepted hp]
  rw [List.pairwise_map, acceptedMatches, List.pairwise_flatMap, allAccepted, List.pairwise_map]
  constructor
  · intro x hx
    obtain ⟨r, -, rfl⟩ := List.mem_map.1 hx
    refine List.pairwise_of_forall_mem_list fun p hp q hq => ?_
    rw [hpriority hp, hpriority hq]
  · refine RuleName.pairwise_rank.imp fun {r r'} hrank p hp q hq => ?_
    rw [hpriority hp, hpriority hq]
    exact hrank

/-! ## Readings -/

/-- The laws of a reading with accepted matches, `n` being the normal form of the text. -/
structure Accounted (n : List Char) (r : Reading) : Prop where
  effects_ne_nil : r.effects ≠ []
  isUnparsed : ∀ e ∈ r.effects, e.isUnparsed = false
  rules_ne_nil : r.rules ≠ []
  /-- The rules are listed in the order of the table, -/
  rules_sorted : r.rules.Pairwise fun a b => Enumeration.position a < Enumeration.position b
  /-- so none is listed twice. -/
  rules_nodup : r.rules.Nodup
  /-- Every rule listed has made an effect, -/
  contributed : ∀ rule ∈ r.rules, ∃ f e, (f, e) ∈ accepted rule n
    ∧ e ∈ r.effects ∧ e.kind = rule.kind
  /-- and every effect was made by a rule listed. -/
  made : ∀ e ∈ r.effects, ∃ rule ∈ r.rules, ∃ f, (f, e) ∈ accepted rule n ∧ e.kind = rule.kind
  /-- The classes of successive effects never decrease. -/
  classes : r.effects.Pairwise fun a b => a.priority.cls.rank ≤ b.priority.cls.rank
  total_eq : r.share.total = n.countP isLetterOrDigit
  hits_eq : r.share.hits = {i | AccountedFor n i}.ncard
  hits_pos : 0 < r.share.hits
  hits_le : r.share.hits ≤ r.share.total
  confidence_eq : r.confidence = Float32.ofNat r.share.hits / Float32.ofNat r.share.total

/-- A text in which some match is accepted is accounted for. -/
theorem accounted_of_accepted {n : List Char} (h : acceptedMatches n ≠ []) :
    Accounted n
      { effects := (acceptedMatches n).map (·.2)
        rules := ((allAccepted n).filter fun p => !p.2.isEmpty).map (·.1)
        share := shareOf n ((acceptedMatches n).map (·.1)) } where
  effects_ne_nil hnil := h (List.map_eq_nil_iff.1 hnil)
  isUnparsed e he := by
    obtain ⟨r, f, hacc⟩ := mem_effects_iff.1 he
    exact isUnparsed_of_accepted hacc
  rules_ne_nil := by
    obtain ⟨⟨f, e⟩, hp⟩ := List.exists_mem_of_ne_nil _ h
    obtain ⟨r, hacc⟩ := mem_acceptedMatches.1 hp
    exact List.ne_nil_of_mem (mem_rules_iff.2 ⟨f, e, hacc⟩)
  rules_sorted := pairwise_rules n
  rules_nodup :=
    (pairwise_rules n).imp fun hlt => Enumeration.position_inj.not.1 (ne_of_lt hlt)
  contributed rule hrule := by
    obtain ⟨f, e, hacc⟩ := mem_rules_iff.1 hrule
    exact ⟨f, e, hacc, mem_effects_iff.2 ⟨rule, f, hacc⟩, kind_of_accepted hacc⟩
  made e he := by
    obtain ⟨r, f, hacc⟩ := mem_effects_iff.1 he
    exact ⟨r, mem_rules_iff.2 ⟨f, e, hacc⟩, f, hacc, kind_of_accepted hacc⟩
  classes := pairwise_classes n
  total_eq := rfl
  hits_eq := hits_shareOf n
  hits_pos := hits_pos h
  hits_le := hits_le_total n _
  confidence_eq := if_neg (Nat.ne_of_gt (Nat.lt_of_lt_of_le (hits_pos h) (hits_le_total n _)))

/-- A text that is not blank is kept word for word, no rule having a match there, or accounted
for. -/
theorem ofText_unread_or_accounted {text : String} (h : normalize text.toList ≠ []) :
    (∀ rule, accepted rule (normalize text.toList) = [])
        ∧ ofText text = ⟨[.unparsed text], [], .none⟩ ∧ (ofText text).confidence = 0
      ∨ Accounted (normalize text.toList) (ofText text) := by
  by_cases hnone : acceptedMatches (normalize text.toList) = []
  · have hreading := ofText_of_not_accepted h hnone
    refine .inl ⟨accepted_eq_nil hnone, hreading, ?_⟩
    rw [hreading]
    exact Share.toFloat32_none
  · rw [ofText_of_accepted h hnone]
    exact .inr (accounted_of_accepted hnone)

/-- **What a reading tells about its text.**  Every match of a rule, accepted or not, lies in the
text.  A blank text says nothing; blank texts are those with an empty normal form.  Any other text
is kept word for word and trusted for nothing, which happens only where no rule accepts a match, or
it is accounted for. -/
theorem ofText_accounts (text : String) :
    (∀ rule, ∀ f ∈ findAll (RuleName.phrase rule) (normalize text.toList),
        f.before.reverse ++ (f.taken ++ f.after) = normalize text.toList)
      ∧ (normalize text.toList = [] ↔ ∀ c ∈ text.toList, Text.isBlank c = true)
      ∧ (normalize text.toList = [] ∧ ofText text = ⟨[], [], .whole⟩
            ∧ (ofText text).confidence = 1
          ∨ normalize text.toList ≠ []
            ∧ ((∀ rule, accepted rule (normalize text.toList) = [])
                ∧ ofText text = ⟨[.unparsed text], [], .none⟩ ∧ (ofText text).confidence = 0
              ∨ Accounted (normalize text.toList) (ofText text))) := by
  refine ⟨fun rule f hf => (of_mem_findAll hf).text, normalize_eq_nil_iff text.toList, ?_⟩
  by_cases hblank : normalize text.toList = []
  · have hreading : ofText text = ⟨[], [], .whole⟩ := if_pos hblank
    refine .inl ⟨hblank, hreading, ?_⟩
    rw [hreading]
    exact Share.toFloat32_whole
  · exact .inr ⟨hblank, ofText_unread_or_accounted hblank⟩

/-! ### A text of which one sentence is read -/

/-- A draw, and something that no rule knows. -/
def revealText : String := "Draw a card. Your opponent reveals their hand."

/-- The draw stands where its match says, and the text is accounted for. -/
theorem accounts_revealText :
    ∃ f e, (f, e) ∈ accepted .draw (normalize revealText.toList)
      ∧ f.before.reverse ++ (f.taken ++ f.after) = normalize revealText.toList
      ∧ Accounted (normalize revealText.toList) (ofText revealText) := by
  have hdraw : ∃ f, (f, .searchOrDraw (.draw 1)) ∈ accepted .draw (normalize revealText.toList)
      ∧ startsWith "." f.after = true := by
    refine exists_accepted (p := fun f => startsWith "." f.after) ?_
    rw [revealText, String.toList_ofList]
    decide
  obtain ⟨f, hf, -⟩ := hdraw
  obtain ⟨hplace, -, hlaws⟩ := ofText_accounts revealText
  have htext := hplace .draw f (mem_accepted_iff.1 hf).1
  refine ⟨f, _, hf, htext, ?_⟩
  rcases hlaws with ⟨hblank, -⟩ | ⟨-, ⟨hnone, -⟩ | haccounted⟩
  · -- the match has a first letter, and a blank text has none
    obtain ⟨c, more, htaken, -⟩ := exists_letter_of_accepted hf
    rw [hblank, htaken] at htext
    simp at htext
  · rw [hnone] at hf
    cases hf
  · exact haccounted

end Reading

end CardEffects
