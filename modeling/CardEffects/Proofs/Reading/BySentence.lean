/-
  CardEffects.Proofs.Reading.BySentence

  Plain rules and full stops.  All plain rules but one read a text sentence by sentence, so what
  they accept in a part of it that ends with a full stop does not depend on what follows, and the
  other way round.  The rule for searches is the exception: it leaves open what is searched for, and
  reads on to the words that close the clause wherever they come next, be it sentences later.

    * `Reading.accepted_sentences` — what a plain rule accepts, sentence by sentence.
    * `SearchMatch`, `search_spec` — how far a search reads.
    * `SearchMatch.dot_mem_criteria_iff` — when that is beyond its sentence.
    * `Reading.ClosesInSentence`, `Reading.closesInSentence_iff` — the searches that are not.
    * `Reading.BySentence`, `Reading.bySentence` — all of this together.
-/
import CardEffects.Proofs.Reading.FullStops
import CardEffects.Proofs.Reading.Gate

namespace CardEffects.Reading

open Clause

/-! ## What plain rules accept -/

/-- All plain rules but that for searches end with the sentence. -/
theorem dotLast_of_plain {r : RuleName} :
    r.place = .plain → r ≠ .search → dotLast r.spelled.val = true := by
  cases r <;> decide

/-- Behind a full stop a new sentence begins, whatever stood before. -/
theorem admits_behind (r : RuleName) (front : List Char) (f : Found) :
    admits r (f.behind (front ++ ['.'])) = admits r f := by
  have hsentence : sentenceBefore (f.before ++ '.' :: front.reverse) = sentenceBefore f.before := by
    rw [sentenceBefore, sentenceBefore, List.takeWhile_append]
    split
    next hlen =>
      have hall := List.IsPrefix.eq_of_length (List.takeWhile_prefix _) hlen
      rw [hall]
      simp
    next => rfl
  have hgated : isGated (f.before ++ (front ++ ['.']).reverse) = isGated f.before := by
    rw [List.reverse_append, List.reverse_singleton, List.singleton_append, isGated, isGated,
      hsentence]
  unfold admits Found.behind
  rw [hgated]

/-- What a rule makes of matches does not change with the places that they stand at. -/
theorem accept_map {r : RuleName} {move : Found → Found}
    (hadmits : ∀ f, admits r (move f) = admits r f) (hbuild : ∀ f, r.build (move f) = r.build f)
    (found : List Found) :
    ((found.map move).filter (admits r)).filterMap (fun f => (r.build f).map fun e => (f, e))
      = ((found.filter (admits r)).filterMap fun f => (r.build f).map fun e => (f, e)).map
          fun p => (move p.1, p.2) := by
  have hsame : admits r ∘ move = admits r := funext hadmits
  rw [List.filter_map, hsame, List.filterMap_map, List.map_filterMap]
  refine List.filterMap_congr fun f _ => ?_
  rw [Function.comp_apply, hbuild, Option.map_map]
  rfl

/-- **A plain rule reads a text sentence by sentence.**  In a text that ends with a full stop it
accepts what it accepts when the text goes on, and no match reaches into what follows. -/
theorem accepted_sentences {r : RuleName} (hplain : r.place = .plain) (hr : r ≠ .search)
    (front rest : List Char) :
    accepted r (front ++ '.' :: rest)
      = (accepted r (front ++ ['.'])).map (fun p => (p.1.extend rest, p.2))
        ++ (accepted r rest).map (fun p => (p.1.behind (front ++ ['.']), p.2)) := by
  have hp : dotLast r.phrase = true := by
    rw [r.spelled.property]
    exact dotLast_of_plain hplain hr
  have hextend (f : Found) : admits r (f.extend rest) = admits r f := rfl
  rw [accepted, findAll_extend hp, List.filter_append, List.filterMap_append,
    accept_map hextend fun f => r.build_after f _,
    accept_map (admits_behind r front) fun f => r.build_before f _]
  rfl

end CardEffects.Reading

namespace CardEffects.Clause

/-! ## Searches -/

/-- A run ends at the first place, behind its least length, where the rest can be read. -/
theorem exists_of_runThen {β : Type} {ok : Char → Bool} {next : List Char → Option β}
    {least : Nat} {seen cs taken rest : List Char} {b : β}
    (h : runThen ok next least seen cs = some (taken, rest, b)) :
    ∃ run, taken = seen.reverse ++ run ∧ run ++ rest = cs ∧ next rest = some b
      ∧ least ≤ run.length ∧ ∀ i, least ≤ i → i < run.length → next (cs.drop i) = none := by
  -- along the text; each character passed is one more of the run, behind which nothing was read
  induction cs generalizing least seen with
  | nil =>
    unfold runThen at h
    split at h
    next hleast =>
      obtain ⟨c, hc, hsome⟩ := Option.map_eq_some_iff.1 h
      obtain ⟨rfl, rfl, rfl⟩ : seen.reverse = taken ∧ [] = rest ∧ c = b := by simpa using hsome
      exact ⟨[], by simp, rfl, hc, by simp [hleast], fun i _ hi => absurd hi (Nat.not_lt_zero i)⟩
    next => cases h
  | cons c cs ih =>
    unfold runThen at h
    split at h
    next a ha =>
      obtain ⟨rfl, rfl, rfl⟩ : seen.reverse = taken ∧ c :: cs = rest ∧ a = b := by simpa using h
      split at ha
      next hleast =>
        exact ⟨[], by simp, rfl, ha, by simp [hleast],
          fun i _ hi => absurd hi (Nat.not_lt_zero i)⟩
      next => cases ha
    next hnone =>
      split at h
      next hc =>
        obtain ⟨run, htaken, hcut, hnext, hlen, hshort⟩ := ih h
        refine ⟨c :: run, ?_, ?_, hnext, ?_, ?_⟩
        · rw [htaken, List.reverse_cons, List.append_assoc, List.singleton_append]
        · rw [List.cons_append, hcut]
        · rw [List.length_cons]
          omega
        · intro i hi hlt
          cases i with
          | zero =>
            rw [if_pos (Nat.le_zero.1 hi)] at hnone
            exact hnone
          | succ i =>
            rw [List.length_cons] at hlt
            exact hshort i (by omega) (by omega)
      next => cases h

/-- The words that close a search. -/
def closing : List Char := " from your deck into your hand".toList

/-- A match of the rule for searches: what is searched for goes up to the first closing words. -/
structure SearchMatch (criteria : List Char) (w : Way) : Prop where
  filled : w.filled = [(.criteria, criteria)]
  /-- The match is an opening without a full stop, what is searched for, and the closing words. -/
  taken : ∃ opening, '.' ∉ opening ∧ w.taken = opening ++ (criteria ++ closing)
  ne_nil : criteria ≠ []
  /-- Behind the first character searched for, the closing words come no earlier. -/
  first : ∀ i, 1 ≤ i → i < criteria.length →
    ¬ closing <+: (criteria ++ (closing ++ w.rest)).drop i

/-- The closing words are read where they stand. -/
theorem readThen_closing (cs : List Char) :
    readThen (.wordOf [closing]) some cs
      = (afterWord? closing cs).map fun rest => (⟨closing, [], rest⟩, rest) := by
  rw [readThen, List.findSome?_cons, List.findSome?_nil]
  cases afterWord? closing cs <;> rfl

theorem afterWord?_eq_none_iff {w cs : List Char} : afterWord? w cs = none ↔ ¬ w <+: cs := by
  constructor
  · rintro hnone ⟨rest, rfl⟩
    rw [afterWord?_append] at hnone
    cases hnone
  · intro h
    rw [Option.eq_none_iff_forall_ne_some]
    exact fun rest hrest => h ⟨rest, append_of_afterWord? hrest⟩

/-- What is searched for, and the closing words. -/
theorem search_closing {cs : List Char} {w : Way}
    (h : read? (.both (.slot .criteria (.run .any 1)) (.wordOf [closing])) cs = some w) :
    ∃ criteria, w.filled = [(.criteria, criteria)] ∧ w.taken = criteria ++ closing
      ∧ criteria ≠ [] ∧ ∀ i, 1 ≤ i → i < criteria.length →
          ¬ closing <+: (criteria ++ (closing ++ w.rest)).drop i := by
  rw [read?, readThen, readThen, readThen, Option.map_map, Option.map_map, Option.map_map] at h
  obtain ⟨⟨taken, rest, v, rest'⟩, hrun, rfl⟩ := Option.map_eq_some_iff.1 h
  obtain ⟨criteria, htaken, rfl, hnext, hleast, hfirst⟩ := exists_of_runThen hrun
  obtain rfl : criteria = taken := htaken.symm
  rw [readThen_closing, Option.map_eq_some_iff] at hnext
  obtain ⟨after, hafter, heq⟩ := hnext
  obtain ⟨rfl, rfl⟩ := Prod.mk.inj heq
  refine ⟨criteria, rfl, rfl, List.length_pos_iff.1 hleast, fun i hi hlt => ?_⟩
  have hnone := hfirst i hi hlt
  rw [readThen_closing, Option.map_eq_none_iff, afterWord?_eq_none_iff,
    ← append_of_afterWord? hafter] at hnone
  exact hnone

/-- A search begins with a few words without a full stop. -/
theorem search_spec {cs : List Char} {w : Way} (h : read? RuleName.search.phrase cs = some w) :
    ∃ criteria, SearchMatch criteria w := by
  have hphrase : RuleName.search.phrase
      = .both (Phrase.word "put ") (.both (.optional (Phrase.words ["a ", "1 "]))
          (.both (Phrase.word "random ")
            (.both (.slot .criteria (.run .any 1)) (.wordOf [closing])))) := rfl
  rw [hphrase] at h
  obtain ⟨a, ha, b, hb, rfl⟩ := exists_of_read?_both h
  obtain ⟨a', ha', b', hb', rfl⟩ := exists_of_read?_both hb
  obtain ⟨a'', ha'', b'', hb'', rfl⟩ := exists_of_read?_both hb'
  have hput : dotless (Phrase.word "put ") = true ∧ slotsOf (Phrase.word "put ") = [] := by decide
  have harticle : dotless (.optional (Phrase.words ["a ", "1 "])) = true
      ∧ slotsOf (.optional (Phrase.words ["a ", "1 "])) = [] := by decide
  have hrandom : dotless (Phrase.word "random ") = true
      ∧ slotsOf (Phrase.word "random ") = [] := by decide
  obtain ⟨criteria, hfilled, htaken, hne, hfirst⟩ := search_closing hb''
  refine ⟨criteria, ?_, ⟨a.taken ++ (a'.taken ++ a''.taken), ?_, ?_⟩, hne, hfirst⟩
  · rw [filled_eq_nil ha hput.2, filled_eq_nil ha' harticle.2, filled_eq_nil ha'' hrandom.2,
      hfilled]
    rfl
  · rw [List.mem_append, List.mem_append, not_or, not_or]
    exact ⟨not_mem_of_dotless hput.1 ha, not_mem_of_dotless harticle.1 ha',
      not_mem_of_dotless hrandom.1 ha''⟩
  · simp only [htaken, List.append_assoc]

namespace SearchMatch

variable {criteria : List Char} {w : Way} (h : SearchMatch criteria w)
include h

/-- The match leaves its sentence exactly when what is searched for does. -/
theorem dot_mem_iff : '.' ∈ w.taken.dropLast ↔ '.' ∈ criteria := by
  obtain ⟨opening, hopening, htaken⟩ := h.taken
  have hclosing : closing ≠ [] ∧ '.' ∉ closing.dropLast := by decide
  rw [htaken, ← List.append_assoc, List.dropLast_append_of_ne_nil hclosing.1, List.mem_append,
    List.mem_append]
  tauto

/-- That is when the closing words do not come before the end of the sentence. -/
theorem dot_mem_criteria_iff :
    '.' ∈ criteria
      ↔ ¬ closing <:+: ((criteria ++ (closing ++ w.rest)).takeWhile (· ≠ '.')).tail := by
  have hnodot : ∀ c ∈ closing, decide (c ≠ '.') = true := List.all_eq_true.1 (by decide)
  rw [iff_not_comm]
  constructor
  · rintro ⟨front, back, hinfix⟩ hdot
    generalize htext : criteria ++ (closing ++ w.rest) = text at hinfix
    have hsentence : text.takeWhile (· ≠ '.') <+: text := List.takeWhile_prefix _
    cases hs : text.takeWhile (· ≠ '.') with
    | nil =>
      rw [hs] at hinfix
      exact absurd (List.append_eq_nil_iff.1 (List.append_eq_nil_iff.1 hinfix).1).2 (by decide)
    | cons c s =>
      rw [hs] at hinfix hsentence
      obtain rfl : front ++ closing ++ back = s := hinfix
      obtain ⟨more, hmore⟩ := hsentence
      -- the closing words stand behind `front`, so what is searched for goes no further
      have hplace : closing <+: text.drop (front.length + 1) := by
        refine ⟨back ++ more, ?_⟩
        rw [← hmore]
        simp
      have hlen : criteria.length ≤ (c :: (front ++ closing ++ back)).length := by
        by_contra hlong
        simp only [List.length_cons, List.length_append] at hlong
        exact h.first (front.length + 1) (by omega) (by omega) (htext ▸ hplace)
      have hwithin : criteria <+: c :: (front ++ closing ++ back) :=
        List.prefix_of_prefix_length_le ⟨_, htext⟩ ⟨more, hmore⟩ hlen
      have hmem : '.' ∈ text.takeWhile (· ≠ '.') := hs ▸ hwithin.mem hdot
      exact absurd (List.all_eq_true.1 List.all_takeWhile '.' hmem) (by decide)
  · intro hdot
    have hcriteria : ∀ c ∈ criteria, decide (c ≠ '.') = true := by
      intro c hc
      rw [decide_eq_true_eq]
      rintro rfl
      exact hdot hc
    rw [List.takeWhile_append_of_pos hcriteria, List.takeWhile_append_of_pos hnodot]
    obtain ⟨c, rest, hne⟩ := List.exists_cons_of_ne_nil h.ne_nil
    rw [hne]
    exact ⟨rest, w.rest.takeWhile (· ≠ '.'), by simp⟩

end SearchMatch

end CardEffects.Clause

namespace CardEffects.Reading

open Clause

/-! ## By sentences -/

/-- Places with no full stop between them are in one sentence. -/
theorem sentenceAt_add (as bs : List Char) {j : Nat} (h : '.' ∉ bs.take j) :
    sentenceAt (as ++ bs) (as.length + j) = sentenceAt (as ++ bs) as.length := by
  have hcount : ((as ++ bs).take (as.length + j)).count '.'
      = ((as ++ bs).take as.length).count '.' := by
    rw [List.take_length_add_append, List.take_left, List.count_append, List.count_eq_zero.2 h,
      Nat.add_zero]
  rw [sentenceAt, hcount, sentenceAt]

/-- All the plain rules make effects that happen at once. -/
theorem isPlain_of_place {r : RuleName} : r.place = .plain → r.kind.isPlain = true := by
  cases r <;> decide

theorem not_mem_dropLast_of_plain {r : RuleName} {n : List Char} (hplain : r.place = .plain)
    (hr : r ≠ .search) {f : Found} (hf : f ∈ findAll r.phrase n) : '.' ∉ f.taken.dropLast := by
  have hp : dotLast r.phrase = true := by
    rw [r.spelled.property]
    exact dotLast_of_plain hplain hr
  exact not_mem_dropLast_of_dotLast hp (mem_ways_of_read? (of_mem_findAll hf).read)

/-- The words that close a search come in the sentence in which what is searched for begins. -/
def ClosesInSentence (f : Found) : Prop :=
  ∃ criteria, f.get? .criteria = some criteria
    ∧ closing <:+: ((criteria ++ (closing ++ f.after)).takeWhile (· ≠ '.')).tail

theorem get?_criteria {f : Found} {criteria : List Char}
    (h : SearchMatch criteria ⟨f.taken, f.filled, f.after⟩) : f.get? .criteria = some criteria := by
  have hfilled : f.filled = [(.criteria, criteria)] := h.filled
  rw [Found.get?, hfilled]
  rfl

theorem closesInSentence_iff {n : List Char} {f : Found}
    (hf : f ∈ findAll RuleName.search.phrase n) :
    ClosesInSentence f ↔ '.' ∉ f.taken.dropLast := by
  obtain ⟨criteria, hmatch⟩ := search_spec (of_mem_findAll hf).read
  have hdot : '.' ∈ f.taken.dropLast ↔ '.' ∈ criteria := hmatch.dot_mem_iff
  rw [hdot, hmatch.dot_mem_criteria_iff, not_not, ClosesInSentence, get?_criteria hmatch]
  constructor
  · rintro ⟨criteria', hcriteria, hclosing⟩
    obtain rfl := Option.some.inj hcriteria
    exact hclosing
  · exact fun hclosing => ⟨criteria, rfl, hclosing⟩

/-- What the matches of plain rules in a text have to do with its sentences. -/
structure BySentence (n : List Char) : Prop where
  /-- A match of a plain rule has no full stop but at its end, -/
  within : ∀ r : RuleName, r.place = .plain → r ≠ .search →
    ∀ f ∈ findAll r.phrase n, '.' ∉ f.taken.dropLast
  /-- so no place in an accepted match is in a sentence with a gate. -/
  ungated : ∀ r : RuleName, r.place = .plain → r ≠ .search →
    ∀ f e, (f, e) ∈ accepted r n →
      ∀ j, j < f.taken.length → opensGate (sentenceAt n (f.before.length + j)) = false
  /-- When the text goes on behind a full stop it accepts what it accepts up to there, and what it
  accepts in the rest. -/
  sentences : ∀ r : RuleName, r.place = .plain → r ≠ .search →
    ∀ front rest, n = front ++ '.' :: rest →
      accepted r n
        = (accepted r (front ++ ['.'])).map (fun p => (p.1.extend rest, p.2))
          ++ (accepted r rest).map (fun p => (p.1.behind (front ++ ['.']), p.2))
  /-- The rule for searches is plain, but what is searched for goes up to the first closing words,
  and a match has a full stop inside when what is searched for has one. -/
  searches : RuleName.search.place = .plain
    ∧ ∀ f ∈ findAll RuleName.search.phrase n,
      ∃ criteria, SearchMatch criteria ⟨f.taken, f.filled, f.after⟩
        ∧ RuleName.search.build f
          = some (.searchOrDraw (.search (String.ofList (Text.trim criteria))))
        ∧ ('.' ∈ f.taken.dropLast ↔ '.' ∈ criteria)
  /-- So the plain rules keep to sentences exactly when the searches come to their closing words in
  the sentence they begin in. -/
  kept_iff : (∀ r : RuleName, r.place = .plain →
      ∀ f e, (f, e) ∈ accepted r n → '.' ∉ f.taken.dropLast)
    ↔ ∀ f e, (f, e) ∈ accepted .search n → ClosesInSentence f

/-- **Plain rules keep to sentences, but for searches.** -/
theorem bySentence (n : List Char) : BySentence n where
  within _ hplain hr _ hf := not_mem_dropLast_of_plain hplain hr hf
  ungated r hplain hr f e h j hj := by
    obtain ⟨hfound, -, hbuild⟩ := mem_accepted_iff.1 h
    have hgate := not_opensGate_of_accepted h
      (RuleName.kind_build hbuild ▸ isPlain_of_place hplain)
    -- the match is in the sentence of its first character
    have hdot : '.' ∉ (f.taken ++ f.after).take j := by
      rw [List.take_append_of_le_length (Nat.le_of_lt hj)]
      intro hmem
      refine not_mem_dropLast_of_plain hplain hr hfound ?_
      rw [List.dropLast_eq_take]
      exact (List.take_prefix_take_left (by omega)).mem hmem
    rw [← (of_mem_findAll hfound).text, ← List.length_reverse] at hgate ⊢
    rw [sentenceAt_add _ _ hdot, hgate]
  sentences r hplain hr front rest hn := by
    rw [hn, accepted_sentences hplain hr]
  searches := by
    refine ⟨rfl, fun f hf => ?_⟩
    obtain ⟨criteria, hmatch⟩ := search_spec (of_mem_findAll hf).read
    refine ⟨criteria, hmatch, ?_, hmatch.dot_mem_iff⟩
    rw [RuleName.build, get?_criteria hmatch]
    rfl
  kept_iff := by
    constructor
    · intro h f e hacc
      exact (closesInSentence_iff (mem_accepted_iff.1 hacc).1).2 (h .search rfl f e hacc)
    · intro h r hplain f e hacc
      have hfound := (mem_accepted_iff.1 hacc).1
      by_cases hr : r = .search
      · subst hr
        exact (closesInSentence_iff hfound).1 (h f e hacc)
      · exact not_mem_dropLast_of_plain hplain hr hfound

/-! ### A search across sentences -/

/-- A card is put below the deck, and behind a gate one is taken from it. -/
def bottomText : String :=
  "Put a random card from your hand on the bottom of your deck. Flip a coin. If heads, put a Pokémon from your deck into your hand."

/-- Two sentences further on, behind the gate, the rule finds the words that close a search; so all
the text is read as one search that asks for no coin. -/
theorem search_leaves_sentence :
    RuleName.search.place = .plain
      ∧ (∃ f e, (f, e) ∈ accepted .search (normalize bottomText.toList)
        ∧ '.' ∈ f.taken.dropLast)
      ∧ (ofText bottomText).effects
        = [.searchOrDraw (.search
            "card from your hand on the bottom of your deck. flip a coin. if heads, put a pokemon")] := by
  refine ⟨rfl, ?_, ?_⟩
  · have hfound : ∃ f, (f, Effect.searchOrDraw (.search
        "card from your hand on the bottom of your deck. flip a coin. if heads, put a pokemon"))
          ∈ accepted .search (normalize bottomText.toList)
        ∧ f.taken.dropLast.contains '.' = true := by
      refine exists_accepted (p := fun f => f.taken.dropLast.contains '.') ?_
      rw [bottomText, String.toList_ofList]
      decide +kernel
    obtain ⟨f, hf, hdot⟩ := hfound
    exact ⟨f, _, hf, List.contains_iff_mem.1 hdot⟩
  · refine effects_ofText (by decide) ?_
    rw [bottomText, String.toList_ofList]
    decide +kernel

end CardEffects.Reading
