/-
  CardEffects.Proofs.Reading.Gate

  Nothing plain is read behind a gate.  Whether a place is gated is decided by what stands before
  it in its sentence; a plain rule cannot begin inside the words that open a gate, so that decides
  the whole sentence.  And in a single sentence no rule for coins can be read at all, as each of
  them goes on behind a full stop.

    * `sentenceAt` — the sentence of a place, the text being cut at full stops.
    * `sentenceAt_eq` — the part before the place, then the part from it on.
    * `opensGate_append` — a gate is not completed by the words that plain rules begin with.
    * `Reading.gate_closed` — plain effects come from sentences without a gate; a single sentence
      with a gate gives conditional damage, or stays unread.
-/
import CardEffects.Proofs.Reading.Matches

namespace CardEffects

/-- The kinds of effect that happen at once, with nothing to wait for. -/
def EffectKind.isPlain : EffectKind → Bool
  | conditionApply | conditionApplyRandom | energyScalingDamage | benchScalingDamage | damageBonus
  | heal | healFull | energyAttach | energyDiscard | searchOrDraw => true
  | coinFlipDamage | coinFlipEnergy | coinFlipConditional | conditionalDamage | unparsed => false

namespace Clause

/-! ## Sentences -/

/-- The sentence in which place `i` of a text lies, the text being cut at every full stop. -/
def sentenceAt (n : List Char) (i : Nat) : List Char :=
  (n.splitOn '.').getD ((n.take i).count '.') []

/-- Whether a sentence opens with a coin flip or an "if". -/
def opensGate (sentence : List Char) : Bool :=
  startsWith "if " (Text.trimStart sentence) || startsWith "flip " (Text.trimStart sentence)

private theorem all_ne_dot {as : List Char} (h : '.' ∉ as) :
    ∀ c ∈ as, decide (c ≠ '.') = true := by
  intro c hc
  simp only [decide_eq_true_eq]
  rintro rfl
  exact h hc

theorem sentenceBefore_of_not_mem {as : List Char} (h : '.' ∉ as) :
    sentenceBefore as.reverse = as := by
  have htake : (as.reverse ++ []).takeWhile (fun c => decide (c ≠ '.')) = as.reverse ++ [] :=
    List.takeWhile_append_of_pos (all_ne_dot fun hdot => h (List.mem_reverse.1 hdot))
  rw [List.append_nil] at htake
  rw [sentenceBefore, htake, List.reverse_reverse]

/-- One character more in front, of a text with a full stop or without. -/
theorem sentenceBefore_concat (a : Char) (as : List Char) :
    sentenceBefore (as.reverse ++ [a])
      = if '.' ∈ as then sentenceBefore as.reverse else if a = '.' then as else a :: as := by
  by_cases has : '.' ∈ as
  · obtain ⟨pre, post, hsplit⟩ := List.append_of_mem (List.mem_reverse.2 has)
    rw [if_pos has, sentenceBefore, sentenceBefore, hsplit, List.append_assoc, List.cons_append,
      List.takeWhile_append, List.takeWhile_append]
    simp
  · have hrev : '.' ∉ as.reverse := fun hdot => has (List.mem_reverse.1 hdot)
    rw [if_neg has, sentenceBefore, List.takeWhile_append_of_pos (all_ne_dot hrev)]
    by_cases ha : a = '.' <;> simp [ha]

/-- The sentence of a place is what stands before the place since the last full stop, and what
stands from there on up to the next. -/
theorem sentenceAt_eq (as bs : List Char) :
    sentenceAt (as ++ bs) as.length
      = sentenceBefore as.reverse ++ bs.takeWhile (· ≠ '.') := by
  unfold sentenceAt
  rw [List.take_left]
  -- on the part before the place; as long as it holds a full stop, one more in front only moves
  -- the sentence on by one
  induction as with
  | nil =>
    show (bs.splitOn '.').getD 0 [] = bs.takeWhile (· ≠ '.')
    induction bs with
    | nil => rfl
    | cons b bs ih =>
      rw [List.splitOn_cons_eq_if_modifyHead]
      by_cases hb : b = '.'
      · simp [hb]
      · obtain ⟨x, xs, hx⟩ := List.exists_cons_of_ne_nil (List.splitOn_ne_nil '.' bs)
        rw [hx] at ih
        simpa [hx, hb] using ih
  | cons a as ih =>
    rw [List.cons_append, List.splitOn_cons_eq_if_modifyHead, List.reverse_cons,
      sentenceBefore_concat]
    obtain ⟨x, xs, hx⟩ := List.exists_cons_of_ne_nil (List.splitOn_ne_nil '.' (as ++ bs))
    rw [hx] at ih ⊢
    by_cases has : '.' ∈ as
    · -- the sentence begins behind `a`
      obtain ⟨k, hk⟩ := Nat.exists_eq_add_of_lt (List.count_pos_iff.2 has)
      rw [hk] at ih
      by_cases ha : a = '.' <;> simpa [ha, has, hk] using ih
    · -- the sentence begins with `a`, or behind it when it is a full stop
      have hcount : as.count '.' = 0 := List.count_eq_zero.2 has
      rw [hcount, sentenceBefore_of_not_mem has] at ih
      by_cases ha : a = '.' <;> simpa [ha, has, hcount] using ih

/-! ## Gates -/

/-- The words that open a gate. -/
def gateWords : List (List Char) := ["if ".toList, "flip ".toList]

theorem gateWord_spec :
    ∀ w ∈ gateWords, (w.head?.any fun c => !Text.isBlank c) = true ∧ '.' ∉ w := by
  decide

theorem opensGate_iff {s : List Char} :
    opensGate s = true ↔ ∃ w ∈ gateWords, w <+: Text.trimStart s := by
  simp [opensGate, gateWords, startsWith]

theorem isGated_eq_opensGate (before : List Char) :
    isGated before = opensGate (sentenceBefore before) := rfl

/-- A word that starts with no blank ends what is trimmed. -/
theorem trimStart_append {l : List Char} (h : (l.head?.any fun c => !Text.isBlank c) = true)
    (s more : List Char) :
    Text.trimStart (s ++ (l ++ more)) = Text.trimStart s ++ (l ++ more) := by
  cases l with
  | nil => cases h
  | cons c l =>
    have hblank : Text.isBlank c = false := by simpa using h
    have hfirst : (c :: l ++ more).dropWhile Text.isBlank = c :: l ++ more := by
      rw [List.cons_append, List.dropWhile_cons_of_neg (by simp [hblank])]
    unfold Text.trimStart
    rw [List.dropWhile_append, hfirst]
    split
    next hempty => rw [List.isEmpty_iff.1 hempty, List.nil_append]
    next => rfl

/-- Whether a word ends no sentence, starts with no blank, and is not what follows when the words
that open a gate are cut anywhere. -/
def avoidsGate (l : List Char) : Bool :=
  !l.contains '.' && (l.head?.any fun c => !Text.isBlank c)
    && gateWords.all fun w => (List.range w.length).all fun k =>
        !(w.drop k).isPrefixOf l && !l.isPrefixOf (w.drop k)

/-- Such a word neither opens a gate nor completes one. -/
theorem opensGate_append {l : List Char} (h : avoidsGate l = true) (s more : List Char) :
    opensGate (s ++ (l ++ more)) = opensGate s := by
  simp only [avoidsGate, Bool.and_eq_true, List.all_eq_true, List.mem_range, Bool.not_eq_true',
    ← Bool.not_eq_true, List.isPrefixOf_iff_prefix] at h
  obtain ⟨⟨-, hfirst⟩, hcuts⟩ := h
  rw [Bool.eq_iff_iff, opensGate_iff, opensGate_iff, trimStart_append hfirst]
  refine ⟨?_, fun ⟨w, hw, hs⟩ => ⟨w, hw, hs.trans (List.prefix_append _ _)⟩⟩
  rintro ⟨w, hw, hall⟩
  refine ⟨w, hw, ?_⟩
  rcases List.prefix_or_prefix_of_prefix hall (List.prefix_append (Text.trimStart s) (l ++ more))
    with hs | ⟨q, rfl⟩
  · exact hs
  · cases q with
    | nil => simp
    | cons c q =>
      -- the gate is cut by the place, and what is left of it begins as the word does
      have hq : c :: q <+: l ++ more := (List.prefix_append_right_inj _).1 hall
      have hcut := hcuts _ hw (Text.trimStart s).length (by simp)
      rw [List.drop_left] at hcut
      rcases List.prefix_or_prefix_of_prefix hq (List.prefix_append l more) with hql | hlq
      · exact absurd hql hcut.1
      · exact absurd hlq hcut.2

/-! ## The rules -/

namespace RuleName

theorem place_of_isPlain {r : RuleName} : r.kind.isPlain = true → r.place = .plain := by
  cases r <;> decide

/-- Where a plain rule is read, no gate is opened and none completed. -/
theorem avoidsGate_of_mem_leads {r : RuleName} :
    r.place = .plain → ∀ l ∈ leads r.spelled.val, avoidsGate l = true := by
  cases r <;> decide

/-- Every rule that is neither plain nor for conditional damage is read past a full stop. -/
theorem isPlain_or_stops (r : RuleName) :
    r.kind.isPlain = true ∨ stops r.spelled.val = true ∨ r.kind = .conditionalDamage := by
  cases r <;> decide

end RuleName

end Clause

/-! ## Readings -/

namespace Reading

open Clause

/-- What a plain rule reads begins with a word that has nothing to do with gates. -/
theorem exists_lead_of_accepted {r : RuleName} {n : List Char} {f : Found} {e : Effect}
    (h : (f, e) ∈ accepted r n) (hplain : e.kind.isPlain = true) :
    r.place = .plain ∧ ∃ l more, l ++ more = f.taken ∧ avoidsGate l = true := by
  obtain ⟨hfound, -, hbuild⟩ := mem_accepted_iff.1 h
  have hplace : r.place = .plain :=
    RuleName.place_of_isPlain (RuleName.kind_build hbuild ▸ hplain)
  obtain ⟨l, hl, more, hmore⟩ := exists_lead (mem_ways_of_read? (of_mem_findAll hfound).read)
  rw [r.spelled.property] at hl
  exact ⟨hplace, l, more, hmore, RuleName.avoidsGate_of_mem_leads hplace l hl⟩

/-- A plain match has a first character. -/
theorem taken_ne_nil_of_accepted {r : RuleName} {n : List Char} {f : Found} {e : Effect}
    (h : (f, e) ∈ accepted r n) (hplain : e.kind.isPlain = true) : f.taken ≠ [] := by
  obtain ⟨-, l, more, hmore, havoids⟩ := exists_lead_of_accepted h hplain
  intro hnil
  rw [hnil, List.append_eq_nil_iff] at hmore
  rw [hmore.1] at havoids
  exact absurd havoids (by decide)

/-- Where a plain rule is accepted, the whole sentence is without a gate. -/
theorem not_opensGate_of_accepted {r : RuleName} {n : List Char} {f : Found} {e : Effect}
    (h : (f, e) ∈ accepted r n) (hplain : e.kind.isPlain = true) :
    opensGate (sentenceAt n f.before.length) = false := by
  obtain ⟨hfound, hadmits, -⟩ := mem_accepted_iff.1 h
  obtain ⟨hplace, l, more, hmore, havoids⟩ := exists_lead_of_accepted h hplain
  -- the word that the rule begins with is in the sentence of its place
  have hdots : '.' ∉ l := by
    simp only [avoidsGate, Bool.and_eq_true, Bool.not_eq_true', ← Bool.not_eq_true,
      List.contains_iff_mem] at havoids
    exact havoids.1.1
  rw [← (of_mem_findAll hfound).text, ← List.length_reverse, sentenceAt_eq, List.reverse_reverse,
    ← hmore, List.append_assoc, List.takeWhile_append_of_pos (all_ne_dot hdots),
    opensGate_append havoids]
  -- so what was asked of the text before it decides
  simpa [admits, hplace, isGated_eq_opensGate] using hadmits

/-- In a text of one sentence every place is gated if the text opens a gate. -/
theorem opensGate_sentenceAt {as bs : List Char} (hbs : bs ≠ [])
    (hgate : (startsWith "if " (as ++ bs) || startsWith "flip " (as ++ bs)) = true)
    (hdot : '.' ∉ (as ++ bs).dropLast) : opensGate (sentenceAt (as ++ bs) as.length) = true := by
  have has : '.' ∉ as := by
    rw [List.dropLast_append_of_ne_nil hbs] at hdot
    exact fun h => hdot (List.mem_append_left _ h)
  have hwhole : sentenceAt (as ++ bs) as.length = (as ++ bs).takeWhile (· ≠ '.') := by
    rw [sentenceAt_eq, sentenceBefore_of_not_mem has,
      List.takeWhile_append_of_pos (all_ne_dot has)]
  obtain ⟨w, hw, more, hmore⟩ : ∃ w ∈ gateWords, w <+: as ++ bs := by
    simpa [gateWords, startsWith] using hgate
  obtain ⟨hfirst, hdots⟩ := gateWord_spec w hw
  rw [hwhole, ← hmore, List.takeWhile_append_of_pos (all_ne_dot hdots), opensGate_iff]
  refine ⟨w, hw, ?_⟩
  rw [← List.nil_append (w ++ _), trimStart_append hfirst]
  exact List.prefix_append w _

/-- In a text of one sentence that opens a gate only conditional damage is accepted. -/
theorem kind_of_accepted_of_gate {r : RuleName} {n : List Char} {f : Found} {e : Effect}
    (hgate : (startsWith "if " n || startsWith "flip " n) = true) (hdot : '.' ∉ n.dropLast)
    (h : (f, e) ∈ accepted r n) : e.kind = .conditionalDamage := by
  obtain ⟨hfound, -, hbuild⟩ := mem_accepted_iff.1 h
  have hof := of_mem_findAll hfound
  have hkind := RuleName.kind_build hbuild
  rcases r.isPlain_or_stops with hplain | hstops | hdamage
  · -- the sentence of a plain match has no gate, but every sentence here has
    rw [← hkind] at hplain
    have hclosed := not_opensGate_of_accepted h hplain
    rw [← hof.text] at hclosed hgate hdot
    rw [← List.length_reverse, opensGate_sentenceAt _ hgate hdot] at hclosed
    · cases hclosed
    · exact List.append_ne_nil_of_left_ne_nil (taken_ne_nil_of_accepted h hplain) _
  · -- the text goes on behind a full stop that is read
    rw [← r.spelled.property] at hstops
    have hread := dot_mem_of_stops hstops (mem_ways_of_read? hof.read)
    rw [← hof.text] at hdot
    exact absurd (dot_mem_dropLast_append (.inr (dot_mem_dropLast_append (.inl hread)))) hdot
  · exact hkind.trans hdamage

/-- **Nothing plain is read behind a gate.**  Every effect of a text that happens at once was
made of a match whose first character lies in a sentence that opens with neither a coin flip nor
an "if".  A text of a single sentence that opens with one of them is read as conditional damage,
or stays unread. -/
theorem gate_closed (text : String) :
    (∀ e ∈ (ofText text).effects, e.kind.isPlain = true →
      ∃ r f, (f, e) ∈ accepted r (normalize text.toList)
        ∧ f.Of r.phrase (normalize text.toList) ∧ f.taken ≠ []
        ∧ opensGate (sentenceAt (normalize text.toList) f.before.length) = false)
      ∧ ((startsWith "if " (normalize text.toList)
            || startsWith "flip " (normalize text.toList)) = true →
          '.' ∉ (normalize text.toList).dropLast →
          (ofText text).effects = [.unparsed text]
            ∨ (ofText text).effects ≠ []
              ∧ ∀ e ∈ (ofText text).effects, e.kind = .conditionalDamage) := by
  constructor
  · intro e he hplain
    have hne : normalize text.toList ≠ [] := by
      intro hnil
      simp [ofText, hnil] at he
    rcases effects_cases hne with hunread | ⟨-, hmade⟩
    · rw [hunread, List.mem_singleton] at he
      rw [he] at hplain
      cases hplain
    · obtain ⟨r, f, h⟩ := hmade e he
      exact ⟨r, f, h, of_mem_findAll (mem_accepted_iff.1 h).1, taken_ne_nil_of_accepted h hplain,
        not_opensGate_of_accepted h hplain⟩
  · intro hgate hdot
    have hne : normalize text.toList ≠ [] := by
      intro hnil
      rw [hnil] at hgate
      exact absurd hgate (by decide)
    rcases effects_cases hne with hunread | ⟨hsome, hmade⟩
    · exact .inl hunread
    · refine .inr ⟨hsome, fun e he => ?_⟩
      obtain ⟨r, f, h⟩ := hmade e he
      exact kind_of_accepted_of_gate hgate hdot h

/-! ### A gate that no rule knows -/

/-- More damage for one kind of opponent, and only then. -/
def rarityText : String :=
  "If your opponent's Active Pokémon is a Pokémon ex, this attack does 30 more damage."

theorem normalize_rarityText : normalize rarityText.toList
    = "if your opponent's active pokemon is a pokemon ex, this attack does 30 more damage.".toList := by
  rw [rarityText, String.toList_ofList, String.toList_ofList]
  decide

/-- The bonus is not given for nothing. -/
theorem gate_closed_rarityText :
    ∀ e ∈ (ofText rarityText).effects, e.kind = .unparsed ∨ e.kind = .conditionalDamage := by
  have hgate : (startsWith "if " (normalize rarityText.toList)
      || startsWith "flip " (normalize rarityText.toList)) = true := by
    rw [normalize_rarityText, String.toList_ofList]
    decide
  have hdot : '.' ∉ (normalize rarityText.toList).dropLast := by
    rw [normalize_rarityText, String.toList_ofList]
    decide
  intro e he
  rcases (gate_closed rarityText).2 hgate hdot with hunread | ⟨-, hdamage⟩
  · rw [hunread, List.mem_singleton] at he
    exact .inl (he ▸ rfl)
  · exact .inr (hdamage e he)

end Reading

end CardEffects
