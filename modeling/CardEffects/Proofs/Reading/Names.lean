/-
  CardEffects.Proofs.Reading.Names

  Names of Pokémon, which are folded twice: with the rest of a card text when it is read, and by
  themselves when a bench is searched for them.  Both folds go letter by letter through a printed
  name, and they agree on every letter but the typographic apostrophes, which only the first makes
  straight.

    * `BenchName` — a name as it is printed, which neither joins two names nor stands for all.
    * `normalizeName_of_tidy` — the second fold, letter by letter.
    * `BenchName.nameList_normal` — the normal form of a name is a list of that one name.
    * `BenchName.benchFilter_normal` — so it is a filter with that one entry.
    * `BenchName.accepts_iff`, `BenchName.accepts_text_iff` — which names the filter accepts, and
      when it accepts the name itself.
-/
import CardEffects.Proofs.Reading.Normal
import CardEffects.Reading

namespace CardEffects.Clause

/-! ## Characters of names -/

/-- The apostrophes of print. -/
def isCurly (c : Char) : Bool := c == '’' || c == '‘'

/-- Whether a character may stand in a word of a name. -/
def isNameChar (c : Char) : Bool :=
  Reading.isLetterOrDigit c || c == 'é' || c == 'É' || c == '-' || c == '\'' || isCurly c

/-- A character of a name as names are compared: in lower case, without the accent on e. -/
def nameChar (c : Char) : Char := if Text.lowerChar c = 'é' then 'e' else Text.lowerChar c

/-- Every character that may stand in a name, and some more. -/
def candidates : List Char := (List.range 128).map Char.ofNat ++ ['é', 'É', '’', '‘']

theorem mem_candidates {c : Char} (h : isNameChar c = true) : c ∈ candidates := by
  have hascii {d : Char} (hd : d.toNat < 128) : d ∈ (List.range 128).map Char.ofNat :=
    List.mem_map.2 ⟨d.toNat, List.mem_range.2 hd, Char.ofNat_toNat d⟩
  simp only [isNameChar, isCurly, Bool.or_eq_true, beq_iff_eq] at h
  rw [candidates, List.mem_append]
  rcases h with (((((h | rfl) | rfl) | rfl) | rfl) | rfl | rfl)
  · refine .inl (hascii ?_)
    simp only [Reading.isLetterOrDigit, Bool.or_eq_true, Bool.and_eq_true,
      decide_eq_true_eq] at h
    have hranges : ((97 ≤ c.toNat ∧ c.toNat ≤ 122) ∨ 65 ≤ c.toNat ∧ c.toNat ≤ 90)
        ∨ 48 ≤ c.toNat ∧ c.toNat ≤ 57 := h
    omega
  all_goals decide

/-- What holds of the candidates that may stand in a name holds of every character that may. -/
theorem of_candidates {p : Char → Bool}
    (h : candidates.all (fun c => !isNameChar c || p c) = true) {c : Char}
    (hc : isNameChar c = true) : p c = true := by
  have hall := List.all_eq_true.1 h c (mem_candidates hc)
  rwa [hc, Bool.not_true, Bool.false_or] at hall

/-- A character of a name belongs to a word, before it is folded and afterwards. -/
theorem inWord_of_isNameChar {c : Char} (h : isNameChar c = true) :
    (c ≠ ' ' ∧ inWord c = true) ∧ normalChar c ≠ ' ' ∧ inWord (normalChar c) = true := by
  have hall := of_candidates (p := fun c =>
    c != ' ' && inWord c && (normalChar c != ' ' && inWord (normalChar c))) (by decide +kernel) h
  simpa only [Bool.and_eq_true, bne_iff_ne] using hall

/-- Folded, it is admitted in the open place for names. -/
theorem admits_of_isNameChar {c : Char} (h : isNameChar c = true) :
    CharSet.name.admits (normalChar c) = true :=
  of_candidates (p := fun c => CharSet.name.admits (normalChar c)) (by decide +kernel) h

/-- Folding it once more as part of a name changes nothing. -/
theorem nameChar_normalChar {c : Char} (h : isNameChar c = true) :
    nameChar (normalChar c) = normalChar c := by
  have hall := of_candidates (p := fun c => nameChar (normalChar c) == normalChar c)
    (by decide +kernel) h
  exact beq_iff_eq.1 hall

/-- The two folds agree on everything but the apostrophes of print. -/
theorem nameChar_eq_normalChar_iff {c : Char} (h : isNameChar c = true) :
    nameChar c = normalChar c ↔ isCurly c = false := by
  have hall := of_candidates (p := fun c => (nameChar c == normalChar c) == !isCurly c)
    (by decide +kernel) h
  rw [beq_iff_eq] at hall
  rw [← beq_iff_eq, hall, Bool.not_eq_true']

/-! ## Words -/

/-- Words with single spaces between them. -/
def spaced (words : List (List Char)) : List Char := [' '].intercalate words

theorem spaced_cons_cons (w v : List Char) (words : List (List Char)) :
    spaced (w :: v :: words) = w ++ ' ' :: spaced (v :: words) := by
  rw [spaced, List.intercalate_cons_cons, List.append_assoc]
  rfl

/-- Such a text is tidy. -/
theorem gapAfter?_spaced {words : List (List Char)} (hne : words ≠ [])
    (hwords : ∀ w ∈ words, w ≠ [] ∧ ∀ c ∈ w, c ≠ ' ' ∧ inWord c = true) (gap : Bool) :
    gapAfter? gap (spaced words) = some false := by
  -- word by word; each but the last has one space behind it
  induction words generalizing gap with
  | nil => exact absurd rfl hne
  | cons w words ih =>
    obtain ⟨⟨hwne, hw⟩, hwords⟩ := List.forall_mem_cons.1 hwords
    have hfirst : gapAfter? gap w = some false := gapAfter?_of_inWord hwne hw gap
    cases words with
    | nil => rwa [spaced, List.intercalate_singleton]
    | cons v words =>
      rw [spaced_cons_cons, gapAfter?_append, hfirst, Option.bind_some, gapAfter?, if_pos rfl,
        if_neg Bool.false_ne_true]
      exact ih (List.cons_ne_nil v words) hwords true

theorem map_spaced {f : Char → Char} (hf : f ' ' = ' ') (words : List (List Char)) :
    (spaced words).map f = spaced (words.map fun w => w.map f) := by
  induction words with
  | nil => rfl
  | cons w words ih =>
    cases words with
    | nil => rw [spaced, List.intercalate_singleton]; exact List.intercalate_singleton.symm
    | cons v words =>
      rw [spaced_cons_cons, List.map_append, List.map_cons, ih, hf]
      exact (spaced_cons_cons _ _ _).symm

theorem mem_spaced {words : List (List Char)} {c : Char} (h : c ∈ spaced words) :
    c = ' ' ∨ ∃ w ∈ words, c ∈ w := by
  induction words with
  | nil => cases h
  | cons w words ih =>
    cases words with
    | nil =>
      rw [spaced, List.intercalate_singleton] at h
      exact .inr ⟨w, List.mem_cons_self, h⟩
    | cons v words =>
      rw [spaced_cons_cons, List.mem_append, List.mem_cons] at h
      rcases h with h | rfl | h
      · exact .inr ⟨w, List.mem_cons_self, h⟩
      · exact .inl rfl
      · exact (ih h).imp_right fun ⟨u, hu, hc⟩ => ⟨u, List.mem_cons_of_mem w hu, hc⟩

/-- A text without spaces stands between two of them only as a word. -/
theorem mem_of_infix_spaced {words : List (List Char)} (hwords : ∀ w ∈ words, ' ' ∉ w)
    {u : List Char} (hu : ' ' ∉ u) (h : ' ' :: (u ++ [' ']) <:+: spaced words) : u ∈ words := by
  obtain ⟨front, back, htext⟩ := h
  have hne : words ≠ [] := by
    rintro rfl
    simp [spaced] at htext
  -- split at its spaces, the text gives the words, and this one among them
  have hsplit : u ∈ (spaced words).splitOn ' ' := by
    have hcut : front ++ ' ' :: (u ++ ' ' :: back) = spaced words := by
      rw [← htext]
      simp
    rw [← hcut, List.splitOn_append_cons_self, List.splitOn_append_cons_self_of_not_mem hu]
    exact List.mem_append_right _ List.mem_cons_self
  rwa [spaced, List.splitOn_intercalate ' ' hwords hne] at hsplit

/-- Tidy texts have no blanks at their ends. -/
theorem trim_of_tidy {cs : List Char} (h : gapAfter? true cs = some false) :
    Text.trim cs = cs := by
  have hstart : Text.trimStart cs = cs := by
    cases cs with
    | nil => rfl
    | cons c cs =>
      rcases gapAfter?_cons h with ⟨-, hgap, -⟩ | ⟨-, hword, -⟩
      · cases hgap
      · exact List.dropWhile_cons_of_neg (by simp [(of_inWord hword).1])
  have hend : Text.trimEnd cs = cs := by
    rcases List.eq_nil_or_concat cs with rfl | ⟨front, c, rfl⟩
    · rfl
    · rw [List.concat_eq_append] at h ⊢
      rw [gapAfter?_append, Option.bind_eq_some_iff] at h
      obtain ⟨gap, -, hlast⟩ := h
      rcases gapAfter?_cons hlast with ⟨-, -, hopen⟩ | ⟨-, hword, -⟩
      · cases hopen
      · rw [Text.trimEnd, List.reverse_append, List.reverse_singleton, List.singleton_append,
          List.dropWhile_cons_of_neg (by simp [(of_inWord hword).1]), List.reverse_cons,
          List.reverse_reverse]
  rw [Text.trim, hstart, hend]

/-- The fold of names goes letter by letter through a tidy text. -/
theorem normalizeName_of_tidy {cs : List Char} (h : gapAfter? true cs = some false) :
    normalizeName cs = cs.map nameChar := by
  have hletters : ∀ c ∈ cs, c ≠ 'Σ' ∧ c ≠ 'İ' := by
    intro c hc
    rcases inWord_of_gapAfter? h c hc with rfl | hword
    · decide
    · exact (of_inWord hword).2
  rw [normalizeName, squeeze_of_tidy h, Text.lowercase, lowerFrom_eq_map hletters, List.map_map]
  rfl

/-! ## Lists of one name -/

/-- A word that does not occur is not replaced. -/
theorem commaFor_eq_self {w cs : List Char} (h : ¬ w <:+: cs) : commaFor w 0 cs = cs := by
  induction cs with
  | nil => rfl
  | cons c cs ih =>
    rw [List.infix_cons_iff, not_or] at h
    obtain ⟨hhere, hbehind⟩ := h
    rw [commaFor, if_neg (by rwa [List.isPrefixOf_iff_prefix]), ih hbehind]

theorem atCommas_of_not_mem {cs : List Char} (h : ',' ∉ cs) : atCommas cs = [cs] := by
  induction cs with
  | nil => rfl
  | cons c cs ih =>
    rw [List.mem_cons, not_or] at h
    obtain ⟨hhere, hbehind⟩ := h
    rw [atCommas, if_neg (Ne.symm hhere), ih hbehind]

/-! ## Names -/

/-- The name of a Pokémon as it is printed: words with single spaces between them. -/
structure BenchName where
  words : List (List Char)
  words_ne_nil : words ≠ []
  word_ne_nil : ∀ w ∈ words, w ≠ []
  isNameChar : ∀ w ∈ words, ∀ c ∈ w, isNameChar c = true
  /-- No word joins two names, -/
  not_joining : ∀ w ∈ words, w.map normalChar ≠ "and".toList ∧ w.map normalChar ≠ "or".toList
  /-- and the name does not stand for Pokémon of any name. -/
  not_pokemon : startsWith "pokemon" ((spaced words).map normalChar) = false

namespace BenchName

/-- The characters of a name. -/
def chars (name : BenchName) : List Char := spaced name.words

/-- The name, printed. -/
def text (name : BenchName) : String := String.ofList name.chars

/-- The name as it stands in the normal form of a card text. -/
def normal (name : BenchName) : List Char := name.chars.map normalChar

variable (name : BenchName)

theorem toList_text : name.text.toList = name.chars := String.toList_ofList

theorem chars_tidy : gapAfter? true name.chars = some false :=
  gapAfter?_spaced name.words_ne_nil
    (fun w hw => ⟨name.word_ne_nil w hw, fun c hc =>
      (inWord_of_isNameChar (name.isNameChar w hw c hc)).1⟩) true

theorem normal_eq : name.normal = spaced (name.words.map fun w => w.map normalChar) :=
  map_spaced (by decide) name.words

theorem normal_tidy : gapAfter? true name.normal = some false := by
  rw [normal_eq]
  refine gapAfter?_spaced (by simpa using name.words_ne_nil) ?_ true
  rw [List.forall_mem_map]
  intro w hw
  refine ⟨by simpa using name.word_ne_nil w hw, ?_⟩
  rw [List.forall_mem_map]
  exact fun c hc => (inWord_of_isNameChar (name.isNameChar w hw c hc)).2

theorem mem_chars {c : Char} (h : c ∈ name.chars) : c = ' ' ∨ Clause.isNameChar c = true :=
  (mem_spaced h).imp_right fun ⟨w, hw, hc⟩ => name.isNameChar w hw c hc

/-- The normal form fits into the open place for names. -/
theorem admits_normal : ∀ c ∈ name.normal, CharSet.name.admits c = true := by
  rw [normal, List.forall_mem_map]
  intro c hc
  rcases name.mem_chars hc with rfl | hc
  · decide
  · exact admits_of_isNameChar hc

theorem normal_ne_nil : name.normal ≠ [] := by
  intro h
  have htidy := name.normal_tidy
  rw [h] at htidy
  cases htidy

/-- The normal form of a name is the list of that one name. -/
theorem nameList_normal : nameList name.normal = [name.normal] := by
  have hspace : ∀ w ∈ name.words.map (fun w => w.map normalChar), ' ' ∉ w := by
    rw [List.forall_mem_map]
    intro w hw hmem
    obtain ⟨c, hc, hspace⟩ := List.mem_map.1 hmem
    exact (inWord_of_isNameChar (name.isNameChar w hw c hc)).2.1 hspace
  -- a joining word would be one of the words
  have hand : ¬ " and ".toList <:+: name.normal := by
    intro h
    rw [normal_eq] at h
    obtain ⟨w, hw, hjoins⟩ := List.mem_map.1
      (mem_of_infix_spaced hspace (by decide : ' ' ∉ "and".toList) h)
    exact (name.not_joining w hw).1 hjoins
  have hor : ¬ " or ".toList <:+: name.normal := by
    intro h
    rw [normal_eq] at h
    obtain ⟨w, hw, hjoins⟩ := List.mem_map.1
      (mem_of_infix_spaced hspace (by decide : ' ' ∉ "or".toList) h)
    exact (name.not_joining w hw).2 hjoins
  have hcomma : ',' ∉ name.normal := by
    intro h
    exact absurd (name.admits_normal ',' h) (by decide)
  have hne : name.normal ≠ [] := name.normal_ne_nil
  rw [nameList, commaFor_eq_self hand, commaFor_eq_self hor,
    atCommas_of_not_mem hcomma, List.map_singleton, trim_of_tidy name.normal_tidy,
    List.filter_cons_of_pos (by simpa using hne), List.filter_nil]

/-! ## The filter -/

/-- The normal form is left alone by the fold of names. -/
theorem normalizeName_normal : normalizeName name.normal = name.normal := by
  -- letter by letter: what is folded for the text is already as names are compared
  rw [normalizeName_of_tidy name.normal_tidy, normal, List.map_map]
  refine List.map_congr_left fun c hc => ?_
  rw [Function.comp_apply]
  rcases name.mem_chars hc with rfl | hc
  · decide
  · exact nameChar_normalChar hc

/-- The filter of a name. -/
def filter : NameFilter := ⟨[String.ofList name.normal]⟩

theorem benchFilter_normal : benchFilter name.normal = some name.filter := by
  have hpokemon : startsWith "pokemon" name.normal = false := name.not_pokemon
  rw [benchFilter, if_neg (by rw [hpokemon]; decide), nameList_normal, NameFilter.ofNames,
    List.map_singleton, normalizeName_normal]
  rfl

/-- The filter accepts the names that fold to its normal form. -/
theorem accepts_iff (printed : String) :
    name.filter.accepts printed = true ↔ normalizeName printed.toList = name.normal := by
  rw [filter, NameFilter.accepts, List.any_cons, List.any_nil, Bool.or_false,
    String.toList_ofList, beq_iff_eq]
  exact eq_comm

/-- It accepts the name itself unless that is printed with a typographic apostrophe. -/
theorem accepts_text_iff :
    name.filter.accepts name.text = true ↔ ∀ c ∈ name.chars, isCurly c = false := by
  -- both folds go letter by letter, so they give the same when they agree on each letter
  rw [accepts_iff, toList_text, normalizeName_of_tidy name.chars_tidy, normal,
    List.map_inj_left]
  refine forall₂_congr fun c hc => ?_
  rcases name.mem_chars hc with rfl | hc
  · decide
  · exact nameChar_eq_normalChar_iff hc

end BenchName

end CardEffects.Clause
