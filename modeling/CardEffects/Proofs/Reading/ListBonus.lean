/-
  CardEffects.Proofs.Reading.ListBonus

  The bonus for Pokémon on the bench with one of the names in a list.  The names that reach the
  filter are split apart whatever joins them, but they are read up to the first comma only.  So a
  list joined by "and" and "or" is read whole, and any other is cut short.

    * `NameList.sentence`, `NameList.isBench` — the text of the bonus.
    * `NameList.ReadWhole`, `NameList.readWhole_iff` — when its list is read whole.
    * `Reading.ListBonus`, `Reading.listBonus` — what becomes of the text, whatever the list.
-/
import CardEffects.Proofs.Reading.BenchEffects
import CardEffects.Proofs.Reading.NameList

namespace CardEffects.Clause

/-- A word that is a name by itself. -/
def BenchName.ofWord (w : List Char) (hne : w ≠ []) (hname : w.all Clause.isNameChar = true)
    (hjoining : w.map normalChar ≠ "and".toList ∧ w.map normalChar ≠ "or".toList)
    (hpokemon : startsWith "pokemon" (w.map normalChar) = false) : BenchName where
  words := [w]
  words_ne_nil := List.cons_ne_nil _ _
  word_ne_nil := List.forall_mem_singleton.2 hne
  isNameChar := List.forall_mem_singleton.2 (List.all_eq_true.1 hname)
  not_joining := List.forall_mem_singleton.2 hjoining
  not_pokemon := by rwa [spaced, List.intercalate_singleton]

/-- A name in lower case is its own normal form. -/
theorem BenchName.normal_of_lower {n : BenchName}
    (h : ∀ c ∈ n.chars, CharSet.name.admits c = true) : n.normal = n.chars := by
  have hletter {c : Char} (hc : Clause.isNameChar c = true)
      (hlower : CharSet.name.admits c = true) : normalChar c = c := by
    have hall := of_candidates
      (p := fun c => !CharSet.name.admits c || normalChar c == c) (by decide +kernel) hc
    rwa [hlower, Bool.not_true, Bool.false_or, beq_iff_eq] at hall
  have hself : ∀ c ∈ n.chars, normalChar c = id c := by
    intro c hc
    rcases n.mem_chars hc with rfl | hname
    · decide
    · exact hletter hname (h c hc)
  rw [BenchName.normal, List.map_congr_left hself, List.map_id]

namespace NameList

variable (l : NameList) (k : Nat)

/-! ## The text of the bonus -/

/-- The text of a bonus for each Pokémon on the bench with one of the names. -/
def sentence : String :=
  "This attack does " ++ Term.number k ++ " more damage for each of your Benched "
    ++ String.ofList l.chars ++ "."

theorem normalize_sentence :
    normalize (l.sentence k).toList = opensWith true k ++ (l.normal ++ ['.']) := by
  have hwords : " more damage for each of your Benched ".toList = printedWords true := by
    decide +kernel
  have hdigits : (Term.number k).toList = Nat.toDigits 10 k := String.toList_ofList
  have hlist : (String.ofList l.chars).toList = l.chars := String.toList_ofList
  have htext : (l.sentence k).toList
      = "This attack does ".toList ++ (Nat.toDigits 10 k ++ (printedWords true
        ++ (l.chars ++ ".".toList))) := by
    unfold sentence
    rw [String.toList_append, String.toList_append, String.toList_append, String.toList_append,
      hdigits, hlist, hwords]
    simp only [List.append_assoc]
  rw [htext, normalize_printed true k l.chars_tidy, map_chars]

/-- It is cut at the first comma. -/
theorem isBench :
    IsBench (l.sentence k) true k l.normal l.leading.normal l.stop l.tail where
  normal := l.normalize_sentence k
  dot := by
    intro h
    rcases l.mem_normal h with h | h
    · exact absurd h (by decide)
    · exact absurd h (by decide)
  cut := l.normal_append_dot
  lead_ne_nil := fun h => l.first.normal_ne_nil (List.append_eq_nil_iff.1 h).1
  admits := l.admits_leading
  stop_eq := l.stop_eq

/-- The bonus that the text is meant for; it is none at all when the amount is too large. -/
def bonus : Effect := .benchScalingDamage ((Word.ofNat? k).getD 0) .own (some l.filter)

theorem benchBonus_eq : benchBonus k l.normal = l.bonus k := by
  rw [benchBonus, l.benchFilter_normal, bonus]

/-! ## Lists read whole -/

/-- The one bonus for the bench that is read in the text is that for all the names. -/
def ReadWhole : Prop :=
  (Reading.ofText (l.sentence k)).effects.filter (fun e => e.kind == .benchScalingDamage)
    = [l.bonus k]

/-- The names before the first comma are the first ones of the list, -/
theorem names_leading_prefix : l.leading.names <+: l.names :=
  List.cons_prefix_cons.2 ⟨rfl, (List.takeWhile_prefix _).map _⟩

/-- and fewer than all when there is a comma. -/
theorem leading_eq_self_of_filter (h : l.leading.filter = l.filter) : l.leading = l := by
  have hnames := congrArg NameFilter.names h
  have hlength := congrArg List.length hnames
  simp only [filter, names, List.length_map, List.length_cons, leading] at hlength
  have hrest := (List.takeWhile_prefix fun p : Joint × BenchName => p.1 ≠ .comma).eq_of_length
    (Nat.succ.inj hlength)
  rw [leading, hrest]

/-- **A list is read whole exactly when there is no comma in it.** -/
theorem readWhole_iff : l.ReadWhole k ↔ ∀ p ∈ l.rest, p.1 ≠ .comma := by
  rw [ReadWhole, (l.isBench k).filter_effects, benchBonus_eq]
  constructor
  · intro h
    have hbonus := (List.cons.inj h).1
    rw [bonus, bonus] at hbonus
    obtain ⟨-, -, hfilter⟩ := Effect.benchScalingDamage.inj hbonus
    exact l.leading_eq_self_iff.1 (l.leading_eq_self_of_filter (Option.some.inj hfilter))
  · intro h
    rw [l.leading_eq_self_iff.2 h, l.tail_eq_nil_iff.2 h]
    rfl

end NameList

end CardEffects.Clause

namespace CardEffects.Reading

open Clause

/-! ## What becomes of the text -/

/-- What becomes of a bonus for each Pokémon on the bench with one of the names in a list. -/
structure ListBonus (l : NameList) (k : Nat) : Prop where
  /-- Whatever joins them, the names in the list are told apart, -/
  names : nameList l.normal = l.names.map BenchName.normal
  /-- and those in lower case are the entries of the filter for the list, as they stand there. -/
  entries : (∀ n ∈ l.names, ∀ c ∈ n.chars, CharSet.name.admits c = true) →
    l.filter.names = l.names.map BenchName.text
  /-- The bonuses read in the text are one for the names up to the first comma, and then what the
  rule reads behind that comma. -/
  bonuses : (ofText (l.sentence k)).effects.filter (fun e => e.kind == .benchScalingDamage)
    = l.leading.bonus k :: asidesIn .benchScaling l.tail
  leading_prefix : l.leading.names <+: l.names
  /-- So it is the one bonus for the whole list exactly when there is no comma in it. -/
  whole_iff : l.ReadWhole k ↔ ∀ p ∈ l.rest, p.1 ≠ .comma
  /-- Any other effect is what another rule makes of the names by themselves; -/
  others : ∀ e ∈ (ofText (l.sentence k)).effects, e.kind = .benchScalingDamage
    ∨ ∃ r, r ≠ .benchScaling ∧ e ∈ asidesIn r (l.normal ++ ['.'])
  /-- without such there is nothing but the bonus. -/
  alone : (ofText (l.sentence k)).effects = [l.bonus k]
    ↔ (∀ p ∈ l.rest, p.1 ≠ .comma)
      ∧ ∀ r, r ≠ .benchScaling → asidesIn r (l.normal ++ ['.']) = []
  /-- The amount is the one given, when it fits. -/
  amount : k ≤ Word.limit → ((Word.ofNat? k).getD 0).toNat = k

/-- **Lists of names are read up to their first comma.** -/
theorem listBonus (l : NameList) (k : Nat) : ListBonus l k where
  names := l.nameList_normal
  entries h := by
    rw [NameList.filter, List.map_inj_left]
    intro n hn
    rw [BenchName.normal_of_lower (h n hn)]
    rfl
  bonuses := by rw [(l.isBench k).filter_effects, NameList.benchBonus_eq]
  leading_prefix := l.names_leading_prefix
  whole_iff := l.readWhole_iff k
  others e he := by
    rcases ((l.isBench k).mem_effects_iff e).1 he with he | hothers
    · refine .inl ?_
      rcases List.mem_cons.1 he with rfl | he
      · rfl
      · exact kind_of_mem_asidesIn he
    · exact .inr hothers
  alone := by
    have hwhole (h : ∀ p ∈ l.rest, p.1 ≠ .comma) : l.bonus k = benchBonus k l.leading.normal := by
      rw [l.leading_eq_self_iff.2 h, l.benchBonus_eq]
    constructor
    · intro hone
      have hread : l.ReadWhole k := by
        rw [NameList.ReadWhole, hone]
        rfl
      have hcomma := (l.readWhole_iff k).1 hread
      rw [hwhole hcomma] at hone
      exact ⟨hcomma, ((l.isBench k).effects_eq_bonus_iff.1 hone).2⟩
    · rintro ⟨hcomma, hothers⟩
      have htail : asidesIn .benchScaling l.tail = [] := by
        rw [l.tail_eq_nil_iff.2 hcomma]
        rfl
      rw [hwhole hcomma]
      exact (l.isBench k).effects_eq_bonus_iff.2 ⟨htail, hothers⟩
  amount h := by
    rw [Word.ofNat?, if_pos h, Option.getD_some, UInt32.toNat_ofNat']
    unfold Word.limit at h
    omega

/-! ### Three names -/

/-- Three names, with a comma between the first two. -/
def threeNames : NameList where
  first := .ofWord "wishiwashi".toList (by decide) (by decide) (by decide) (by decide)
  rest :=
    [(.comma, .ofWord "pikachu".toList (by decide) (by decide) (by decide) (by decide)),
      (.and, .ofWord "eevee".toList (by decide) (by decide) (by decide) (by decide))]

/-- Only the first of them is read. -/
theorem list_cut_at_comma :
    threeNames.sentence 20
        = "This attack does 20 more damage for each of your Benched wishiwashi, pikachu and eevee."
      ∧ threeNames.bonus 20
        = .benchScalingDamage 20 .own (some ⟨["wishiwashi", "pikachu", "eevee"]⟩)
      ∧ (ofText (threeNames.sentence 20)).effects
        = [.benchScalingDamage 20 .own (some ⟨["wishiwashi"]⟩)]
      ∧ ¬ threeNames.ReadWhole 20 := by
  have heffects : (ofText (threeNames.sentence 20)).effects
      = [.benchScalingDamage 20 .own (some ⟨["wishiwashi"]⟩)] := by
    refine effects_ofText (by decide) ?_
    rw [NameList.normalize_sentence]
    decide +kernel
  refine ⟨by decide +kernel, by decide +kernel, heffects, fun h => ?_⟩
  have hcomma := (threeNames.readWhole_iff 20).1 h _ List.mem_cons_self
  exact hcomma rfl

end CardEffects.Reading
