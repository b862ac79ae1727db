/-
  CardEffects.Proofs.Reading.NameFilters

  How the filters of bench bonuses compare names.  A name is folded before it is looked up, the
  entries of the filter are not; so an entry counts for something only if it is folded already.
  Folding twice is folding once, and filters made from names, those of card texts among them, have
  folded entries only.  A filter that is read from JSON keeps its entries as they are written.

    * `normalizeName_normalizeName` — a folded name is left alone by folding.
    * `NameFilter.accepts_eq_true_iff` — a filter accepts the names that fold to an entry.
    * `NameFilter.ByName`, `NameFilter.byName_iff` — filters that compare by name, and the test for
      them: they accept their own entries.
    * `NameFilter.byName_of_mem_effects` — the filters of card texts are among them.
    * `NameFilter.Comparison`, `NameFilter.comparison` — all of it together.
-/
import CardEffects.Proofs.Reading.BenchBonus
import CardEffects.Proofs.Reading.NormalForm
import CardEffects.Proofs.Wire.Effect

namespace CardEffects

open Clause

/-! ## Folded names -/

/-- A letter without its accent, if it is an e. -/
def withoutAccent (c : Char) : Char := if c = 'é' then 'e' else c

/-- A letter in lower case stays one without its accent, and is left alone by the fold of names. -/
theorem Clause.Lowered.withoutAccent {c : Char} (h : Lowered c) :
    Lowered (withoutAccent c) ∧ nameChar (withoutAccent c) = withoutAccent c := by
  by_cases hacute : c = 'é'
  · subst hacute
    exact ⟨⟨by decide, by decide, by decide, by decide +kernel⟩, by decide +kernel⟩
  · have hself : CardEffects.withoutAccent c = c := if_neg hacute
    rw [hself]
    refine ⟨h, ?_⟩
    rw [nameChar, h.lowerChar_eq, if_neg hacute]

/-- A folded name is made of words, whose letters are left alone by folding. -/
theorem exists_words_normalizeName (name : List Char) :
    ∃ words, normalizeName name = spaced words
      ∧ WordsOf (fun c => Lowered c ∧ nameChar c = c) words := by
  obtain ⟨words, hwords, hall⟩ := exists_words_squeeze name
  obtain ⟨lower, hlower, hlowered⟩ := exists_words_lowercase
    (fun _ _ hblank => lowered_of_lowerForm hblank) hall
  refine ⟨lower.map fun w => w.map withoutAccent, ?_, hlowered.map fun _ h => h.withoutAccent⟩
  rw [normalizeName, hwords, hlower]
  exact map_spaced (by decide) lower

/-- **Folding twice is folding once.** -/
theorem normalizeName_normalizeName (name : List Char) :
    normalizeName (normalizeName name) = normalizeName name := by
  obtain ⟨words, hwords, hall⟩ := exists_words_normalizeName name
  rw [hwords]
  cases words with
  | nil => rfl
  | cons w words =>
    have htidy : gapAfter? true (spaced (w :: words)) = some false :=
      gapAfter?_spaced (List.cons_ne_nil w words)
        (hall.imp fun c hc => ⟨hc.1.ne_space, hc.1.inWord⟩) true
    -- letter by letter, as all folding of tidy names
    rw [normalizeName_of_tidy htidy]
    exact map_spaced_eq_self (by decide) (hall.imp fun c hc => hc.2)

namespace NameFilter

/-! ## Entries -/

/-- A filter accepts the names that fold to one of its entries. -/
theorem accepts_eq_true_iff {f : NameFilter} {name : String} :
    f.accepts name = true ↔ ∃ entry ∈ f.names, entry.toList = normalizeName name.toList := by
  rw [accepts, List.any_eq_true]
  exact exists_congr fun entry => and_congr_right fun _ => beq_iff_eq

/-- Names that fold alike are accepted alike. -/
theorem accepts_congr (f : NameFilter) {a b : String}
    (h : normalizeName a.toList = normalizeName b.toList) : f.accepts a = f.accepts b := by
  rw [accepts, accepts, h]

/-- An entry that a name folds to is folded itself. -/
theorem accepts_iff_exists_folded {f : NameFilter} {name : String} :
    f.accepts name = true ↔ ∃ entry ∈ f.names, normalizeName entry.toList = entry.toList
      ∧ normalizeName entry.toList = normalizeName name.toList := by
  rw [accepts_eq_true_iff]
  refine exists_congr fun entry => and_congr_right fun _ => ⟨fun h => ?_, fun h => ?_⟩
  · have hfolded : normalizeName entry.toList = entry.toList := by
      rw [h, normalizeName_normalizeName]
    exact ⟨hfolded, hfolded.trans h⟩
  · exact h.1.symm.trans h.2

/-! ## Filters by name -/

/-- A filter that compares by name: it accepts a name exactly if one of its entries is that name,
both folded. -/
def ByName (f : NameFilter) : Prop :=
  ∀ name : String, f.accepts name = true
    ↔ ∃ entry ∈ f.names, normalizeName entry.toList = normalizeName name.toList

/-- A filter compares by name exactly if it accepts its own entries. -/
theorem byName_iff {f : NameFilter} : f.ByName ↔ ∀ entry ∈ f.names, f.accepts entry = true := by
  constructor
  · intro h entry hentry
    exact (h entry).2 ⟨entry, hentry, rfl⟩
  · intro h name
    constructor
    · intro haccepts
      obtain ⟨entry, hentry, -, heq⟩ := accepts_iff_exists_folded.1 haccepts
      exact ⟨entry, hentry, heq⟩
    · rintro ⟨entry, hentry, heq⟩
      rw [← f.accepts_congr heq]
      exact h entry hentry

/-- Filters that are made from names accept these. -/
theorem accepts_ofNames_iff {names : List (List Char)} {name : String} :
    (ofNames names).accepts name = true
      ↔ ∃ n ∈ names, normalizeName n = normalizeName name.toList := by
  rw [accepts_eq_true_iff, ofNames]
  simp only [List.mem_map, exists_exists_and_eq_and, String.toList_ofList]

theorem byName_ofNames (names : List (List Char)) : (ofNames names).ByName := by
  refine byName_iff.2 fun entry hentry => accepts_ofNames_iff.2 ?_
  obtain ⟨n, hn, rfl⟩ := List.mem_map.1 hentry
  exact ⟨n, hn, by rw [String.toList_ofList, normalizeName_normalizeName]⟩

/-- The filters of bonuses in card texts are made from names. -/
theorem byName_of_accepted {r : RuleName} {normal : List Char} {found : Found} {each : Word}
    {side : Side} {f : NameFilter}
    (h : (found, .benchScalingDamage each side (some f)) ∈ Reading.accepted r normal) :
    f.ByName := by
  obtain rfl := (kind_eq_iff r).1 (Reading.kind_of_accepted h).symm
  have hbuild := Option.some.inj (Reading.mem_accepted_iff.1 h).2.2
  have hfilter := (Effect.benchScalingDamage.inj hbuild).2.2
  unfold benchFilter at hfilter
  split at hfilter
  · cases hfilter
  · rw [← Option.some.inj hfilter]
    exact byName_ofNames _

theorem byName_of_mem_effects {text : String} {each : Word} {side : Side} {f : NameFilter}
    (h : .benchScalingDamage each side (some f) ∈ (Reading.ofText text).effects) : f.ByName := by
  by_cases hblank : normalize text.toList = []
  · have hreading : Reading.ofText text = ⟨[], [], .whole⟩ := if_pos hblank
    rw [hreading] at h
    cases h
  · rcases Reading.ofText_unread_or_accounted hblank with ⟨-, hunread, -⟩ | haccounted
    · rw [hunread] at h
      cases List.mem_singleton.1 h
    · obtain ⟨rule, -, found, hmem, -⟩ := haccounted.made _ h
      exact byName_of_accepted hmem

/-! ## How names are compared -/

/-- How a filter compares names. -/
structure Comparison (f : NameFilter) : Prop where
  /-- It accepts the names that are one of its folded entries, -/
  accepts_iff : ∀ name : String, f.accepts name = true
    ↔ ∃ entry ∈ f.names, normalizeName entry.toList = entry.toList
      ∧ normalizeName entry.toList = normalizeName name.toList
  /-- which may as well be looked up folded. -/
  accepts_folded : ∀ name : String,
    f.accepts (String.ofList (normalizeName name.toList)) = f.accepts name
  /-- It compares by name exactly if it accepts its own entries, -/
  byName_iff : f.ByName ↔ ∀ entry ∈ f.names, f.accepts entry = true
  /-- which means that the folded form of each is an entry, too. -/
  accepts_iff_mem : ∀ name : String,
    f.accepts name = true ↔ String.ofList (normalizeName name.toList) ∈ f.names
  /-- A filter that is made from names compares by these, -/
  ofNames : ∀ names : List (List Char), f = .ofNames names →
    f.ByName ∧ ∀ name : String, f.accepts name = true
      ↔ ∃ n ∈ names, normalizeName n = normalizeName name.toList
  /-- and so does every filter in the reading of a card text. -/
  ofText : ∀ (text : String) (each : Word) (side : Side),
    .benchScalingDamage each side (some f) ∈ (Reading.ofText text).effects → f.ByName
  /-- But any filter whatever is read from JSON, with its entries as they are written. -/
  ofJson : ofJson? f.toJson = some f

/-- **Names are compared by their folded forms, as far as the entries are folded.**  A name has one
folded form, and every filter compares by it as said above. -/
theorem comparison (f : NameFilter) :
    (∀ name : List Char, normalizeName (normalizeName name) = normalizeName name)
      ∧ Comparison f := by
  refine ⟨normalizeName_normalizeName, fun _ => accepts_iff_exists_folded, fun name => ?_,
    byName_iff, fun name => ?_, fun names hf => ?_, fun _ _ _ => byName_of_mem_effects,
    ofJson?_toJson f⟩
  · exact f.accepts_congr (by rw [String.toList_ofList, normalizeName_normalizeName])
  · rw [accepts_eq_true_iff]
    constructor
    · rintro ⟨entry, hentry, heq⟩
      rwa [← heq, String.ofList_toList]
    · intro hmem
      exact ⟨_, hmem, String.toList_ofList⟩
  · subst hf
    exact ⟨byName_ofNames names, fun _ => accepts_ofNames_iff⟩

/-- So does the filter for a name with a typographic apostrophe: by the name that it was folded to
when the text was read. -/
theorem byName_farfetchd : Reading.farfetchd.filter.ByName := by
  have halone : (Reading.ofText (Reading.farfetchd.sentence 30)).effects
      = [Reading.farfetchd.bonus 30] :=
    (Reading.farfetchd.effects_eq_bonus_iff 30).2 fun r _ => Reading.farfetchd.asides_of_word rfl r
  refine (comparison Reading.farfetchd.filter).2.ofText (Reading.farfetchd.sentence 30) 30 .own ?_
  rw [halone]
  exact List.mem_singleton_self _

/-! ### A name as it is printed -/

/-- A board with a Pikachu on the bench of the acting side. -/
def pikachuBoard : Board where
  attacker := { Combatant.new "Eevee" .fire 60 with
    bench := [some (BenchOccupant.new "Pikachu" 60), none, none] }
  defender := none
  coins := .ofSeed 2

/-- A filter that is written in JSON with a name as it is printed turns down that very name, and
the Pokémon on the bench adds nothing.  Made from the same name, a filter accepts it. -/
theorem printed_entry_not_accepted :
    ofJson? (.record [("names", .list [.text "Pikachu"])]) = some ⟨["Pikachu"]⟩
      ∧ accepts ⟨["Pikachu"]⟩ "Pikachu" = false
      ∧ (ofNames ["Pikachu".toList]).accepts "Pikachu" = true
      ∧ ((Effect.benchScalingDamage 20 .own (some ⟨["Pikachu"]⟩)).apply
          { config := .standard, turn := 1 } pikachuBoard).1.bonus = 0 := by
  exact ⟨by decide +kernel, by decide +kernel, by decide +kernel, by decide +kernel⟩

end NameFilter

end CardEffects
