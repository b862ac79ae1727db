/-
  CardEffects.Proofs.Reading.BenchBonus

  The bonus for each Pokémon of one name on the bench, from the card text to the damage.

    * `BenchName.effects_sentence` — the effects of the text are the bonus, and what other rules
      make of the name by itself.
    * `BenchName.effects_eq_bonus_iff`, `BenchName.asides_of_word` — when there is nothing but the
      bonus.
    * `Reading.NamedBonus`, `Reading.namedBonus` — the bonus counts the Pokémon whose names fold to
      the name in the text: those printed with that name, but for a typographic apostrophe.
-/
import CardEffects.Application
import CardEffects.Proofs.Reading.BenchEffects

namespace CardEffects.Clause.BenchName

variable (name : BenchName) (k : Word)

/-! ## The effects of the text -/

/-- The bonus that the text is meant for. -/
def bonus : Effect := .benchScalingDamage k .own (some name.filter)

/-- What a rule makes of the name by itself. -/
def asides (r : RuleName) : List Effect :=
  (findAll r.phrase (name.normal ++ ['.'])).filterMap r.build

/-- The text is one of a bonus, and has no mark but the full stop. -/
theorem isBench :
    IsBench (name.sentence k) false k.toNat name.normal name.normal '.' [] where
  normal := name.normalize_sentence k
  dot := fun h => absurd (name.admits_normal '.' h) (by decide)
  cut := rfl
  lead_ne_nil := name.normal_ne_nil
  admits := name.admits_normal
  stop_eq := .inl rfl

theorem benchBonus_eq : benchBonus k.toNat name.normal = name.bonus k := by
  rw [benchBonus, Word.ofNat?_toNat, name.benchFilter_normal]
  rfl

/-- **The effects of the text.**  The bonus stands where its rule has its place, and all the rest
is what other rules make of the name. -/
theorem effects_sentence :
    (Reading.ofText (name.sentence k)).effects
      = (Enumeration.all : List RuleName).flatMap fun r =>
          if r = .benchScaling then [name.bonus k] else name.asides r := by
  rw [(name.isBench k).effects, benchBonus_eq]
  rfl

/-- There is one bonus for the bench among the effects. -/
theorem filter_effects :
    (Reading.ofText (name.sentence k)).effects.filter (fun e => e.kind == .benchScalingDamage)
      = [name.bonus k] := by
  rw [(name.isBench k).filter_effects, benchBonus_eq]
  rfl

/-! ## Nothing but the bonus -/

/-- The bonus is the only effect exactly when no other rule makes anything of the name. -/
theorem effects_eq_bonus_iff :
    (Reading.ofText (name.sentence k)).effects = [name.bonus k]
      ↔ ∀ r, r ≠ .benchScaling → name.asides r = [] := by
  rw [← benchBonus_eq, (name.isBench k).effects_eq_bonus_iff]
  exact and_iff_right rfl

/-- A rule none of whose first words occur in the name makes nothing of it. -/
theorem asides_eq_nil {r : RuleName}
    (h : ∀ l ∈ leads r.spelled.val, ¬ l <:+: name.normal ++ ['.']) : name.asides r = [] := by
  have hnone : ∀ s, s <:+ name.normal ++ ['.'] → s ≠ [] → ways r.phrase (s ++ []) = [] := by
    intro s hs _
    rw [List.append_nil, List.eq_nil_iff_forall_not_mem]
    intro w hw
    obtain ⟨l, hl, hstart⟩ := exists_spelled_lead hw
    exact h l hl (hstart.isInfix.trans hs.isInfix)
  have hfound := findFrom_append hnone []
  rw [List.append_nil] at hfound
  rw [asides, findAll, hfound]
  rfl

/-- Every rule begins with more than one word, so none makes anything of a single one. -/
theorem asides_of_word (h : name.words.length = 1) (r : RuleName) : name.asides r = [] := by
  have hspace : ' ' ∉ name.normal ++ ['.'] := by
    obtain ⟨w, hw⟩ := List.length_eq_one_iff.1 h
    rw [normal, chars, hw, spaced, List.intercalate_singleton, List.mem_append, not_or]
    refine ⟨fun hmem => ?_, by decide⟩
    obtain ⟨c, hc, hspace⟩ := List.mem_map.1 hmem
    have hname := name.isNameChar w (hw ▸ List.mem_singleton_self w) c hc
    exact (inWord_of_isNameChar hname).2.1 hspace
  have hleads : ∀ r : RuleName, (leads r.spelled.val).all (fun l => l.contains ' ') = true := by
    decide +kernel
  refine name.asides_eq_nil fun l hl hoccurs => ?_
  have hmem : ' ' ∈ l := List.contains_iff_mem.1 (List.all_eq_true.1 (hleads r) l hl)
  exact hspace (hoccurs.mem hmem)

end CardEffects.Clause.BenchName

namespace CardEffects.Reading

open Clause

/-! ## What the bonus counts -/

/-- What becomes of a bonus for each Pokémon of a name on the bench. -/
structure NamedBonus (name : BenchName) (k : Word) : Prop where
  /-- The text has one bonus for the bench, -/
  one : (ofText (name.sentence k)).effects.filter (fun e => e.kind == .benchScalingDamage)
    = [.benchScalingDamage k .own (some name.filter)]
  /-- and any other effect is what another rule makes of the name by itself. -/
  others : ∀ e ∈ (ofText (name.sentence k)).effects,
    e = .benchScalingDamage k .own (some name.filter) ∨ ∃ r, r ≠ .benchScaling ∧ e ∈ name.asides r
  /-- So it is the only effect unless the name reads as a clause, -/
  alone : (ofText (name.sentence k)).effects = [.benchScalingDamage k .own (some name.filter)]
    ↔ ∀ r, r ≠ .benchScaling → name.asides r = []
  /-- as no name of one word does. -/
  alone_of_word : name.words.length = 1 →
    (ofText (name.sentence k)).effects = [.benchScalingDamage k .own (some name.filter)]
  /-- It counts the Pokémon whose names fold to the name in the text. -/
  counts_iff : ∀ o : BenchOccupant, NameFilter.counts (some name.filter) o = true
    ↔ normalizeName o.name.toList = name.normal
  /-- The name itself does so unless it is printed with a typographic apostrophe. -/
  counts_name_iff : ∀ o : BenchOccupant, o.name = name.text →
    (NameFilter.counts (some name.filter) o = true ↔ ∀ c ∈ name.chars, isCurly c = false)
  /-- The bonus is the amount for each Pokémon counted, up to the largest count, -/
  adds : ∀ (s : Setting) (b : Board),
    ((Effect.benchScalingDamage k .own (some name.filter)).apply s b).1.bonus.toNat
      = min (b.attacker.occupants.countP (NameFilter.counts (some name.filter)) * k.toNat)
          Word.limit
  /-- and the board is left as it is. -/
  board_eq : ∀ (s : Setting) (b : Board),
    ((Effect.benchScalingDamage k .own (some name.filter)).apply s b).2 = b

/-- **A bonus for a name counts what is printed so, but for the apostrophe.** -/
theorem namedBonus (name : BenchName) (k : Word) : NamedBonus name k where
  one := name.filter_effects k
  others := by
    intro e he
    rw [name.effects_sentence, List.mem_flatMap] at he
    obtain ⟨r, -, he⟩ := he
    split at he
    · exact .inl (List.mem_singleton.1 he)
    next hr => exact .inr ⟨r, hr, he⟩
  alone := name.effects_eq_bonus_iff k
  alone_of_word h := (name.effects_eq_bonus_iff k).2 fun r _ => name.asides_of_word h r
  counts_iff o := name.accepts_iff o.name
  counts_name_iff o ho := by
    rw [← name.accepts_text_iff, ← ho]
    rfl
  adds _ _ := Word.toNat_clamp _
  board_eq _ _ := rfl

/-! ### A typographic apostrophe -/

/-- A name with the apostrophe that cards are printed with. -/
def farfetchd : BenchName where
  words := ["Farfetch’d".toList]
  words_ne_nil := List.cons_ne_nil _ _
  word_ne_nil := by decide +kernel
  isNameChar := List.forall_mem_singleton.2 (List.all_eq_true.1 (by decide +kernel))
  not_joining := by decide +kernel
  not_pokemon := by decide +kernel

/-- A board with one Pokémon of that name on the bench of the acting side. -/
def farfetchdBoard : Board where
  attacker := { Combatant.new "Eevee" .fire 60 with
    bench := [some (BenchOccupant.new "Farfetch’d" 60), none, none] }
  defender := none
  coins := .ofSeed 2

/-- The text is read as the bonus for that name, but the filter turns the very name down, so the
Pokémon on the bench adds nothing. -/
theorem curly_name_not_counted :
    farfetchd.text = "Farfetch’d"
      ∧ farfetchd.sentence 30 = "This attack does 30 damage for each of your Benched Farfetch’d."
      ∧ (ofText (farfetchd.sentence 30)).effects
        = [.benchScalingDamage 30 .own (some farfetchd.filter)]
      ∧ farfetchd.filter.accepts "Farfetch’d" = false
      ∧ ((Effect.benchScalingDamage 30 .own (some farfetchd.filter)).apply
          { config := .standard, turn := 1 } farfetchdBoard).1.bonus = 0 := by
  refine ⟨by decide +kernel, by decide +kernel, ?_, by decide +kernel, by decide +kernel⟩
  exact (farfetchd.effects_eq_bonus_iff 30).2 fun r _ => farfetchd.asides_of_word rfl r

end CardEffects.Reading
