/-
  CardEffects.Proofs.Reading.Typography

  Typography does not matter.  Texts that differ only in what print does not tell apart have one
  normal form, and what is read, planned and carried out comes from the normal form alone, except
  where a text is kept word for word because no rule reads it.

    * `Retyped`, `Retyped.normalize_eq` — texts that print does not tell apart.
    * `Reading.ofText_congr`, `SameOutcome` — what comes from the normal form alone.
    * `Typography`, `typography` — the laws of the normal form, and what follows for texts.
-/
import CardEffects.Engine
import CardEffects.Proofs.Reading.Account
import CardEffects.Proofs.Reading.NormalForm
import CardEffects.Proofs.Run

namespace CardEffects.Clause

open Text

/-! ## Texts that print does not tell apart -/

/-- The spellings of e. -/
def spellingsOfE : List Char := ['e', 'E', 'é', 'É']

/-- The apostrophes. -/
def apostrophes : List Char := ['\'', '’', '‘']

/-- Two characters that stand for one in print: the same letter of A to Z in either case, two
spellings of e, or two apostrophes. -/
def Alike (c d : Char) : Prop :=
  asciiLower c = asciiLower d ∨ (c ∈ spellingsOfE ∧ d ∈ spellingsOfE)
    ∨ c ∈ apostrophes ∧ d ∈ apostrophes

instance (c d : Char) : Decidable (Alike c d) :=
  inferInstanceAs (Decidable (_ ∨ (_ ∧ _) ∨ _ ∧ _))

/-- Two texts that differ in characters that are alike, in how much blank there is between
words, and in the blanks at their ends. -/
inductive Retyped : List Char → List Char → Prop
  | refl (cs : List Char) : Retyped cs cs
  | symm {cs ds : List Char} (h : Retyped cs ds) : Retyped ds cs
  | trans {cs ds es : List Char} (h : Retyped cs ds) (h' : Retyped ds es) : Retyped cs es
  | sign (front back : List Char) {c d : Char} (h : Alike c d) :
      Retyped (front ++ c :: back) (front ++ d :: back)
  | gap (front back : List Char) {g g' : List Char} (hg : g ≠ []) (hg' : g' ≠ [])
      (hblank : ∀ c ∈ g ++ g', isBlank c = true) :
      Retyped (front ++ (g ++ back)) (front ++ (g' ++ back))
  | start (cs : List Char) {g : List Char} (hblank : ∀ c ∈ g, isBlank c = true) :
      Retyped cs (g ++ cs)
  | stop (cs : List Char) {g : List Char} (hblank : ∀ c ∈ g, isBlank c = true) :
      Retyped cs (cs ++ g)

/-- Any number of characters may be retyped at once. -/
theorem Retyped.of_forall₂ {cs ds : List Char} (h : List.Forall₂ Alike cs ds) :
    Retyped cs ds := by
  have hbehind : ∀ front : List Char, Retyped (front ++ cs) (front ++ ds) := by
    induction h with
    | nil => exact fun front => .refl _
    | @cons c d cs ds hcd _ ih =>
      intro front
      have hback : Retyped (front ++ d :: cs) (front ++ d :: ds) := by
        simpa using ih (front ++ [d])
      exact (Retyped.sign front cs hcd).trans hback
  exact hbehind []

/-! ### Characters that are alike -/

/-- A character as it is folded, and in lower case if it is one of A to Z. -/
def signKey (c : Char) : Char := asciiLower (foldChar c)

/-- Folding and lower-casing A to Z do not mind each other. -/
theorem signKey_eq (c : Char) : signKey c = foldChar (asciiLower c) := by
  unfold signKey
  rcases asciiLower_cases c with hself | hcapital
  · rw [hself]
    unfold foldChar
    split
    · decide
    · split
      · decide
      · split
        · decide
        · exact hself
  · have hall : ∀ d ∈ capitals, asciiLower (foldChar d) = foldChar (asciiLower d) :=
      List.all_iff_forall_prop.1 (by decide +kernel)
    exact hall c hcapital

theorem Alike.signKey_eq {c d : Char} (h : Alike c d) : signKey c = signKey d := by
  rcases h with hcase | ⟨hc, hd⟩ | ⟨hc, hd⟩
  · rw [Clause.signKey_eq, Clause.signKey_eq, hcase]
  · have hall : ∀ c ∈ spellingsOfE, signKey c = 'e' := List.all_iff_forall_prop.1 (by decide)
    rw [hall c hc, hall d hd]
  · have hall : ∀ c ∈ apostrophes, signKey c = '\'' := List.all_iff_forall_prop.1 (by decide)
    rw [hall c hc, hall d hd]

/-- A text is normalized by what its characters are alike in. -/
theorem normalize_eq_signKey (cs : List Char) :
    normalize cs = lowercase (squeeze (cs.map signKey)) := by
  have hblank (c : Char) : isBlank (signKey c) = isBlank c := by
    rw [signKey, isBlank_asciiLower, isBlank_foldChar]
  have hkeys : (squeeze cs).map signKey = ((squeeze cs).map foldChar).map asciiLower := by
    rw [List.map_map]
    rfl
  rw [normalize_eq, squeeze, squeeze, squeezeFrom_map hblank (by decide), ← squeeze, hkeys,
    lowercase, lowercase, lowerFrom_map_asciiLower]

/-! ### Blanks that make no difference -/

/-- What is squeezed behind a text depends on that text only through what it left open. -/
theorem exists_squeezeFrom_append (started pending : Bool) (front : List Char) :
    ∃ seen started' pending', ∀ back, squeezeFrom started pending (front ++ back)
      = seen ++ squeezeFrom started' pending' back := by
  induction front generalizing started pending with
  | nil => exact ⟨[], started, pending, fun _ => rfl⟩
  | cons c front ih =>
    cases hc : isBlank c with
    | true =>
      obtain ⟨seen, started', pending', hback⟩ := ih started true
      refine ⟨seen, started', pending', fun back => ?_⟩
      rw [List.cons_append, squeezeFrom, hc, if_pos rfl, hback]
    | false =>
      obtain ⟨seen, started', pending', hback⟩ := ih true false
      refine ⟨(if started && pending then [' ', c] else [c]) ++ seen, started', pending',
        fun back => ?_⟩
      rw [List.cons_append, squeezeFrom, hc, if_neg Bool.false_ne_true, hback]
      cases started <;> cases pending <;> rfl

/-- Blanks are passed over, and only that there were some is kept. -/
theorem squeezeFrom_blanks (started pending : Bool) {g : List Char} (hne : g ≠ [])
    (hblank : ∀ c ∈ g, isBlank c = true) (back : List Char) :
    squeezeFrom started pending (g ++ back) = squeezeFrom started true back := by
  induction g generalizing pending with
  | nil => exact absurd rfl hne
  | cons c g ih =>
    obtain ⟨hc, hg⟩ := List.forall_mem_cons.1 hblank
    rw [List.cons_append, squeezeFrom, hc, if_pos rfl]
    cases g with
    | nil => rfl
    | cons d g => exact ih true (List.cons_ne_nil d g) hg

theorem squeeze_gap (front back : List Char) {g g' : List Char} (hg : g ≠ []) (hg' : g' ≠ [])
    (hblank : ∀ c ∈ g ++ g', isBlank c = true) :
    squeeze (front ++ (g ++ back)) = squeeze (front ++ (g' ++ back)) := by
  obtain ⟨hblank, hblank'⟩ := List.forall_mem_append.1 hblank
  obtain ⟨seen, started, pending, hback⟩ := exists_squeezeFrom_append false false front
  rw [squeeze, squeeze, hback, hback, squeezeFrom_blanks _ _ hg hblank,
    squeezeFrom_blanks _ _ hg' hblank']

theorem squeeze_start (cs : List Char) {g : List Char} (hblank : ∀ c ∈ g, isBlank c = true) :
    squeeze (g ++ cs) = squeeze cs := by
  cases g with
  | nil => rfl
  | cons c g =>
    rw [squeeze, squeezeFrom_blanks _ _ (List.cons_ne_nil c g) hblank, squeezeFrom_false]

theorem squeeze_stop (cs : List Char) {g : List Char} (hblank : ∀ c ∈ g, isBlank c = true) :
    squeeze (cs ++ g) = squeeze cs := by
  obtain ⟨seen, started, pending, hback⟩ := exists_squeezeFrom_append false false cs
  have hnone : squeezeFrom started pending [] = squeezeFrom started pending g :=
    ((squeezeFrom_eq_nil_iff started pending g).2 hblank).symm
  have hwhole := hback []
  rw [List.append_nil] at hwhole
  rw [squeeze, squeeze, hback, hwhole, hnone]

/-- **Texts that print does not tell apart have one normal form.** -/
theorem Retyped.normalize_eq {cs ds : List Char} (h : Retyped cs ds) :
    normalize cs = normalize ds := by
  -- along the edits that lead from one text to the other
  induction h with
  | refl => rfl
  | symm _ ih => exact ih.symm
  | trans _ _ ih ih' => exact ih.trans ih'
  | sign front back halike =>
    rw [normalize_eq_signKey, normalize_eq_signKey, List.map_append, List.map_append,
      List.map_cons, List.map_cons, halike.signKey_eq]
  | gap front back hg hg' hblank =>
    rw [Clause.normalize_eq, Clause.normalize_eq, squeeze_gap front back hg hg' hblank]
  | start cs hblank => rw [Clause.normalize_eq, Clause.normalize_eq, squeeze_start cs hblank]
  | stop cs hblank => rw [Clause.normalize_eq, Clause.normalize_eq, squeeze_stop cs hblank]

end CardEffects.Clause

namespace CardEffects

open Clause

/-! ## What comes from the normal form alone -/

/-- Two texts with one normal form are read alike, unless they are kept word for word. -/
theorem Reading.ofText_congr {text text' : String}
    (h : normalize text'.toList = normalize text.toList)
    (hread : ∀ t, Effect.unparsed t ∉ (ofText text).effects) : ofText text' = ofText text := by
  unfold ofText at hread ⊢
  rw [h]
  by_cases hblank : normalize text.toList = []
  · rw [if_pos hblank, if_pos hblank]
  · by_cases hnone : (allAccepted (normalize text.toList)).flatMap (·.2) = []
    · rw [if_neg hblank, if_pos hnone] at hread
      exact absurd (List.mem_singleton_self _) (hread text)
    · rw [if_neg hblank, if_neg hnone, if_neg hblank, if_neg hnone]

section Cost

variable {a a' : Attack} (h : a'.cost = a.cost)
include h

theorem EnergyPool.extra_of_cost (p : EnergyPool) (energy : Option Energy) :
    p.extra (some a') energy = p.extra (some a) energy := by
  cases energy <;> simp only [extra, leftOver, Attack.costOf, Attack.colorlessCost,
    Attack.costTotal, h]

/-- Of the attack it belongs to, an effect looks at the cost alone. -/
theorem Effect.apply_of_cost (c : Config) (turn : Word) (b : Board) (e : Effect) :
    e.apply ⟨c, turn, some a'⟩ b = e.apply ⟨c, turn, some a⟩ b := by
  cases e with
  | conditionalDamage bonus condition =>
    have hholds : condition.holds ⟨c, turn, some a'⟩ b = condition.holds ⟨c, turn, some a⟩ b := by
      cases condition with
      | selfExtraEnergy energy _ =>
        rw [DamageCondition.holds, DamageCondition.holds, EnergyPool.extra_of_cost h]
      | targetHasCondition condition => cases condition <;> rfl
      | _ => rfl
    rw [Effect.apply, Effect.apply, Application.conditionalDamage,
      Application.conditionalDamage, hholds]
  | _ => rfl

theorem Engine.run_of_cost (g : Engine) (turn : Word) (b : Board) (text : String) (base : Word) :
    g.run turn (some a') b text base = g.run turn (some a) b text base := by
  unfold run Registry.run
  dsimp only
  rw [Registry.runFrom_congr _ fun e _ b => Effect.apply_of_cost h g.config turn b e]

end Cost

/-- Two texts of which everything is the same from the reading on. -/
structure SameOutcome (text text' : String) : Prop where
  /-- The same effects, rules and share are read, -/
  reading : Reading.ofText text' = Reading.ofText text
  confidence : (Reading.ofText text').confidence = (Reading.ofText text).confidence
  /-- and planned alike. -/
  plan : Plan.ofText text' = Plan.ofText text
  /-- They do the same as texts by themselves, or of an ability, -/
  run : ∀ (g : Engine) (turn : Word) (attack : Option Attack) (b : Board) (base : Word),
    g.run turn attack b text' base = g.run turn attack b text base
  /-- and as the text of an attack. -/
  attack : ∀ (g : Engine) (turn : Word) (b : Board) (a : Attack),
    g.attack turn b { a with effect := text' } = g.attack turn b { a with effect := text }

/-- All of it comes from the reading. -/
theorem SameOutcome.of_reading {text text' : String}
    (h : Reading.ofText text' = Reading.ofText text) : SameOutcome text text' := by
  have hplan : Plan.ofText text' = Plan.ofText text := by
    rw [Plan.ofText, h, Plan.ofText]
  have hrun : ∀ (g : Engine) (turn : Word) (attack : Option Attack) (b : Board) (base : Word),
      g.run turn attack b text' base = g.run turn attack b text base := by
    intro g turn attack b base
    rw [Engine.run, hplan, Engine.run]
  refine ⟨h, by rw [h], hplan, hrun, fun g turn b a => ?_⟩
  have hcost : ({ a with effect := text' } : Attack).cost
      = ({ a with effect := text } : Attack).cost := rfl
  -- the gate is passed or not whatever the text is, and behind it the text is carried out
  unfold Engine.attack
  split
  · rfl
  · split
    · rfl
    · exact (Engine.run_of_cost hcost g turn _ text' a.damage).trans (hrun g turn _ _ a.damage)

/-! ## Typography -/

/-- What the normal form makes of typography. -/
structure Typography : Prop where
  /-- A normal form is its own normal form. -/
  idempotent : ∀ cs, normalize (normalize cs) = normalize cs
  /-- Its only blanks are single spaces between words, -/
  spaced : ∀ cs, ∃ words, normalize cs = spaced words ∧ WordsOf (Text.isBlank · = false) words
  /-- and it has neither capitals of A to Z nor the signs that cards spell in several ways. -/
  plain : ∀ cs, ∀ c ∈ normalize cs, c ∉ Text.capitals ∧ c ∉ ['é', 'É', '’', '‘']
  /-- Texts that print does not tell apart have the same one. -/
  retyped : ∀ cs ds, Retyped cs ds → normalize ds = normalize cs
  /-- So retyping a text that some rule reads, or taking its normal form, changes nothing. -/
  sameOutcome : ∀ text text' : String, (∀ t, .unparsed t ∉ (Reading.ofText text).effects) →
    (Retyped text.toList text'.toList ∨ text'.toList = normalize text.toList) →
    SameOutcome text text'

/-- **Typography does not matter.** -/
theorem typography : Typography where
  idempotent := normalize_normalize
  spaced cs := by
    obtain ⟨words, hwords, hall⟩ := exists_words_normalize cs
    exact ⟨words, hwords, fun w hw =>
      ⟨(hall w hw).1, fun c hc => ((hall w hw).2 c hc).plain.1⟩⟩
  plain cs c hc := by
    obtain ⟨words, hwords, hall⟩ := exists_words_normalize cs
    rw [hwords] at hc
    rcases mem_spaced hc with rfl | ⟨w, hw, hc⟩
    · decide
    · exact ((hall w hw).2 c hc).plain.2
  retyped _ _ h := h.normalize_eq.symm
  sameOutcome text text' hread h := by
    refine .of_reading (Reading.ofText_congr ?_ hread)
    rcases h with hretyped | hnormal
    · exact hretyped.normalize_eq.symm
    · rw [hnormal, normalize_normalize]

/-- A text in capitals, without the accent, with a wider gap and a line break at its end, does what
the printed text does. -/
theorem sameOutcome_retypedHeal :
    SameOutcome "Heal 30 damage from this Pokémon." "HEAL \t30 DAMAGE FROM THIS POKEMON.\n" := by
  have hread : (Reading.ofText "Heal 30 damage from this Pokémon.").effects = [.heal 30 .this] := by
    decide +kernel
  have hcapitals : Retyped "Heal 30 damage from this Pokémon.".toList
      "HEAL 30 DAMAGE FROM THIS POKEMON.".toList := .of_forall₂ (by decide +kernel)
  have hgap : Retyped ("HEAL".toList ++ ([' '] ++ "30 DAMAGE FROM THIS POKEMON.".toList))
      ("HEAL".toList ++ ([' ', '\t'] ++ "30 DAMAGE FROM THIS POKEMON.".toList)) :=
    .gap _ _ (by decide) (by decide) (List.all_eq_true.1 (by decide))
  have hbreak : Retyped "HEAL \t30 DAMAGE FROM THIS POKEMON.".toList
      ("HEAL \t30 DAMAGE FROM THIS POKEMON.".toList ++ ['\n']) :=
    .stop _ (List.all_eq_true.1 (by decide))
  refine typography.sameOutcome _ _ ?_ (.inl ((hcapitals.trans hgap).trans hbreak))
  rw [hread]
  rintro t ht
  cases List.mem_singleton.1 ht

end CardEffects
