/-
  CardEffects.Proofs.Reading.EnergyTokens

  What becomes of a clause that names energy.  A token of one of the eight types makes an effect of
  that very type, and a clause without a token one of no type; any other token, that for colorless
  energy among them, makes no effect at all, and the rule does not read the clause in another way.

    * `ofToken?_eq_typed_iff`, `not_mem_tokens_iff` — the tokens of each type, and the others.
    * `Effect.energy?`, `build_energy` — the type an effect is about is the one in the place for
      energy.
    * `EnergyMatch`, `energyMatch_of_mem_findAll` — all of this, for every match of a rule with such
      a place.
-/
import CardEffects.Proofs.Reading.EnergyPlace
import Mathlib.Data.Bool.AllAny

namespace CardEffects

/-! ## Tokens of each type -/

/-- The tokens of a type: its name, its letter in braces, and a short name that one of them has. -/
def Energy.tokens (e : Energy) : List (List Char) :=
  [e.name.toList, ['\x7b', Text.asciiLower e.symbol, '\x7d']]
    ++ if e = .darkness then ["dark".toList] else []

namespace Clause

theorem mem_of_isToken {t : List Char} (h : isToken t = true) :
    t ∈ energyWords ++ letters.map fun c => ['\x7b', c, '\x7d'] := by
  unfold isToken at h
  rw [Bool.or_eq_true] at h
  rw [List.mem_append]
  rcases h with h | h
  · exact .inl (List.contains_iff_mem.1 h)
  · split at h
    next c => exact .inr (List.mem_map.2 ⟨c, mem_letters h, rfl⟩)
    next => cases h

/-- A token denotes a type when it is one of its tokens. -/
theorem ofToken?_eq_typed_iff {t : List Char} (h : isToken t = true) (e : Energy) :
    CostSymbol.ofToken? t = some (.typed e) ↔ t ∈ e.tokens := by
  have hall : ∀ t ∈ energyWords ++ letters.map fun c => ['\x7b', c, '\x7d'],
      ∀ e ∈ (Enumeration.all : List Energy),
        CostSymbol.ofToken? t = some (.typed e) ↔ t ∈ e.tokens := by
    decide +kernel
  exact hall t (mem_of_isToken h) e (Enumeration.mem_all e)

/-- What is left is "colorless" and the other letters in braces, that for colorless among them. -/
theorem not_mem_tokens_iff {t : List Char} (h : isToken t = true) :
    (∀ e : Energy, t ∉ e.tokens)
      ↔ t = "colorless".toList ∨ ∃ c, t = ['\x7b', c, '\x7d'] ∧ c ∉ "grwlpfdm".toList := by
  have hwords : ∀ t ∈ energyWords,
      (∀ e ∈ (Enumeration.all : List Energy), t ∉ e.tokens) ↔ t = "colorless".toList := by
    decide +kernel
  have hletters : ∀ c ∈ letters,
      (∀ e ∈ (Enumeration.all : List Energy), ['\x7b', c, '\x7d'] ∉ e.tokens)
        ↔ c ∉ "grwlpfdm".toList :=
    List.all_iff_forall_prop.1 (by decide +kernel)
  have hbraced : ∀ w ∈ energyWords, ∀ c : Char, w ≠ ['\x7b', c, '\x7d'] := by
    have hheads : ∀ w ∈ energyWords, w.head? ≠ some '\x7b' := by decide
    rintro w hw c rfl
    exact hheads _ hw rfl
  have hall : (∀ e : Energy, t ∉ e.tokens) ↔ ∀ e ∈ (Enumeration.all : List Energy), t ∉ e.tokens :=
    ⟨fun h e _ => h e, fun h e => h e (Enumeration.mem_all e)⟩
  rw [hall]
  rcases List.mem_append.1 (mem_of_isToken h) with ht | ht
  · rw [hwords t ht]
    refine ⟨.inl, ?_⟩
    rintro (h | ⟨c, h, -⟩)
    · exact h
    · exact absurd h (hbraced t ht c)
  · obtain ⟨c, hc, rfl⟩ := List.mem_map.1 ht
    rw [hletters c hc]
    refine ⟨fun h => .inr ⟨c, rfl, h⟩, ?_⟩
    rintro (h | ⟨c', h, hc'⟩)
    · exact absurd h.symm (hbraced _ (by decide) c)
    · obtain rfl := (List.cons.inj (List.cons.inj h).2).1
      exact hc'

/-- In the place for energy there are only tokens. -/
theorem isToken_of_energyPlace {cs t : List Char} (h : energyPlace cs = some t) :
    isToken t = true := by
  -- whatever has been read, what is kept of it is a token
  let tokens : Scan → Prop := fun s =>
    match s with
    | .reading last _ => ∀ w, last = some w → isToken w = true
    | .found t => ∀ w, t = some w → isToken w = true
  have hstep : ∀ s c, tokens s → tokens (s.step c) := by
    intro s c hs
    cases s with
    | found t => exact hs
    | reading last word =>
      unfold Scan.step
      dsimp only
      split
      · intro w hw
        exact (Option.filter_eq_some_iff.1 hw).2
      · split
        · exact hs
        · cases word with
          | none => exact hs
          | some u =>
            unfold Scan.letter
            dsimp only
            split <;> exact hs
  have hfold : ∀ (cs : List Char) (s : Scan), tokens s → tokens (cs.foldl Scan.step s) := by
    intro cs
    induction cs with
    | nil => exact fun s hs => hs
    | cons c cs ih => exact fun s hs => ih _ (hstep s c hs)
  have hstart : tokens .start := fun w hw => by cases hw
  have hend := hfold cs .start hstart
  unfold energyPlace Scan.token? at h
  split at h
  next t' heq =>
    rw [heq] at hend
    exact hend t h
  next => cases h

end Clause

/-! ## The energy of an effect -/

/-- The type that is produced, if it is named. -/
def EnergySpec.energy? : EnergySpec → Option Energy
  | named e => some e
  | ownType => none

/-- The type of energy that an effect is about, if it is named; this is for the effects that can be
about one. -/
def Effect.energy? : Effect → Option (Option Energy)
  | coinFlipDamage (.perEnergyAttached e) _ => some e
  | coinFlipEnergy _ _ spec _ => some spec.energy?
  | coinFlipConditional _ _ (.discard d) => some d.energy
  | conditionalDamage _ (.selfExtraEnergy e _) => some e
  | energyScalingDamage _ e _ => some e
  | energyAttach spec _ _ => some spec.energy?
  | energyDiscard d => some d.energy
  | _ => none

namespace Clause

variable {r : RuleName} {f : Found}

@[simp] theorem energy?_energySpec (e : Option Energy) : (energySpec e).energy? = e := by
  cases e <;> rfl

/-- A token that is turned down leaves nothing to make an effect of. -/
theorem build_eq_none (hr : r ∈ energyRules) (h : energy? (f.get? .energy) = none) :
    r.build f = none := by
  cases r <;> first
    | exact absurd hr (by decide)
    | (unfold RuleName.build; dsimp only; rw [h]; rfl)

/-- Otherwise there is an effect, and it is about the type in the place for energy. -/
theorem build_energy (hr : r ∈ energyRules) {e : Option Energy}
    (h : energy? (f.get? .energy) = some e) (hzone : r = .energyAttachZone → e ≠ none) :
    ∃ eff, r.build f = some eff ∧ eff.energy? = some e := by
  have hspec := energy?_energySpec e
  cases r <;> first
    | exact absurd hr (by decide)
    | (unfold RuleName.build
       dsimp only
       rw [h]
       first
         | exact ⟨_, rfl, rfl⟩
         | exact ⟨_, rfl, congrArg some hspec⟩
         | (obtain ⟨named, rfl⟩ := Option.ne_none_iff_exists'.1 (hzone rfl)
            exact ⟨_, rfl, rfl⟩))

/-! ## Matches -/

/-- What is said of a match of a rule with a place for energy in the text `n`. -/
structure EnergyMatch (r : RuleName) (n : List Char) (f : Found) : Prop where
  /-- In the place for energy stands the token before the word "energy", if there is one. -/
  place : f.get? .energy = energyPlace f.taken
  isToken : ∀ t, f.get? .energy = some t → isToken t = true
  /-- There is no way to read the rule at that place of the text with anything else there. -/
  only : ∀ w ∈ ways r.phrase (f.taken ++ f.after), w.filled.lookup .energy = f.get? .energy
  /-- A token of a type makes an effect of that type. -/
  typed : ∀ t e, f.get? .energy = some t → t ∈ e.tokens →
    ∃ eff, r.build f = some eff ∧ eff.energy? = some (some e)
  /-- Without a token the effect is of no type; one rule has to have a token. -/
  untyped : f.get? .energy = none →
    r ≠ .energyAttachZone ∧ ∃ eff, r.build f = some eff ∧ eff.energy? = some none
  /-- Any other token makes no effect.  The match is not accepted, and nothing that it covers is
  covered by a match of the rule that is. -/
  rejected : ∀ t, f.get? .energy = some t → (∀ e : Energy, t ∉ e.tokens) →
    r.build f = none ∧ ∀ g eff, (g, eff) ∈ Reading.accepted r n → g ≠ f ∧ g.Beside f

theorem energy?_of_mem_tokens {t : List Char} {e : Energy} (ht : Clause.isToken t = true)
    (h : t ∈ e.tokens) : energy? (some t) = some (some e) := by
  rw [energy?, (ofToken?_eq_typed_iff ht e).2 h]

theorem energy?_eq_none {t : List Char} (ht : Clause.isToken t = true)
    (h : ∀ e : Energy, t ∉ e.tokens) : energy? (some t) = none := by
  unfold energy?
  dsimp only
  split
  next e heq => exact absurd ((ofToken?_eq_typed_iff ht e).1 heq) (h e)
  next => rfl

/-- **Energy is read as it is named.**  This is so for every match of every rule with a place for
energy. -/
theorem energyMatch_of_mem_findAll (hr : r ∈ energyRules) {n : List Char}
    (hf : f ∈ findAll r.phrase n) : EnergyMatch r n f := by
  have hread := (of_mem_findAll hf).read
  obtain ⟨hfilled, htaken, hzone⟩ := lookup_energy hr (mem_ways_of_read? hread)
  have hplace : f.get? .energy = energyPlace f.taken := hfilled.trans htaken.symm
  have htoken : ∀ t, f.get? .energy = some t → Clause.isToken t = true := fun t ht =>
    isToken_of_energyPlace (hplace ▸ ht)
  refine ⟨hplace, htoken, fun w hw => ?_, fun t e ht he => ?_, fun hnone => ?_,
    fun t ht hother => ?_⟩
  · rw [(lookup_energy hr hw).1]
    exact hfilled.symm
  · have henergy := energy?_of_mem_tokens (htoken t ht) he
    rw [← ht] at henergy
    exact build_energy hr henergy fun _ => nofun
  · have hne : r ≠ .energyAttachZone := fun h => hzone h (hfilled.symm.trans hnone)
    have henergy : energy? (f.get? .energy) = some none := by rw [hnone]; rfl
    exact ⟨hne, build_energy hr henergy fun h => absurd h hne⟩
  · have henergy := energy?_eq_none (htoken t ht) hother
    rw [← ht] at henergy
    have hbuild := build_eq_none hr henergy
    refine ⟨hbuild, fun g eff hg => ?_⟩
    obtain ⟨hfound, -, hmade⟩ := Reading.mem_accepted_iff.1 hg
    have hne : g ≠ f := by
      rintro rfl
      rw [hbuild] at hmade
      cases hmade
    exact ⟨hne, beside_of_mem_findAll hfound hf hne⟩

end Clause

end CardEffects
