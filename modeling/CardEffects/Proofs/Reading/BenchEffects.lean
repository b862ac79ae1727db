/-
  CardEffects.Proofs.Reading.BenchEffects

  The effects of a text of a bonus for Pokémon on the bench.  Its rule makes the bonus, for the
  names before the first mark, and whatever it makes of the text behind that mark; all other rules
  make of the text what they make of the names.

    * `asidesIn` — what a rule makes of a text, wherever that stands.
    * `IsBench` — a text of a bonus, with the names cut at the first mark.
    * `IsBench.effects`, `IsBench.filter_effects`, `IsBench.effects_eq_bonus_iff` — its effects, the
      bonuses among them, and when there is nothing but the one bonus.
-/
import CardEffects.Proofs.Reading.Account
import CardEffects.Proofs.Reading.BenchText

namespace CardEffects.Clause

/-! ## What a rule makes of a part of a text -/

/-- What a rule makes of a text that no gate stands before. -/
def asidesIn (r : RuleName) (cs : List Char) : List Effect :=
  (findAll r.phrase cs).filterMap r.build

theorem kind_of_mem_asidesIn {r : RuleName} {cs : List Char} {e : Effect}
    (he : e ∈ asidesIn r cs) : e.kind = r.kind := by
  obtain ⟨f, -, hbuild⟩ := List.mem_filterMap.1 he
  exact RuleName.kind_build hbuild

/-- It is the same behind other text. -/
theorem filterMap_build_before (r : RuleName) (found : List Found) (seen : List Char) :
    (found.map fun f => { f with before := f.before ++ seen }).filterMap r.build
      = found.filterMap r.build := by
  rw [List.filterMap_map]
  exact List.filterMap_congr fun f _ => r.build_before f _

/-- Damage for the bench is the kind of one rule. -/
theorem kind_eq_iff (r : RuleName) : r.kind = .benchScalingDamage ↔ r = .benchScaling := by
  cases r <;> decide

/-! ## Texts of a bonus -/

/-- A text of a bonus for `k`, and for the names in `body`; `lead` are those before the first
mark, `stop` is the mark, and `tail` is what stands behind it. -/
structure IsBench (text : String) (more : Bool) (k : Nat) (body lead : List Char) (stop : Char)
    (tail : List Char) : Prop where
  normal : normalize text.toList = opensWith more k ++ (body ++ ['.'])
  dot : '.' ∉ body
  cut : body ++ ['.'] = lead ++ stop :: tail
  lead_ne_nil : lead ≠ []
  admits : ∀ c ∈ lead, CharSet.name.admits c = true
  stop_eq : stop = '.' ∨ stop = ','

/-- The bonus for the names that are read. -/
def benchBonus (k : Nat) (names : List Char) : Effect :=
  .benchScalingDamage ((Word.ofNat? k).getD 0) .own (benchFilter names)

namespace IsBench

variable {text : String} {more : Bool} {k : Nat} {body lead : List Char} {stop : Char}
  {tail : List Char} (h : IsBench text more k body lead stop tail)
include h

/-- What each rule makes of the text. -/
theorem accepted_eq (r : RuleName) :
    (Reading.accepted r (normalize text.toList)).map (·.2)
      = if r = .benchScaling then benchBonus k lead :: asidesIn .benchScaling tail
        else asidesIn r (body ++ ['.']) := by
  rw [h.normal, accepted_map r more k h.dot]
  split
  next hr =>
    rw [hr, h.cut, findAll_benchScaling more k h.lead_ne_nil h.admits h.stop_eq,
      List.filterMap_cons, build_benchScaling, filterMap_build_before, asidesIn, benchBonus]
  next hr => rw [findAll_of_ne hr, filterMap_build_before, asidesIn]

/-- **The effects of the text**, rule by rule. -/
theorem effects :
    (Reading.ofText text).effects
      = (Enumeration.all : List RuleName).flatMap fun r =>
          if r = .benchScaling then benchBonus k lead :: asidesIn .benchScaling tail
          else asidesIn r (body ++ ['.']) := by
  have hsome : Reading.acceptedMatches (normalize text.toList) ≠ [] := by
    intro hnone
    have hbonus := h.accepted_eq .benchScaling
    rw [Reading.accepted_eq_nil hnone, if_pos rfl] at hbonus
    cases hbonus
  have hnormal : normalize text.toList ≠ [] := by
    rw [h.normal]
    simp
  have heffects : (Reading.ofText text).effects
      = (Reading.acceptedMatches (normalize text.toList)).map (·.2) := by
    rw [Reading.ofText_of_accepted hnormal hsome]
  rw [heffects, Reading.acceptedMatches, Reading.allAccepted, List.flatMap_map,
    List.map_flatMap]
  exact List.flatMap_congr fun r _ => h.accepted_eq r

/-- The bonuses for the bench among the effects are the one bonus, and what its rule makes of the
text behind the mark. -/
theorem filter_effects :
    (Reading.ofText text).effects.filter (fun e => e.kind == .benchScalingDamage)
      = benchBonus k lead :: asidesIn .benchScaling tail := by
  rw [h.effects, List.filter_flatMap,
    Sentence.flatMap_eq_of_only Enumeration.nodup_all (Enumeration.mem_all .benchScaling)]
  · rw [if_pos rfl]
    refine List.filter_eq_self.2 (List.forall_mem_cons.2 ⟨rfl, fun e he => ?_⟩)
    rw [kind_of_mem_asidesIn he]
    rfl
  · intro r hr
    rw [if_neg hr, List.filter_eq_nil_iff]
    intro e he
    rw [kind_of_mem_asidesIn he, beq_iff_eq, kind_eq_iff r]
    exact hr

/-- Any effect is one of those, or what another rule makes of the names. -/
theorem mem_effects_iff (e : Effect) :
    e ∈ (Reading.ofText text).effects
      ↔ e ∈ benchBonus k lead :: asidesIn .benchScaling tail
        ∨ ∃ r, r ≠ .benchScaling ∧ e ∈ asidesIn r (body ++ ['.']) := by
  rw [h.effects, List.mem_flatMap]
  constructor
  · rintro ⟨r, -, he⟩
    split at he
    · exact .inl he
    next hr => exact .inr ⟨r, hr, he⟩
  · rintro (he | ⟨r, hr, he⟩)
    · exact ⟨.benchScaling, Enumeration.mem_all _, by rwa [if_pos rfl]⟩
    · exact ⟨r, Enumeration.mem_all r, by rwa [if_neg hr]⟩

/-- The bonus is the only effect exactly when its rule makes nothing of the text behind the mark,
and no other rule anything of the names. -/
theorem effects_eq_bonus_iff :
    (Reading.ofText text).effects = [benchBonus k lead]
      ↔ asidesIn .benchScaling tail = []
        ∧ ∀ r, r ≠ .benchScaling → asidesIn r (body ++ ['.']) = [] := by
  constructor
  · intro hone
    have hfilter := h.filter_effects
    rw [hone] at hfilter
    refine ⟨(List.cons.inj hfilter).2.symm, fun r hr => ?_⟩
    rw [List.eq_nil_iff_forall_not_mem]
    intro e he
    have hmem := (h.mem_effects_iff e).2 (.inr ⟨r, hr, he⟩)
    rw [hone, List.mem_singleton] at hmem
    have hkind := kind_of_mem_asidesIn he
    rw [hmem] at hkind
    exact hr ((kind_eq_iff r).1 hkind.symm)
  · rintro ⟨hbehind, hothers⟩
    rw [h.effects,
      Sentence.flatMap_eq_of_only Enumeration.nodup_all (Enumeration.mem_all .benchScaling)]
    · rw [if_pos rfl, hbehind]
    · intro r hr
      rw [if_neg hr, hothers r hr]

end IsBench

end CardEffects.Clause
