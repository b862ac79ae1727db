/-
  CardEffects.Proofs.Text.LowerCase

  Lower-case forms.  They come run by run of code points, so what holds of all of them is checked
  once for each run, against the bounds of the others, and not code point by code point.

    * `lowerBy_lowerBy` — a lower-case form has no other lower-case form.
    * `lowerChar_lowerChar`, `isBlank_lowerChar` — lower-casing a character is done once, and makes
      no blanks.
    * `eq_or_eq_of_lowerChar` — which characters a given one is the lower-case form of.
    * `lowerFrom_map_asciiLower` — the case of the letters A to Z is lost, and is no context for a
      final sigma.
    * `exists_lowerFrom_append` — a text is lower-cased part by part, into the `LowerForm`s of its
      characters.
-/
import CardEffects.Text.Blank
import CardEffects.Text.Lowercase
import Mathlib.Data.Bool.AllAny
import Mathlib.Data.List.Basic

namespace CardEffects.Text

/-! ## Runs -/

/-- What a run covers lies between its ends, in steps. -/
theorem CaseRun.of_covers {r : CaseRun} {n : Nat} (h : r.covers n = true) :
    r.first ≤ n ∧ n ≤ r.last ∧ (n - r.first) % r.step = 0 := by
  simp only [covers, Bool.and_eq_true, decide_eq_true_eq, beq_iff_eq] at h
  exact ⟨h.1.1, h.1.2, h.2⟩

/-- A code point keeps its place, or the first run that covers it gives it another. -/
theorem lowerBy_cases (runs : List CaseRun) (n : Nat) :
    lowerBy runs n = n
      ∨ ∃ r ∈ runs, r.covers n = true ∧ lowerBy runs n = r.image + (n - r.first) := by
  induction runs with
  | nil => exact .inl rfl
  | cons r runs ih =>
    unfold lowerBy
    split
    · exact .inl rfl
    · split
      next hcovers => exact .inr ⟨r, List.mem_cons_self, hcovers, rfl⟩
      next =>
        exact ih.imp_right fun ⟨q, hq, hcovers, hlower⟩ =>
          ⟨q, List.mem_cons_of_mem r hq, hcovers, hlower⟩

theorem lowerBy_of_not_covers {runs : List CaseRun} {n : Nat}
    (h : ∀ r ∈ runs, r.covers n = false) : lowerBy runs n = n := by
  rcases lowerBy_cases runs n with hself | ⟨r, hr, hcovers, -⟩
  · exact hself
  · rw [h r hr] at hcovers
    cases hcovers

/-- Whether no form of run `r` lies between two bounds. -/
def CaseRun.clears (r : CaseRun) (lo hi : Nat) : Bool :=
  Nat.blt (r.image + (r.last - r.first)) lo || Nat.blt hi r.image

theorem CaseRun.of_clears {r : CaseRun} {lo hi n : Nat} (h : r.clears lo hi = true)
    (hn : r.covers n = true) : r.image + (n - r.first) < lo ∨ hi < r.image + (n - r.first) := by
  obtain ⟨hfirst, hlast, -⟩ := of_covers hn
  rw [clears, Bool.or_eq_true, Nat.blt_eq, Nat.blt_eq] at h
  omega

/-- Whether no form of run `r` has a form of its own in run `q`: the forms of one lie beside what
the other covers, or between it, where both go in steps of two. -/
def CaseRun.misses (r q : CaseRun) : Bool :=
  r.clears q.first q.last
    || (r.step == 2 || r.first == r.last) && q.step == 2 && (r.image + q.first) % 2 == 1

theorem CaseRun.not_covers_of_misses {r q : CaseRun} (h : r.misses q = true) {n : Nat}
    (hn : r.covers n = true) : q.covers (r.image + (n - r.first)) = false := by
  rw [← Bool.not_eq_true]
  intro hq
  obtain ⟨hfirst, hlast, hstep⟩ := of_covers hn
  obtain ⟨hqfirst, hqlast, hqstep⟩ := of_covers hq
  rw [misses, Bool.or_eq_true] at h
  rcases h with hclears | hparity
  · have := of_clears hclears hn
    omega
  · simp only [Bool.and_eq_true, Bool.or_eq_true, beq_iff_eq] at hparity
    obtain ⟨⟨hone, hqtwo⟩, hodd⟩ := hparity
    rw [hqtwo] at hqstep
    rcases hone with htwo | hsingle
    · rw [htwo] at hstep
      omega
    · omega

theorem misses_caseRuns : (caseRuns.all fun r => caseRuns.all fun q => r.misses q) = true := by
  decide +kernel

/-- A lower-case form has no other lower-case form. -/
theorem lowerBy_lowerBy (n : Nat) : lowerBy caseRuns (lowerBy caseRuns n) = lowerBy caseRuns n := by
  rcases lowerBy_cases caseRuns n with hself | ⟨r, hr, hcovers, hlower⟩
  · rw [hself, hself]
  · rw [hlower]
    refine lowerBy_of_not_covers fun q hq => ?_
    exact CaseRun.not_covers_of_misses
      (List.all_eq_true.1 (List.all_eq_true.1 misses_caseRuns r hr) q hq) hcovers

/-! ## Characters -/

/-- No run has forms that are no characters. -/
theorem clears_surrogates :
    (caseRuns.all fun r =>
      r.clears 0xD800 0xDFFF && Nat.ble (r.image + (r.last - r.first)) 0x10FFFF) = true := by
  decide +kernel

theorem isValidChar_lowerBy (c : Char) : (lowerBy caseRuns c.toNat).isValidChar := by
  rcases lowerBy_cases caseRuns c.toNat with hself | ⟨r, hr, hcovers, hlower⟩
  · rw [hself]
    exact c.valid
  · have hvalid := List.all_eq_true.1 clears_surrogates r hr
    rw [Bool.and_eq_true, Nat.ble_eq] at hvalid
    have hbeside := CaseRun.of_clears hvalid.1 hcovers
    obtain ⟨hfirst, hlast, -⟩ := CaseRun.of_covers hcovers
    rw [hlower]
    unfold Nat.isValidChar
    omega

theorem toNat_lowerChar (c : Char) : (lowerChar c).toNat = lowerBy caseRuns c.toNat := by
  rw [lowerChar, Char.ofNat, dif_pos (isValidChar_lowerBy c)]
  rfl

/-- Lower-casing a character twice is lower-casing it once. -/
theorem lowerChar_lowerChar (c : Char) : lowerChar (lowerChar c) = lowerChar c := by
  rw [lowerChar, toNat_lowerChar, lowerBy_lowerBy]
  rfl

/-- What is lower-cased to a character is that character, or the one that some run takes to it. -/
theorem eq_or_eq_of_lowerChar {c d u : Char} (h : lowerChar c = d)
    (hruns : (caseRuns.all fun r => r.clears d.toNat d.toNat
      || r.first + (d.toNat - r.image) == u.toNat) = true) : c = d ∨ c = u := by
  have hcode := toNat_lowerChar c
  rw [h] at hcode
  rcases lowerBy_cases caseRuns c.toNat with hself | ⟨r, hr, hcovers, hlower⟩
  · rw [hself] at hcode
    exact .inl (Char.toNat_inj.1 hcode).symm
  · have hrun := List.all_eq_true.1 hruns r hr
    rw [Bool.or_eq_true, beq_iff_eq] at hrun
    obtain ⟨hfirst, -, -⟩ := CaseRun.of_covers hcovers
    rcases hrun with hclears | hsource
    · have hbeside := CaseRun.of_clears hclears hcovers
      omega
    · exact .inr (Char.toNat_inj.1 (by omega))

theorem clears_blankRanges :
    (caseRuns.all fun r => blankRanges.all fun b => r.clears b.1 b.2) = true := by
  decide +kernel

/-- Lower-casing makes no blanks. -/
theorem isBlank_lowerChar {c : Char} (h : isBlank c = false) : isBlank (lowerChar c) = false := by
  rw [← Bool.not_eq_true] at h ⊢
  intro hblank
  obtain ⟨b, hb, hlo, hhi⟩ := exists_of_inRanges hblank
  rw [toNat_lowerChar] at hlo hhi
  rcases lowerBy_cases caseRuns c.toNat with hself | ⟨r, hr, hcovers, hlower⟩
  · apply h
    unfold isBlank at hblank ⊢
    rwa [toNat_lowerChar, hself] at hblank
  · have hbeside := CaseRun.of_clears
      (List.all_eq_true.1 (List.all_eq_true.1 clears_blankRanges r hr) b hb) hcovers
    omega

/-! ## The letters A to Z -/

/-- The letters A to Z. -/
def capitals : List Char := (List.range 26).map fun k => Char.ofNat (65 + k)

theorem mem_capitals {c : Char} (h : 'A' ≤ c ∧ c ≤ 'Z') : c ∈ capitals := by
  have hlo : 65 ≤ c.toNat := h.1
  have hhi : c.toNat ≤ 90 := h.2
  refine List.mem_map.2 ⟨c.toNat - 65, List.mem_range.2 (by omega), ?_⟩
  rw [Nat.add_sub_cancel' hlo, Char.ofNat_toNat]

/-- Only these letters have another form where no others are lower-cased. -/
theorem asciiLower_cases (c : Char) : asciiLower c = c ∨ c ∈ capitals := by
  unfold asciiLower
  split
  next h => exact .inr (mem_capitals h)
  next => exact .inl rfl

theorem capitals_spec :
    ∀ c ∈ capitals, isBlank (asciiLower c) = isBlank c ∧ lowerChar (asciiLower c) = lowerChar c
      ∧ isCased (asciiLower c) = isCased c ∧ isCaseIgnorable (asciiLower c) = isCaseIgnorable c
      ∧ (c ≠ 'Σ' ∧ c ≠ 'İ') ∧ asciiLower c ≠ 'Σ' ∧ asciiLower c ≠ 'İ' :=
  List.all_iff_forall_prop.1 (by decide +kernel)

theorem isBlank_asciiLower (c : Char) : isBlank (asciiLower c) = isBlank c := by
  rcases asciiLower_cases c with hself | hcapital
  · rw [hself]
  · exact (capitals_spec c hcapital).1

theorem isCased_asciiLower (c : Char) : isCased (asciiLower c) = isCased c := by
  rcases asciiLower_cases c with hself | hcapital
  · rw [hself]
  · exact (capitals_spec c hcapital).2.2.1

theorem isCaseIgnorable_asciiLower (c : Char) :
    isCaseIgnorable (asciiLower c) = isCaseIgnorable c := by
  rcases asciiLower_cases c with hself | hcapital
  · rw [hself]
  · exact (capitals_spec c hcapital).2.2.2.1

/-! ## Texts -/

theorem dropWhile_isCaseIgnorable_map_asciiLower (cs : List Char) :
    (cs.map asciiLower).dropWhile isCaseIgnorable
      = (cs.dropWhile isCaseIgnorable).map asciiLower := by
  rw [List.dropWhile_map]
  exact congrArg (fun p => (cs.dropWhile p).map asciiLower) (funext isCaseIgnorable_asciiLower)

theorem casedNext_map_asciiLower (cs : List Char) :
    casedNext (cs.map asciiLower) = casedNext cs := by
  unfold casedNext
  rw [dropWhile_isCaseIgnorable_map_asciiLower]
  cases cs.dropWhile isCaseIgnorable with
  | nil => rfl
  | cons c _ => exact isCased_asciiLower c

/-- The case of the letters A to Z is lost, and is no context for the other letters. -/
theorem lowerFrom_map_asciiLower (afterCased : Bool) (cs : List Char) :
    lowerFrom afterCased (cs.map asciiLower) = lowerFrom afterCased cs := by
  induction cs generalizing afterCased with
  | nil => rfl
  | cons c cs ih =>
    have hfirst : lowerAt afterCased (asciiLower c) (cs.map asciiLower)
        = lowerAt afterCased c cs := by
      unfold lowerAt
      rw [casedNext_map_asciiLower]
      rcases asciiLower_cases c with hself | hcapital
      · rw [hself]
      · obtain ⟨-, hlower, -, -, ⟨hsigma, hdot⟩, hsigma', hdot'⟩ := capitals_spec c hcapital
        rw [if_neg hsigma, if_neg hdot, if_neg hsigma', if_neg hdot', hlower]
    rw [List.map_cons, lowerFrom, lowerFrom, hfirst, ih, isCased_asciiLower,
      isCaseIgnorable_asciiLower]

/-- The characters that a character may become in a text in lower case. -/
inductive LowerForm : Char → Char → Prop
  | sigma : LowerForm 'Σ' 'σ'
  | finalSigma : LowerForm 'Σ' 'ς'
  | dotted : LowerForm 'İ' 'i'
  | dot : LowerForm 'İ' '\u0307'
  | single {c : Char} (hsigma : c ≠ 'Σ') (hdot : c ≠ 'İ') : LowerForm c (lowerChar c)

theorem lowerAt_spec (afterCased : Bool) (c : Char) (rest : List Char) :
    lowerAt afterCased c rest ≠ [] ∧ ∀ x ∈ lowerAt afterCased c rest, LowerForm c x := by
  unfold lowerAt
  split
  next hsigma =>
    subst hsigma
    split
    · exact ⟨List.cons_ne_nil _ _, List.forall_mem_singleton.2 .finalSigma⟩
    · exact ⟨List.cons_ne_nil _ _, List.forall_mem_singleton.2 .sigma⟩
  next hsigma =>
    split
    next hdot =>
      subst hdot
      exact ⟨List.cons_ne_nil _ _,
        List.forall_mem_cons.2 ⟨.dotted, List.forall_mem_singleton.2 .dot⟩⟩
    next hdot =>
      exact ⟨List.cons_ne_nil _ _, List.forall_mem_singleton.2 (.single hsigma hdot)⟩

/-- A text is lower-cased part by part, though what stands beside a part may matter to it. -/
theorem exists_lowerFrom_append (afterCased : Bool) (cs ds : List Char) :
    ∃ lower after, lowerFrom afterCased (cs ++ ds) = lower ++ lowerFrom after ds
      ∧ (lower = [] ↔ cs = []) ∧ ∀ x ∈ lower, ∃ c ∈ cs, LowerForm c x := by
  induction cs generalizing afterCased with
  | nil => exact ⟨[], afterCased, rfl, Iff.rfl, List.forall_mem_nil _⟩
  | cons c cs ih =>
    obtain ⟨hne, hforms⟩ := lowerAt_spec afterCased c (cs ++ ds)
    obtain ⟨lower, after, hlower, -, hall⟩ :=
      ih (if isCaseIgnorable c then afterCased else isCased c)
    refine ⟨lowerAt afterCased c (cs ++ ds) ++ lower, after, ?_, ?_, ?_⟩
    · rw [List.cons_append, lowerFrom, hlower, List.append_assoc]
    · simp [hne]
    · intro x hx
      rcases List.mem_append.1 hx with hx | hx
      · exact ⟨c, List.mem_cons_self, hforms x hx⟩
      · obtain ⟨d, hd, hform⟩ := hall x hx
        exact ⟨d, List.mem_cons_of_mem c hd, hform⟩

end CardEffects.Text
