/-
  CardEffects.Proofs.Reading.NormalForm

  Normal forms: words with single spaces between them, of characters that have no other normal
  form.  Lower-casing looks at what stands around a letter, but neither word by word nor letter by
  letter does it bring back anything that folding or squeezing would change.

    * `exists_words_squeeze` — a squeezed text is its words.
    * `exists_words_lowercase` — a text of words is lower-cased word by word.
    * `Lowered`, `lowered_of_lowerForm` — what any character becomes in lower case.
    * `Settled`, `settled_of_lowerForm` — what a folded character becomes in lower case.
    * `exists_words_normalize` — the words of a normal form.
    * `normalize_normalize` — a normal form is its own normal form.
-/
import CardEffects.Proofs.Reading.Names
import CardEffects.Proofs.Text.LowerCase

namespace CardEffects.Clause

open Text

/-! ## Words -/

/-- Words of characters of one sort, none of them empty. -/
def WordsOf (P : Char → Prop) (words : List (List Char)) : Prop :=
  ∀ w ∈ words, w ≠ [] ∧ ∀ c ∈ w, P c

theorem WordsOf.nil (P : Char → Prop) : WordsOf P [] := List.forall_mem_nil _

theorem WordsOf.cons {P : Char → Prop} {w : List Char} {words : List (List Char)} (hne : w ≠ [])
    (hw : ∀ c ∈ w, P c) (hwords : WordsOf P words) : WordsOf P (w :: words) :=
  List.forall_mem_cons.2 ⟨⟨hne, hw⟩, hwords⟩

theorem WordsOf.imp {P Q : Char → Prop} (hPQ : ∀ c, P c → Q c) {words : List (List Char)}
    (h : WordsOf P words) : WordsOf Q words :=
  fun w hw => ⟨(h w hw).1, fun c hc => hPQ c ((h w hw).2 c hc)⟩

theorem WordsOf.map {P Q : Char → Prop} {f : Char → Char} (hf : ∀ c, P c → Q (f c))
    {words : List (List Char)} (h : WordsOf P words) : WordsOf Q (words.map fun w => w.map f) :=
  List.forall_mem_map.2 fun w hw => ⟨by simpa using (h w hw).1,
    List.forall_mem_map.2 fun c hc => hf c ((h w hw).2 c hc)⟩

/-- The words, each with a space before it. -/
def behind (words : List (List Char)) : List Char := words.flatMap fun w => ' ' :: w

theorem behind_cons (w : List Char) (words : List (List Char)) :
    behind (w :: words) = ' ' :: (w ++ behind words) := List.flatMap_cons

theorem spaced_cons (w : List Char) (words : List (List Char)) :
    spaced (w :: words) = w ++ behind words := by
  induction words generalizing w with
  | nil => rw [spaced, List.intercalate_singleton, behind, List.flatMap_nil, List.append_nil]
  | cons v words ih => rw [spaced_cons_cons, ih, behind_cons]

/-- Before the first word it does not matter whether blanks were passed. -/
theorem squeezeFrom_false (pending : Bool) (cs : List Char) :
    squeezeFrom false pending cs = squeeze cs := by
  cases cs with
  | nil => rfl
  | cons c cs => rfl

/-- Behind a word, a text goes on with the rest of that word, if no blanks were passed, and then
word by word. -/
theorem exists_words_squeezeFrom (cs : List Char) :
    (∃ words, squeezeFrom true true cs = behind words ∧ WordsOf (isBlank · = false) words)
      ∧ ∃ w words, squeezeFrom true false cs = w ++ behind words
        ∧ (∀ c ∈ w, isBlank c = false) ∧ WordsOf (isBlank · = false) words := by
  induction cs with
  | nil => exact ⟨⟨[], rfl, .nil _⟩, [], [], rfl, List.forall_mem_nil _, .nil _⟩
  | cons c cs ih =>
    obtain ⟨⟨passed, hpassed, hall⟩, w, words, hwords, hw, hrest⟩ := ih
    simp only [squeezeFrom]
    cases hc : isBlank c with
    | true => exact ⟨⟨passed, hpassed, hall⟩, [], passed, hpassed, List.forall_mem_nil _, hall⟩
    | false =>
      have hcw : ∀ d ∈ c :: w, isBlank d = false := List.forall_mem_cons.2 ⟨hc, hw⟩
      refine ⟨⟨(c :: w) :: words, ?_, .cons (List.cons_ne_nil _ _) hcw hrest⟩, c :: w, words, ?_,
        hcw, hrest⟩
      · rw [behind_cons]
        exact congrArg (' ' :: c :: ·) hwords
      · exact congrArg (c :: ·) hwords

/-- Squeezed, a text is its words with single spaces between them. -/
theorem exists_words_squeeze (cs : List Char) :
    ∃ words, squeeze cs = spaced words ∧ WordsOf (isBlank · = false) words := by
  induction cs with
  | nil => exact ⟨[], rfl, .nil _⟩
  | cons c cs ih =>
    cases hc : isBlank c with
    | true =>
      have hskip : squeeze (c :: cs) = squeeze cs := by
        rw [squeeze, squeezeFrom, hc, if_pos rfl, squeezeFrom_false]
      rwa [hskip]
    | false =>
      obtain ⟨-, w, words, hwords, hw, hrest⟩ := exists_words_squeezeFrom cs
      have hfirst : squeeze (c :: cs) = c :: squeezeFrom true false cs := by
        rw [squeeze, squeezeFrom, hc]
        rfl
      refine ⟨(c :: w) :: words, ?_,
        .cons (List.cons_ne_nil _ _) (List.forall_mem_cons.2 ⟨hc, hw⟩) hrest⟩
      rw [hfirst, hwords, spaced_cons, List.cons_append]

/-! ## Words in lower case -/

section Lowering

variable {P Q : Char → Prop} (hform : ∀ c x, P c → LowerForm c x → Q x)
include hform

/-- A word is lower-cased by itself, but for its context. -/
theorem exists_word_lowerFrom (afterCased : Bool) {w : List Char} (hne : w ≠ [])
    (hw : ∀ c ∈ w, P c) (rest : List Char) :
    ∃ lower after, lowerFrom afterCased (w ++ rest) = lower ++ lowerFrom after rest
      ∧ lower ≠ [] ∧ ∀ x ∈ lower, Q x := by
  obtain ⟨lower, after, hlower, hnil, hforms⟩ := exists_lowerFrom_append afterCased w rest
  refine ⟨lower, after, hlower, fun h => hne (hnil.1 h), fun x hx => ?_⟩
  obtain ⟨c, hc, hx⟩ := hforms x hx
  exact hform c x (hw c hc) hx

/-- Behind a word, a text goes on in lower case word by word. -/
theorem exists_words_lowerFrom (afterCased : Bool) {words : List (List Char)}
    (hwords : WordsOf P words) :
    ∃ lower, lowerFrom afterCased (behind words) = behind lower ∧ WordsOf Q lower := by
  induction words generalizing afterCased with
  | nil => exact ⟨[], rfl, .nil _⟩
  | cons w words ih =>
    obtain ⟨⟨hwne, hw⟩, hrest⟩ := List.forall_mem_cons.1 hwords
    obtain ⟨first, after, hfirst, hne, hforms⟩ := exists_word_lowerFrom hform
      (if isCaseIgnorable ' ' then afterCased else isCased ' ') hwne hw (behind words)
    obtain ⟨lower, hlower, hall⟩ := ih after hrest
    have hspace : lowerAt afterCased ' ' (w ++ behind words) = [' '] := rfl
    refine ⟨first :: lower, ?_, .cons hne hforms hall⟩
    rw [behind_cons, lowerFrom, hspace, hfirst, hlower, behind_cons]
    rfl

/-- A text of words is lower-cased word by word. -/
theorem exists_words_lowercase {words : List (List Char)} (hwords : WordsOf P words) :
    ∃ lower, lowercase (spaced words) = spaced lower ∧ WordsOf Q lower := by
  cases words with
  | nil => exact ⟨[], rfl, .nil _⟩
  | cons w words =>
    obtain ⟨⟨hwne, hw⟩, hrest⟩ := List.forall_mem_cons.1 hwords
    obtain ⟨first, after, hfirst, hne, hforms⟩ :=
      exists_word_lowerFrom hform false hwne hw (behind words)
    obtain ⟨lower, hlower, hall⟩ := exists_words_lowerFrom hform after hrest
    refine ⟨first :: lower, ?_, .cons hne hforms hall⟩
    rw [lowercase, spaced_cons, hfirst, hlower, spaced_cons]

end Lowering

/-! ## Characters in lower case -/

/-- A character of a word in lower case, which has no other lower-case form. -/
structure Lowered (c : Char) : Prop where
  not_blank : isBlank c = false
  ne_sigma : c ≠ 'Σ'
  ne_dotted : c ≠ 'İ'
  lowerChar_eq : lowerChar c = c

/-- The two letters that are lower-cased by context are nobody's lower-case form. -/
theorem lowerChar_ne {c : Char} (hdot : c ≠ 'İ') : lowerChar c ≠ 'Σ' ∧ lowerChar c ≠ 'İ' := by
  constructor
  · intro hsigma
    have htwice := lowerChar_lowerChar c
    rw [hsigma] at htwice
    exact absurd htwice (by decide +kernel)
  · intro h
    rcases eq_or_eq_of_lowerChar h (u := 'İ') (by decide +kernel) with rfl | rfl <;>
      exact hdot rfl

/-- What a character becomes in lower case stays as it is. -/
theorem lowered_of_lowerForm {c x : Char} (hblank : isBlank c = false) (h : LowerForm c x) :
    Lowered x := by
  cases h with
  | sigma => exact ⟨by decide, by decide, by decide, by decide +kernel⟩
  | finalSigma => exact ⟨by decide, by decide, by decide, by decide +kernel⟩
  | dotted => exact ⟨by decide, by decide, by decide, by decide +kernel⟩
  | dot => exact ⟨by decide, by decide, by decide, by decide +kernel⟩
  | single _ hdot =>
    obtain ⟨hsigma, hdot⟩ := lowerChar_ne hdot
    exact ⟨isBlank_lowerChar hblank, hsigma, hdot, lowerChar_lowerChar c⟩

theorem Lowered.ne_space {c : Char} (h : Lowered c) : c ≠ ' ' := by
  rintro rfl
  exact absurd h.not_blank (by decide)

/-- What folding changes becomes an e, a straight apostrophe or a space. -/
theorem foldChar_ne {c d : Char} (hd : d ∉ ['e', '\'', ' ']) (h : c ≠ d) : foldChar c ≠ d := by
  simp only [List.mem_cons, List.not_mem_nil, or_false, not_or] at hd
  obtain ⟨he, hquote, hspace⟩ := hd
  unfold foldChar
  split
  · exact Ne.symm he
  · split
    · exact Ne.symm hquote
    · split
      · exact Ne.symm hspace
      · exact h

theorem Lowered.inWord {c : Char} (h : Lowered c) : inWord c = true := by
  simp only [Clause.inWord, isBlank_foldChar, h.not_blank, Bool.not_false, Bool.true_and,
    Bool.and_eq_true, bne_iff_ne]
  exact ⟨foldChar_ne (by decide) h.ne_sigma, foldChar_ne (by decide) h.ne_dotted⟩

/-! ## Settled characters -/

/-- A character of a word that is its own normal form. -/
structure Settled (c : Char) : Prop where
  ne_space : c ≠ ' '
  inWord : inWord c = true
  normalChar_eq : normalChar c = c

/-- The signs that are folded to others. -/
def foldedSigns : List Char := ['é', 'É', '’', '‘']

theorem foldChar_not_mem_foldedSigns (c : Char) : foldChar c ∉ foldedSigns := by
  unfold foldChar
  split
  · decide
  next haccent =>
    split
    · decide
    next hcurly =>
      split
      · decide
      · simp only [foldedSigns, List.mem_cons, List.not_mem_nil, or_false]
        tauto

/-- Folding changes blanks and those signs only. -/
theorem foldChar_eq_self {c : Char} (hsigns : c ∉ foldedSigns) (hblank : isBlank c = false) :
    foldChar c = c := by
  simp only [foldedSigns, List.mem_cons, List.not_mem_nil, or_false, not_or] at hsigns
  obtain ⟨hacute, hAcute, hright, hleft⟩ := hsigns
  have hbreak : ¬ (c = '\n' ∨ c = '\t' ∨ c = '\r') := by
    rintro (rfl | rfl | rfl) <;> exact absurd hblank (by decide)
  rw [foldChar, if_neg (not_or.2 ⟨hacute, hAcute⟩), if_neg (not_or.2 ⟨hright, hleft⟩),
    if_neg hbreak]

/-- No run takes a character to a folded sign, but for the capital of é. -/
theorem lowerChar_not_mem_foldedSigns {c : Char} (h : c ∉ foldedSigns) :
    lowerChar c ∉ foldedSigns := by
  have hfrom : ∀ d ∈ foldedSigns, lowerChar c = d → c = d ∨ c = 'É' := by
    intro d hd hlower
    have hruns : ∀ d ∈ foldedSigns, (caseRuns.all fun r => r.clears d.toNat d.toNat
        || r.first + (d.toNat - r.image) == 'É'.toNat) = true :=
      List.all_iff_forall_prop.1 (by decide +kernel)
    exact eq_or_eq_of_lowerChar hlower (hruns d hd)
  intro hmem
  rcases hfrom _ hmem rfl with hself | rfl
  · exact h (hself ▸ hmem)
  · exact h (by decide)

/-- What a folded character becomes in lower case is settled. -/
theorem settled_of_lowerForm {c x : Char} (hsigns : c ∉ foldedSigns) (hblank : isBlank c = false)
    (h : LowerForm c x) : Settled x := by
  have hlowered : Lowered x := lowered_of_lowerForm hblank h
  have hplain : x ∉ foldedSigns := by
    cases h with
    | single => exact lowerChar_not_mem_foldedSigns hsigns
    | _ => decide
  refine ⟨hlowered.ne_space, hlowered.inWord, ?_⟩
  rw [normalChar, foldChar_eq_self hplain hlowered.not_blank, hlowered.lowerChar_eq]

/-- A settled character is no blank, no capital and none of the folded signs. -/
theorem Settled.plain {c : Char} (h : Settled c) :
    isBlank c = false ∧ c ∉ capitals ∧ c ∉ foldedSigns := by
  have hunsettled : ∀ d ∈ capitals ++ foldedSigns, normalChar d ≠ d :=
    List.all_iff_forall_prop.1 (by decide +kernel)
  refine ⟨(of_inWord h.inWord).1, fun hc => ?_, fun hc => ?_⟩
  · exact hunsettled c (List.mem_append_left _ hc) h.normalChar_eq
  · exact hunsettled c (List.mem_append_right _ hc) h.normalChar_eq

/-! ## Normal forms -/

/-- The characters that are left to lower-case. -/
def Folded (c : Char) : Prop := c ∉ foldedSigns ∧ isBlank c = false

/-- A normal form is made of words of settled characters, with single spaces between them. -/
theorem exists_words_normalize (cs : List Char) :
    ∃ words, normalize cs = spaced words ∧ WordsOf Settled words := by
  obtain ⟨words, hwords, hall⟩ := exists_words_squeeze cs
  have hfolded : WordsOf Folded (words.map fun w => w.map foldChar) :=
    hall.map fun c hc => ⟨foldChar_not_mem_foldedSigns c, (isBlank_foldChar c).trans hc⟩
  obtain ⟨lower, hlower, hsettled⟩ := exists_words_lowercase
    (fun c x hc => settled_of_lowerForm hc.1 hc.2) hfolded
  exact ⟨lower, by rw [normalize_eq, hwords, map_spaced (by decide), hlower], hsettled⟩

/-- A text of words that a fold leaves alone is left alone by it. -/
theorem map_spaced_eq_self {f : Char → Char} (hspace : f ' ' = ' ') {words : List (List Char)}
    (h : WordsOf (fun c => f c = c) words) : (spaced words).map f = spaced words := by
  have hall : ∀ c ∈ spaced words, f c = id c := by
    intro c hc
    rcases mem_spaced hc with rfl | ⟨w, hw, hmem⟩
    · exact hspace
    · exact (h w hw).2 c hmem
  rw [List.map_congr_left hall, List.map_id]

/-- **A normal form is its own normal form.** -/
theorem normalize_normalize (cs : List Char) : normalize (normalize cs) = normalize cs := by
  obtain ⟨words, hwords, hall⟩ := exists_words_normalize cs
  rw [hwords]
  cases words with
  | nil => rfl
  | cons w words =>
    have htidy : gapAfter? true (spaced (w :: words)) = some false :=
      gapAfter?_spaced (List.cons_ne_nil w words)
        (hall.imp fun c hc => ⟨hc.ne_space, hc.inWord⟩) true
    -- a tidy text is normalized letter by letter, and each letter is settled
    rw [normalize_of_tidy htidy]
    exact map_spaced_eq_self (by decide) (hall.imp fun c hc => hc.normalChar_eq)

end CardEffects.Clause
