/-
  CardEffects.Proofs.Wire.Token

  The tokens that stand for a symbol of a cost: the words of the table in any ASCII case, with or
  without braces at their ends, and with any blanks around.

    * `Dressed` — a word with braces and blanks around it.
    * `bareToken_of_dressed`, `exists_dressed` — taking them off.
    * `ofToken?_eq_some_iff` — which tokens stand for a symbol.
-/
import CardEffects.Energy
import Mathlib.Data.List.Basic
import Mathlib.Data.List.TakeWhile

namespace CardEffects.CostSymbol

/-! ## The table -/

/-- The words of the table are made of small letters. -/
theorem letters_of_mem_tokens {entry : List Char × CostSymbol} (h : entry ∈ tokens) :
    entry.1 ≠ [] ∧ ∀ c ∈ entry.1, 97 ≤ c.toNat ∧ c.toNat ≤ 122 := by
  have hall : tokens.all (fun e =>
      !e.1.isEmpty && e.1.all fun c => 97 ≤ c.toNat && c.toNat ≤ 122) = true := by decide
  have hentry := List.all_eq_true.1 hall entry h
  simp only [Bool.and_eq_true, Bool.not_eq_true', List.isEmpty_eq_false_iff, List.all_eq_true,
    decide_eq_true_eq] at hentry
  exact hentry

/-- No word has two entries. -/
theorem find?_of_mem_tokens {entry : List Char × CostSymbol} (h : entry ∈ tokens) :
    (tokens.find? fun e => e.1 == entry.1).map (·.2) = some entry.2 := by
  have hall : tokens.all (fun entry =>
      (tokens.find? fun e => e.1 == entry.1).map (·.2) == some entry.2) = true := by decide
  exact beq_iff_eq.1 (List.all_eq_true.1 hall entry h)

theorem isBlank_of_letter {n : Nat} (h : n < 123) (hletter : 65 ≤ n ∧ n ≤ 90 ∨ 97 ≤ n) :
    Text.inRanges Text.blankRanges n = false := by
  revert n
  decide

/-- What becomes a small letter is neither a blank nor a brace. -/
theorem of_asciiLower_letter {c : Char}
    (h : 97 ≤ (Text.asciiLower c).toNat ∧ (Text.asciiLower c).toNat ≤ 122) :
    Text.isBlank c = false ∧ c ≠ '\x7b' ∧ c ≠ '\x7d' := by
  have hletter : c.toNat < 123 ∧ (65 ≤ c.toNat ∧ c.toNat ≤ 90 ∨ 97 ≤ c.toNat) := by
    -- either the character was a capital, or it is the small letter itself
    unfold Text.asciiLower at h
    split at h
    next hupper => exact ⟨Nat.lt_of_le_of_lt hupper.2 (by decide), .inl hupper⟩
    next => exact ⟨Nat.lt_succ_of_le h.2, .inr h.1⟩
  refine ⟨isBlank_of_letter hletter.1 hletter.2, ?_, ?_⟩
  · rintro rfl
    exact absurd hletter.1 (by decide)
  · rintro rfl
    exact absurd hletter.1 (by decide)

/-! ## The ends of a text -/

/-- What a text begins with is dropped up to a character that is kept. -/
theorem dropWhile_append_eq {p : Char → Bool} {l m : List Char} (hl : ∀ c ∈ l, p c = true)
    (hm : ∀ c, m.head? = some c → p c = false) : (l ++ m).dropWhile p = m := by
  rw [List.dropWhile_append_of_pos hl]
  cases m with
  | nil => rfl
  | cons c m => rw [List.dropWhile_cons_of_neg (by simp [hm c rfl])]

/-- What it ends with, likewise. -/
theorem reverse_dropWhile_append_eq {p : Char → Bool} {l m : List Char}
    (hl : ∀ c, l.getLast? = some c → p c = false) (hm : ∀ c ∈ m, p c = true) :
    ((l ++ m).reverse.dropWhile p).reverse = l := by
  rw [List.reverse_append, dropWhile_append_eq, List.reverse_reverse]
  · simpa using hm
  · simpa using hl

theorem exists_append_reverse_dropWhile (p : Char → Bool) (l : List Char) :
    ∃ m, l = (l.reverse.dropWhile p).reverse ++ m ∧ ∀ c ∈ m, p c = true := by
  refine ⟨(l.reverse.takeWhile p).reverse, ?_, ?_⟩
  · rw [← List.reverse_append, List.takeWhile_append_dropWhile, List.reverse_reverse]
  · intro c hc
    exact List.mem_takeWhile_imp (List.mem_reverse.1 hc)

/-! ## Tokens -/

/-- A word in dress: opening braces before it, closing ones behind it, and blanks around. -/
def Dressed (word token : List Char) : Prop :=
  ∃ before opening closing after, token = before ++ (opening ++ (word ++ closing) ++ after)
    ∧ (∀ c ∈ before, Text.isBlank c = true) ∧ (∀ c ∈ opening, c = '\x7b')
    ∧ (∀ c ∈ closing, c = '\x7d') ∧ ∀ c ∈ after, Text.isBlank c = true

/-- Every token is some word in dress. -/
theorem exists_dressed (token : List Char) :
    ∃ word, Dressed word token ∧ word.map Text.asciiLower = bareToken token := by
  -- each step of `bareToken` takes off one piece, and the pieces are kept
  obtain ⟨after, hafter, hblank⟩ :=
    exists_append_reverse_dropWhile Text.isBlank (Text.trimStart token)
  obtain ⟨closing, hclosing, hbraces⟩ :=
    exists_append_reverse_dropWhile (· == '\x7d') ((Text.trim token).dropWhile (· == '\x7b'))
  refine ⟨_, ⟨token.takeWhile Text.isBlank, (Text.trim token).takeWhile (· == '\x7b'), closing,
    after, ?_, fun c hc => List.mem_takeWhile_imp hc, fun c hc => ?_, fun c hc => ?_, hblank⟩, rfl⟩
  · rw [← hclosing, List.takeWhile_append_dropWhile]
    refine Eq.trans ?_ (congrArg (token.takeWhile Text.isBlank ++ ·) hafter)
    exact List.takeWhile_append_dropWhile.symm
  · simpa using List.mem_takeWhile_imp hc
  · simpa using hbraces c hc

/-- A word without blanks and braces comes out of its dress. -/
theorem bareToken_of_dressed {word token : List Char} (h : Dressed word token) (hne : word ≠ [])
    (hword : ∀ c ∈ word, Text.isBlank c = false ∧ c ≠ '\x7b' ∧ c ≠ '\x7d') :
    bareToken token = word.map Text.asciiLower := by
  obtain ⟨before, opening, closing, after, rfl, hbefore, hopening, hclosing, hafter⟩ := h
  have hfilled : opening ++ (word ++ closing) ≠ [] := by simp [hne]
  -- between the blanks around nothing is blank
  have hsolid : ∀ c ∈ opening ++ (word ++ closing), Text.isBlank c = false := by
    intro c hc
    rcases List.mem_append.1 hc with hc | hc
    · rw [hopening c hc]
      decide
    · rcases List.mem_append.1 hc with hc | hc
      · exact (hword c hc).1
      · rw [hclosing c hc]
        decide
  have hstart : Text.trimStart (before ++ (opening ++ (word ++ closing) ++ after))
      = opening ++ (word ++ closing) ++ after := by
    refine dropWhile_append_eq hbefore fun c hc => ?_
    rw [List.head?_append_of_ne_nil _ hfilled] at hc
    exact hsolid c (List.mem_of_head? hc)
  have hend : Text.trimEnd (opening ++ (word ++ closing) ++ after)
      = opening ++ (word ++ closing) :=
    reverse_dropWhile_append_eq (fun c hc => hsolid c (List.mem_of_getLast? hc)) hafter
  have hopened : (opening ++ (word ++ closing)).dropWhile (· == '\x7b') = word ++ closing := by
    refine dropWhile_append_eq (by simpa using hopening) fun c hc => ?_
    rw [List.head?_append_of_ne_nil _ hne] at hc
    simpa using (hword c (List.mem_of_head? hc)).2.1
  have hclosed : ((word ++ closing).reverse.dropWhile (· == '\x7d')).reverse = word := by
    refine reverse_dropWhile_append_eq (fun c hc => ?_) (by simpa using hclosing)
    simpa using (hword c (List.mem_of_getLast? hc)).2.2
  unfold bareToken Text.trim
  rw [hstart, hend]
  dsimp only
  rw [hopened, hclosed]

/-- The tokens that stand for a symbol are the words of the table in any case and dress. -/
theorem ofToken?_eq_some_iff {token : List Char} {s : CostSymbol} :
    ofToken? token = some s
      ↔ ∃ word, Dressed word token ∧ (word.map Text.asciiLower, s) ∈ tokens := by
  constructor
  · intro h
    obtain ⟨word, hdress, hbare⟩ := exists_dressed token
    obtain ⟨⟨key, s'⟩, hfind, rfl⟩ := Option.map_eq_some_iff.1 h
    have hkey : key = bareToken token := by simpa using List.find?_some hfind
    exact ⟨word, hdress, by rw [hbare, ← hkey]; exact List.mem_of_find?_eq_some hfind⟩
  · rintro ⟨word, hdress, hmem⟩
    obtain ⟨hne, hletters⟩ := letters_of_mem_tokens hmem
    have hbare : bareToken token = word.map Text.asciiLower := by
      refine bareToken_of_dressed hdress (by simpa using hne) fun c hc => ?_
      exact of_asciiLower_letter (hletters _ (List.mem_map_of_mem hc))
    rw [ofToken?, hbare]
    exact find?_of_mem_tokens hmem

example : ofToken? " \x7bSteel\x7d".toList = some (.typed .metal) := by decide

end CardEffects.CostSymbol
