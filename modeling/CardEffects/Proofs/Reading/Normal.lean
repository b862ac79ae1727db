/-
  CardEffects.Proofs.Reading.Normal

  The normal form of tidy texts, and numbers in them.

    * `Clause.normalize_of_tidy` — a text with single spaces between its words, and neither of
      the two letters that are lower-cased by context, is normalized letter by letter.
    * `Clause.number_toDigits` — a count written in decimal is read as that count.
-/
import CardEffects.Clause.Normal
import CardEffects.Clause.Values

namespace CardEffects.Clause

/-! ## Blanks -/

theorem isBlank_foldChar (c : Char) : Text.isBlank (foldChar c) = Text.isBlank c := by
  unfold foldChar
  split
  next h => rcases h with rfl | rfl <;> decide
  next =>
    split
    next h => rcases h with rfl | rfl <;> decide
    next =>
      split
      next h => rcases h with rfl | rfl | rfl <;> decide
      next => rfl

/-! ## Tidy texts -/

/-- The normal form of a single letter. -/
def normalChar (c : Char) : Char := Text.lowerChar (foldChar c)

/-- Whether a character belongs to a word, and is lower-cased by itself. -/
def inWord (c : Char) : Bool :=
  !Text.isBlank (foldChar c) && foldChar c != 'Σ' && foldChar c != 'İ'

/-- Whether a word has to come next after a text, `gap` saying so at its start; nothing when two
words are not separated by just one space. -/
def gapAfter? (gap : Bool) : List Char → Option Bool
  | [] => some gap
  | c :: cs =>
    if c = ' ' then (if gap then none else gapAfter? true cs)
    else if inWord c then gapAfter? false cs
    else none

theorem gapAfter?_append (gap : Bool) (cs ds : List Char) :
    gapAfter? gap (cs ++ ds) = (gapAfter? gap cs).bind fun g => gapAfter? g ds := by
  induction cs generalizing gap with
  | nil => rfl
  | cons c cs ih =>
    rw [List.cons_append, gapAfter?, gapAfter?]
    split
    · cases gap with
      | true => rfl
      | false => exact ih true
    · split
      · exact ih false
      · rfl

/-- A text of words only ends in one. -/
theorem gapAfter?_of_inWord {cs : List Char} (hne : cs ≠ [])
    (hcs : ∀ c ∈ cs, c ≠ ' ' ∧ inWord c = true) (gap : Bool) : gapAfter? gap cs = some false := by
  induction cs generalizing gap with
  | nil => exact absurd rfl hne
  | cons c cs ih =>
    obtain ⟨hspace, hword⟩ := hcs c List.mem_cons_self
    unfold gapAfter?
    rw [if_neg hspace, if_pos hword]
    cases cs with
    | nil => rfl
    | cons d cs => exact ih (by simp) (fun c hc => hcs c (List.mem_cons_of_mem _ hc)) false

/-- A character of a word is not blank, and lower-cased by itself. -/
theorem of_inWord {c : Char} (h : inWord c = true) :
    Text.isBlank c = false ∧ c ≠ 'Σ' ∧ c ≠ 'İ' := by
  simp only [inWord, Bool.and_eq_true, Bool.not_eq_true', bne_iff_ne, isBlank_foldChar] at h
  obtain ⟨⟨hblank, hsigma⟩, hdot⟩ := h
  -- folding leaves the two letters alone
  have hfold : foldChar 'Σ' = 'Σ' ∧ foldChar 'İ' = 'İ' := by decide
  refine ⟨hblank, ?_, ?_⟩
  · rintro rfl
    exact hsigma hfold.1
  · rintro rfl
    exact hdot hfold.2

/-- A tidy text goes on with a space, where one may stand, or with a word. -/
theorem gapAfter?_cons {gap : Bool} {c : Char} {cs : List Char}
    (h : gapAfter? gap (c :: cs) = some false) :
    c = ' ' ∧ gap = false ∧ gapAfter? true cs = some false
      ∨ c ≠ ' ' ∧ inWord c = true ∧ gapAfter? false cs = some false := by
  unfold gapAfter? at h
  split at h
  next hspace =>
    cases gap with
    | true => cases h
    | false => exact .inl ⟨hspace, rfl, h⟩
  next hspace =>
    split at h
    next hword => exact .inr ⟨hspace, hword, h⟩
    next => cases h

/-- A tidy text holds nothing but words and spaces. -/
theorem inWord_of_gapAfter? {gap : Bool} {cs : List Char} (h : gapAfter? gap cs = some false) :
    ∀ c ∈ cs, c = ' ' ∨ inWord c = true := by
  induction cs generalizing gap with
  | nil => exact List.forall_mem_nil _
  | cons c cs ih =>
    rw [List.forall_mem_cons]
    rcases gapAfter?_cons h with ⟨hspace, -, hrest⟩ | ⟨-, hword, hrest⟩
    · exact ⟨.inl hspace, ih hrest⟩
    · exact ⟨.inr hword, ih hrest⟩

private theorem isBlank_space : Text.isBlank ' ' = true := by decide

/-- What a tidy text has before it, a word or a space, is passed over once. -/
private theorem squeezeFrom_of_gapAfter? {gap : Bool} {cs : List Char}
    (h : gapAfter? gap cs = some false) :
    Text.squeezeFrom true gap cs = (if gap then ' ' :: cs else cs) := by
  -- along the text; the gap is the space that the squeezed text still owes
  induction cs generalizing gap with
  | nil =>
    obtain rfl := Option.some.inj h
    rfl
  | cons c cs ih =>
    unfold Text.squeezeFrom
    rcases gapAfter?_cons h with ⟨rfl, rfl, hrest⟩ | ⟨-, hword, hrest⟩
    · -- a space behind a word is owed
      rw [isBlank_space, if_pos rfl, ih hrest]
      rfl
    · -- behind a word no space is owed
      have hbehind := ih hrest
      rw [if_neg (by decide)] at hbehind
      rw [(of_inWord hword).1, hbehind]
      cases gap <;> rfl

/-- A tidy text has nothing to squeeze. -/
theorem squeeze_of_tidy {cs : List Char} (h : gapAfter? true cs = some false) :
    Text.squeeze cs = cs := by
  cases cs with
  | nil => cases h
  | cons c cs =>
    rcases gapAfter?_cons h with ⟨-, hgap, -⟩ | ⟨-, hword, hrest⟩
    · cases hgap
    · have hbehind := squeezeFrom_of_gapAfter? hrest
      unfold Text.squeeze Text.squeezeFrom
      rw [(of_inWord hword).1, hbehind]
      rfl

/-- What keeps blanks and words apart may as well be done after squeezing. -/
theorem squeezeFrom_map {f : Char → Char} (hblank : ∀ c, Text.isBlank (f c) = Text.isBlank c)
    (hspace : f ' ' = ' ') (started pending : Bool) (cs : List Char) :
    Text.squeezeFrom started pending (cs.map f)
      = (Text.squeezeFrom started pending cs).map f := by
  induction cs generalizing started pending with
  | nil => rfl
  | cons c cs ih =>
    rw [List.map_cons, Text.squeezeFrom, Text.squeezeFrom, hblank]
    split
    · exact ih started true
    · split
      · rw [List.map_cons, List.map_cons, ih, hspace]
      · rw [List.map_cons, ih]

/-- Folding leaves blanks as they are, so it comes after squeezing as well as before. -/
theorem normalize_eq (cs : List Char) :
    normalize cs = Text.lowercase ((Text.squeeze cs).map foldChar) := by
  rw [normalize, Text.squeeze, squeezeFrom_map isBlank_foldChar (by decide), Text.squeeze]

/-- A text without the two letters that depend on their context is lower-cased letter by
letter. -/
theorem lowerFrom_eq_map {cs : List Char} (h : ∀ c ∈ cs, c ≠ 'Σ' ∧ c ≠ 'İ')
    (afterCased : Bool) : Text.lowerFrom afterCased cs = cs.map Text.lowerChar := by
  induction cs generalizing afterCased with
  | nil => rfl
  | cons c cs ih =>
    obtain ⟨hsigma, hdot⟩ := h c List.mem_cons_self
    unfold Text.lowerFrom Text.lowerAt
    rw [if_neg hsigma, if_neg hdot, ih fun c hc => h c (List.mem_cons_of_mem _ hc)]
    rfl

/-- A tidy text is normalized letter by letter. -/
theorem normalize_of_tidy {cs : List Char} (h : gapAfter? true cs = some false) :
    normalize cs = cs.map normalChar := by
  have hletters : ∀ c ∈ cs.map foldChar, c ≠ 'Σ' ∧ c ≠ 'İ' := by
    rw [List.forall_mem_map]
    intro c hc
    rcases inWord_of_gapAfter? h c hc with rfl | hword
    · decide
    · simp only [inWord, Bool.and_eq_true, bne_iff_ne] at hword
      exact ⟨hword.1.2, hword.2⟩
  rw [normalize_eq, squeeze_of_tidy h, Text.lowercase, lowerFrom_eq_map hletters, List.map_map]
  rfl

/-! ## Numbers -/

/-- The ten digits. -/
def digits : List Char := ['0', '1', '2', '3', '4', '5', '6', '7', '8', '9']

theorem mem_digits {c : Char} (h : c.isDigit = true) : c ∈ digits := by
  simp only [Char.isDigit, Bool.and_eq_true, decide_eq_true_eq] at h
  obtain ⟨hlo, hhi⟩ := h
  have hlo' : 48 ≤ c.toNat := hlo
  have hhi' : c.toNat ≤ 57 := hhi
  -- the characters between these bounds are taken by their number
  rw [← Char.ofNat_toNat c]
  generalize c.toNat = n at hlo' hhi'
  have hn : n = 48 ∨ n = 49 ∨ n = 50 ∨ n = 51 ∨ n = 52 ∨ n = 53 ∨ n = 54 ∨ n = 55 ∨ n = 56
      ∨ n = 57 := by omega
  rcases hn with rfl | rfl | rfl | rfl | rfl | rfl | rfl | rfl | rfl | rfl <;> decide

/-- A digit belongs to a word, and is left alone by trimming and by normalizing. -/
theorem of_isDigit {c : Char} (h : c.isDigit = true) :
    Text.isBlank c = false ∧ normalChar c = c ∧ inWord c = true ∧ c ≠ ' ' := by
  have hall : digits.all (fun d =>
      !Text.isBlank d && normalChar d == d && inWord d && d != ' ') = true := by decide
  have hc := List.all_eq_true.1 hall c (mem_digits h)
  simp only [Bool.and_eq_true, Bool.not_eq_true', beq_iff_eq, bne_iff_ne] at hc
  exact ⟨hc.1.1.1, hc.1.1.2, hc.1.2, hc.2⟩

theorem map_normalChar_toDigits (n : Nat) :
    (Nat.toDigits 10 n).map normalChar = Nat.toDigits 10 n := by
  have h : ∀ c ∈ Nat.toDigits 10 n, normalChar c = id c := fun c hc =>
    (of_isDigit (Nat.isDigit_of_mem_toDigits (by decide) (by decide) hc)).2.1
  rw [List.map_congr_left h, List.map_id]

theorem gapAfter?_toDigits (gap : Bool) (n : Nat) :
    gapAfter? gap (Nat.toDigits 10 n) = some false := by
  refine gapAfter?_of_inWord Nat.toDigits_ne_nil (fun c hc => ?_) gap
  obtain ⟨-, -, hword, hspace⟩ :=
    of_isDigit (Nat.isDigit_of_mem_toDigits (by decide) (by decide) hc)
  exact ⟨hspace, hword⟩

/-- A text without blanks is left alone by trimming. -/
theorem trim_of_not_isBlank {cs : List Char} (h : ∀ c ∈ cs, Text.isBlank c = false) :
    Text.trim cs = cs := by
  have hdrop : ∀ ds : List Char, (∀ c ∈ ds, Text.isBlank c = false) →
      ds.dropWhile Text.isBlank = ds := by
    intro ds hds
    cases ds with
    | nil => rfl
    | cons d ds => rw [List.dropWhile_cons_of_neg (by simp [hds d List.mem_cons_self])]
  rw [Text.trim, Text.trimStart, hdrop cs h, Text.trimEnd,
    hdrop _ fun c hc => h c (List.mem_reverse.1 hc), List.reverse_reverse]

/-- A number written in decimal is read as the count that it is, if it is not too large. -/
theorem number_decimal (n : Nat) :
    number (some (Nat.toDigits 10 n)) = (Word.ofNat? n).getD 0 := by
  have hdigits : ∀ c ∈ Nat.toDigits 10 n, c.isDigit = true :=
    fun c hc => Nat.isDigit_of_mem_toDigits (by decide) (by decide) hc
  have hwords : numberWords.lookup (Nat.toDigits 10 n) = none := by
    -- every word for a number begins with a letter
    have hletters : numberWords.all (fun p => p.1.any fun c => !c.isDigit) = true := by
      decide
    rw [List.lookup_eq_none_iff]
    intro p hp
    obtain ⟨c, hc, hletter⟩ := List.any_eq_true.1 (List.all_eq_true.1 hletters p hp)
    rw [bne_iff_ne]
    intro heq
    rw [hdigits c (heq ▸ hc)] at hletter
    cases hletter
  have htrim : Text.trim (Nat.toDigits 10 n) = Nat.toDigits 10 n :=
    trim_of_not_isBlank fun c hc => (of_isDigit (hdigits c hc)).1
  have hread : readDigits? (Nat.toDigits 10 n) = Word.ofNat? n := by
    rw [readDigits?, if_pos ⟨Nat.toDigits_ne_nil, List.all_eq_true.2 hdigits⟩,
      Nat.ofDigitChars_ten_toDigits]
  show (readNumber? (Text.trim _)).getD 0 = _
  rw [htrim, readNumber?, hwords, hread]

/-- A count written in decimal is read as that count. -/
theorem number_toDigits (n : Word) : number (some (Nat.toDigits 10 n.toNat)) = n := by
  rw [number_decimal, Word.ofNat?_toNat]
  rfl

end CardEffects.Clause
