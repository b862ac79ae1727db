/-
  CardEffects.Proofs.Reading.Template

  Reading whole families of texts at once.  A template is a text with holes, for numbers and for
  the letter of an energy type; filling its holes gives one text of the family.

    * `Template.ways?` — reads a phrase off the front of a template, or gives up where it would
      have to know what is in a hole.
    * `Template.ways_fill` — where it does not give up, filling the ways it finds gives the ways
      to read the phrase off the filled template.

  What is found out about a template by evaluation then holds of every text of the family.
-/
import CardEffects.Clause.Phrase
import Mathlib.Data.List.Basic

namespace CardEffects.Clause

/-! ## Templates -/

/-- What a hole for a number is for. -/
inductive NumberHole where
  | count
  | amount
  deriving DecidableEq, Repr

/-- What a hole for a letter is for: the energy spoken of, or the type of a Pokémon. -/
inductive LetterHole where
  | energy
  | kind
  deriving DecidableEq, Repr

/-- A character or a hole. -/
inductive Sym where
  | char (c : Char)
  | number (h : NumberHole)
  | letter (h : LetterHole)
  deriving DecidableEq, Repr

/-- What the holes are filled with: digits, at least one, and lower-case letters. -/
structure Filling where
  number : NumberHole → List Char
  letter : LetterHole → Char
  number_ne_nil : ∀ h, number h ≠ []
  isDigit_number : ∀ h, ∀ c ∈ number h, c.isDigit = true
  isLetter_letter : ∀ h, CharSet.isLetter (letter h) = true

/-- The characters that a symbol stands for. -/
def Sym.fill (σ : Filling) : Sym → List Char
  | char c => [c]
  | number h => σ.number h
  | letter h => [σ.letter h]

/-- A text with holes. -/
abbrev Template := List Sym

namespace Template

/-- The text that a filling makes of a template. -/
def fill (σ : Filling) (t : Template) : List Char := t.flatMap (Sym.fill σ)

variable (σ : Filling)

@[simp] theorem fill_nil : fill σ [] = [] := rfl

@[simp] theorem fill_char (c : Char) (t : Template) :
    fill σ (.char c :: t) = c :: fill σ t := rfl

@[simp] theorem fill_number (h : NumberHole) (t : Template) :
    fill σ (.number h :: t) = σ.number h ++ fill σ t := rfl

@[simp] theorem fill_letter (h : LetterHole) (t : Template) :
    fill σ (.letter h :: t) = σ.letter h :: fill σ t := rfl

@[simp] theorem fill_append (t u : Template) : fill σ (t ++ u) = fill σ t ++ fill σ u :=
  List.flatMap_append

/-! ## Reading off the front -/

/-- One way to read a phrase off the front of a template. -/
structure Way where
  taken : Template
  filled : List (Slot × Template)
  rest : Template
  deriving DecidableEq

/-- The way that a filling makes of it. -/
def Way.fill (w : Way) : Clause.Way where
  taken := Template.fill σ w.taken
  filled := w.filled.map fun s => (s.1, Template.fill σ s.2)
  rest := Template.fill σ w.rest

/-- The template behind a word, `some none` when it does not start with the word, and `none`
when that depends on the filling. -/
def afterWord? : List Char → Template → Option (Option Template)
  | [], t => some (some t)
  | _ :: _, [] => some none
  | w :: ws, .char c :: t => if w = c then afterWord? ws t else some none
  | w :: _, .number _ :: _ => if w.isDigit then none else some none
  | w :: ws, .letter _ :: t =>
    if CharSet.isLetter w then
      match afterWord? ws t with
      | some none => some none
      | _ => none
    else some none

/-- The ways to read one of several words. -/
def wordWays? (t : Template) : List (List Char) → Option (List Way)
  | [] => some []
  | w :: ws =>
    match afterWord? w t with
    | none => none
    | some none => wordWays? t ws
    | some (some rest) => (wordWays? t ws).map fun vs => ⟨w.map .char, [], rest⟩ :: vs

/-- The ways to read one character. -/
def oneWays? (set : CharSet) : Template → Option (List Way)
  | [] => some []
  | .char c :: t => some (if set.admits c then [⟨[.char c], [], t⟩] else [])
  | .number _ :: _ => none
  | .letter h :: t => some [⟨[.letter h], [], t⟩]

/-- Whether a number ends before this template, however it is filled. -/
def endsNumber : Template → Bool
  | [] => true
  | .char c :: _ => !c.isDigit
  | .number _ :: _ => false
  | .letter _ :: _ => true

/-- The ways to read a number. -/
def numberWays? : Template → Option (List Way)
  | [] => some []
  | .char c :: _ => if c.isDigit then none else some []
  | .number h :: t => if endsNumber t then some [⟨[.number h], [], t⟩] else none
  | .letter _ :: _ => some []

/-- The ways to cut a template in two, as `cuts` does with a text, where letters are admitted. -/
def cuts? (ok : Char → Bool) : Template → Option (List (Template × Template))
  | [] => some [([], [])]
  | .char c :: t =>
    if ok c then
      (cuts? ok t).map fun ps => ([], .char c :: t) :: ps.map fun p => (.char c :: p.1, p.2)
    else some [([], .char c :: t)]
  | .number _ :: _ => none
  | .letter h :: t =>
    (cuts? ok t).map fun ps => ([], .letter h :: t) :: ps.map fun p => (.letter h :: p.1, p.2)

/-- The ways to go on from each of several ways. -/
def andThen? (next : Template → Option (List Way)) : List Way → Option (List Way)
  | [] => some []
  | w :: ws =>
    match next w.rest, andThen? next ws with
    | some vs, some us =>
      some (vs.map (fun v => ⟨w.taken ++ v.taken, w.filled ++ v.filled, v.rest⟩) ++ us)
    | _, _ => none

/-- The ways to read a phrase off the front of a template, the preferred ones first; none when
they depend on the filling. -/
def ways? : Phrase → Template → Option (List Way)
  | .wordOf choices, t => wordWays? t choices
  | .one set, t => oneWays? set t
  | .digits, t => numberWays? t
  | .run set least, t =>
    (cuts? set.admits t).map fun ps => (ps.drop least).map fun p => ⟨p.1, [], p.2⟩
  | .slot s p, t =>
    (ways? p t).map fun ws => ws.map fun w => { w with filled := (s, w.taken) :: w.filled }
  | .optional p, t => (ways? p t).map fun ws => ws ++ [⟨[], [], t⟩]
  | .either p q, t =>
    match ways? p t, ways? q t with
    | some vs, some ws => some (vs ++ ws)
    | _, _ => none
  | .both p q, t =>
    match ways? p t with
    | some ws => andThen? (ways? q) ws
    | none => none
  | .atEnd, [] => some [⟨[], [], []⟩]
  | .atEnd, _ :: _ => some []

/-! ## What fills a hole -/

/-- A number begins with a digit. -/
theorem exists_digit (h : NumberHole) :
    ∃ d ds, σ.number h = d :: ds ∧ ∀ c ∈ d :: ds, c.isDigit = true := by
  have hdigits := σ.isDigit_number h
  cases htext : σ.number h with
  | nil => exact absurd htext (σ.number_ne_nil h)
  | cons d ds =>
    rw [htext] at hdigits
    exact ⟨d, ds, rfl, hdigits⟩

/-- A template with a symbol is not filled with nothing. -/
theorem fill_cons_ne_nil (a : Sym) (t : Template) : fill σ (a :: t) ≠ [] := by
  cases a with
  | char c => exact List.cons_ne_nil c _
  | number h =>
    obtain ⟨d, ds, htext, -⟩ := exists_digit σ h
    rw [fill_number, htext]
    exact List.cons_ne_nil d _
  | letter h => exact List.cons_ne_nil (σ.letter h) _

/-- No digit is a letter. -/
theorem isDigit_eq_false_of_isLetter {c : Char} (h : CharSet.isLetter c = true) :
    c.isDigit = false := by
  simp only [CharSet.isLetter, Bool.and_eq_true, decide_eq_true_eq] at h
  simp only [Char.isDigit, Bool.and_eq_false_iff, decide_eq_false_iff_not]
  right
  intro hle
  exact absurd (Char.le_trans h.1 hle) (by decide)

/-- Every set of characters admits the letters. -/
theorem admits_of_isLetter (set : CharSet) {c : Char} (h : CharSet.isLetter c = true) :
    set.admits c = true := by
  cases set with
  | letter => exact h
  | name => simp [CharSet.admits, h]
  | taggedName => simp [CharSet.admits, h]
  | any =>
    have hbreak : c ≠ '\n' := by
      rintro rfl
      exact absurd h (by decide)
    simp [CharSet.admits, hbreak]

/-! ## Soundness -/

/-- Reading a word off a template is reading it off the filled template. -/
theorem afterWord_fill {w : List Char} {t : Template} {r : Option Template}
    (h : afterWord? w t = some r) : Clause.afterWord? w (fill σ t) = r.map (fill σ) := by
  -- letter by letter; a hole stands where the answer is the same for whatever fills it
  induction w generalizing t r with
  | nil =>
    obtain rfl := Option.some.inj h
    rfl
  | cons a w ih =>
    cases t with
    | nil =>
      obtain rfl := Option.some.inj h
      rfl
    | cons x t =>
      cases x with
      | char c =>
        unfold afterWord? at h
        rw [fill_char]
        unfold Clause.afterWord?
        split at h
        next hc => rw [if_pos hc, ih h]
        next hc =>
          obtain rfl := Option.some.inj h
          rw [if_neg hc]
          rfl
      | number n =>
        unfold afterWord? at h
        obtain ⟨d, ds, htext, hdigits⟩ := exists_digit σ n
        split at h
        next => cases h
        next ha =>
          obtain rfl := Option.some.inj h
          have hne : a ≠ d := by
            rintro rfl
            exact ha (hdigits a List.mem_cons_self)
          rw [fill_number, htext, List.cons_append]
          unfold Clause.afterWord?
          rw [if_neg hne]
          rfl
      | letter l =>
        unfold afterWord? at h
        rw [fill_letter]
        unfold Clause.afterWord?
        split at h
        next ha =>
          -- the letter may be the one wanted, but the rest of the word is not there
          split at h
          next hnone =>
            obtain rfl := Option.some.inj h
            rw [ih hnone]
            split <;> rfl
          next => cases h
        next ha =>
          obtain rfl := Option.some.inj h
          have hne : a ≠ σ.letter l := by
            rintro rfl
            exact ha (σ.isLetter_letter l)
          rw [if_neg hne]
          rfl

@[simp] theorem fill_map_char (w : List Char) : fill σ (w.map .char) = w := by
  induction w with
  | nil => rfl
  | cons c w ih => rw [List.map_cons, fill_char, ih]

theorem wordWays_fill {choices : List (List Char)} {t : Template} {ws : List Way}
    (h : wordWays? t choices = some ws) :
    ways (.wordOf choices) (fill σ t) = ws.map (Way.fill σ) := by
  simp only [ways]
  induction choices generalizing ws with
  | nil =>
    obtain rfl := Option.some.inj h
    rfl
  | cons w choices ih =>
    unfold wordWays? at h
    rw [List.filterMap_cons]
    split at h
    next => cases h
    next hw =>
      rw [afterWord_fill σ hw]
      exact ih h
    next rest hw =>
      rw [afterWord_fill σ hw]
      obtain ⟨vs, hvs, rfl⟩ := Option.map_eq_some_iff.1 h
      rw [ih hvs]
      simp [Way.fill, fill_map_char]

theorem oneWays_fill {set : CharSet} {t : Template} {ws : List Way}
    (h : oneWays? set t = some ws) : ways (.one set) (fill σ t) = ws.map (Way.fill σ) := by
  cases t with
  | nil =>
    obtain rfl := Option.some.inj h
    rfl
  | cons x t =>
    cases x with
    | char c =>
      obtain rfl := Option.some.inj h
      rw [fill_char]
      unfold ways
      split <;> rfl
    | number n => cases h
    | letter l =>
      obtain rfl := Option.some.inj h
      rw [fill_letter]
      unfold ways
      rw [if_pos (admits_of_isLetter set (σ.isLetter_letter l))]
      rfl

/-- Where a number ends, no digit follows. -/
theorem takeWhile_of_endsNumber {t : Template} (h : endsNumber t = true) :
    (fill σ t).takeWhile Char.isDigit = []
      ∧ (fill σ t).dropWhile Char.isDigit = fill σ t := by
  have key : ∀ c cs, c.isDigit = false →
      (c :: cs).takeWhile Char.isDigit = []
        ∧ (c :: cs).dropWhile Char.isDigit = c :: cs := by
    intro c cs hc
    rw [List.takeWhile_cons_of_neg (by simp [hc]), List.dropWhile_cons_of_neg (by simp [hc])]
    exact ⟨rfl, rfl⟩
  cases t with
  | nil => exact ⟨rfl, rfl⟩
  | cons x t =>
    cases x with
    | char c => exact key c _ (by simpa [endsNumber] using h)
    | number n => cases h
    | letter l => exact key _ _ (isDigit_eq_false_of_isLetter (σ.isLetter_letter l))

theorem numberWays_fill {t : Template} {ws : List Way} (h : numberWays? t = some ws) :
    ways .digits (fill σ t) = ws.map (Way.fill σ) := by
  have hnone : endsNumber t = true → ws = [] →
      ways .digits (fill σ t) = ws.map (Way.fill σ) := by
    rintro hend rfl
    simp only [ways, (takeWhile_of_endsNumber σ hend).1, List.map_nil]
  cases t with
  | nil => exact hnone rfl (Option.some.inj h).symm
  | cons x t =>
    cases x with
    | char c =>
      rw [numberWays?] at h
      split at h
      next => cases h
      next hc => exact hnone (by simpa [endsNumber] using hc) (Option.some.inj h).symm
    | number n =>
      rw [numberWays?] at h
      split at h
      next hend =>
        obtain rfl := Option.some.inj h
        -- the digits of the hole are taken, and none behind it
        obtain ⟨d, ds, htext, hdigits⟩ := exists_digit σ n
        obtain ⟨htake, hdrop⟩ := takeWhile_of_endsNumber σ hend
        simp only [ways, fill_number, htext]
        rw [List.takeWhile_append_of_pos hdigits, List.dropWhile_append_of_pos hdigits, htake,
          hdrop]
        simp [Way.fill, htext]
      next => cases h
    | letter l => exact hnone rfl (Option.some.inj h).symm

theorem cuts_fill {ok : Char → Bool} (hok : ∀ c, CharSet.isLetter c = true → ok c = true)
    {t : Template} {ps : List (Template × Template)} (h : cuts? ok t = some ps) :
    cuts ok (fill σ t) = ps.map fun p => (fill σ p.1, fill σ p.2) := by
  induction t generalizing ps with
  | nil =>
    obtain rfl := Option.some.inj h
    rfl
  | cons a t ih =>
    cases a with
    | char c =>
      unfold cuts? at h
      rw [fill_char]
      unfold cuts
      split at h
      next hc =>
        obtain ⟨qs, hqs, rfl⟩ := Option.map_eq_some_iff.1 h
        rw [if_pos hc, ih hqs]
        simp [List.map_map, Function.comp_def]
      next hc =>
        obtain rfl := Option.some.inj h
        rw [if_neg hc]
        rfl
    | number n => cases h
    | letter l =>
      unfold cuts? at h
      rw [fill_letter]
      unfold cuts
      obtain ⟨qs, hqs, rfl⟩ := Option.map_eq_some_iff.1 h
      rw [if_pos (hok _ (σ.isLetter_letter l)), ih hqs]
      simp [List.map_map, Function.comp_def]

theorem andThen_fill {q : Phrase} {next : Template → Option (List Way)}
    (hnext : ∀ {t vs}, next t = some vs → ways q (fill σ t) = vs.map (Way.fill σ))
    {ws us : List Way} (h : andThen? next ws = some us) :
    (ws.map (Way.fill σ)).flatMap (fun w =>
        (ways q w.rest).map fun v =>
          (⟨w.taken ++ v.taken, w.filled ++ v.filled, v.rest⟩ : Clause.Way))
      = us.map (Way.fill σ) := by
  induction ws generalizing us with
  | nil =>
    obtain rfl := Option.some.inj h
    rfl
  | cons w ws ih =>
    unfold andThen? at h
    split at h
    next vs us' hvs hus =>
      obtain rfl := Option.some.inj h
      rw [List.map_cons, List.flatMap_cons, ih hus]
      show (ways q (fill σ w.rest)).map _ ++ _ = _
      rw [hnext hvs]
      simp [Way.fill, List.map_map, Function.comp_def]
    next => cases h

/-- The ways to read a phrase off a template are, filled, the ways to read it off the text. -/
theorem ways_fill {p : Phrase} {t : Template} {ws : List Way} (h : ways? p t = some ws) :
    ways p (fill σ t) = ws.map (Way.fill σ) := by
  -- by the shape of the phrase, as the ways to read it are defined
  induction p generalizing t ws with
  | wordOf choices => exact wordWays_fill σ h
  | one set => exact oneWays_fill σ h
  | digits => exact numberWays_fill σ h
  | run set least =>
    obtain ⟨ps, hps, rfl⟩ := Option.map_eq_some_iff.1 h
    simp only [ways, cuts_fill σ (fun _ => admits_of_isLetter set) hps]
    simp [Way.fill, List.map_drop, List.map_map, Function.comp_def]
  | slot s p ih =>
    obtain ⟨vs, hvs, rfl⟩ := Option.map_eq_some_iff.1 h
    simp only [ways, ih hvs]
    simp [Way.fill, List.map_map, Function.comp_def]
  | optional p ih =>
    obtain ⟨vs, hvs, rfl⟩ := Option.map_eq_some_iff.1 h
    simp only [ways, ih hvs]
    simp [Way.fill]
  | either p q ihp ihq =>
    unfold ways? at h
    split at h
    next vs ws' hvs hws =>
      obtain rfl := Option.some.inj h
      simp only [ways, ihp hvs, ihq hws, List.map_append]
    next => cases h
  | both p q ihp ihq =>
    unfold ways? at h
    split at h
    next vs hvs =>
      simp only [ways, ihp hvs]
      exact andThen_fill σ ihq h
    next => cases h
  | atEnd =>
    cases t with
    | nil =>
      obtain rfl := Option.some.inj h
      rfl
    | cons x t =>
      obtain rfl := Option.some.inj h
      obtain ⟨c, cs, hcs⟩ := List.exists_cons_of_ne_nil (fill_cons_ne_nil σ x t)
      rw [hcs]
      rfl

end Template

end CardEffects.Clause
