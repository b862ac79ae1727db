/-
  CardEffects.Proofs.Reading.Search

  Which rules find something in the texts of a template.

    * `RuleName.spelled` — the phrase of a rule with its words spelled out letter by letter.
    * `findFrom_append`, `findFrom_eq_map` — a search goes past a text with nothing in it, and finds
      the same behind any text.
    * `opening` — the first letters of the sentence so far; whether it is gated is read off them.
    * `Template.silent` — checks that no rule but one can be used anywhere in a template:
      at each place a rule is turned down by the gate, or it cannot be read there.
    * `Template.accepted_eq_nil` — then every other rule accepts nothing.
    * `Template.findAll_eq` — a rule that is read at the very front, and nowhere behind, finds
      just that.
    * `effects_ofText` — the effects of a given text, evaluated.
-/
import CardEffects.Proofs.Reading.Normal
import CardEffects.Proofs.Reading.Template
import CardEffects.Reading
import Mathlib.Data.List.Basic

namespace CardEffects.Clause

/-! ## Phrases spelled out -/

/-- The phrase of a rule with its words spelled out, so that it can be evaluated quickly. -/
def RuleName.spelled (r : RuleName) : { p : Phrase // r.phrase = p } := by
  cases r
  all_goals
    -- the equation is proved first, and what it is proved with is the phrase
    refine ⟨?_, ?_⟩
    rotate_left
    · simp only [RuleName.phrase, Phrase.coinCount, Phrase.numberOr, Phrase.amount,
        Phrase.energyToken, Phrase.someEnergy, Phrase.coinWord, Phrase.allHeads,
        Phrase.moreDamage, Phrase.conditionWord, Phrase.sufferer, Phrase.gainTarget,
        Phrase.holder, Phrase.patient, Phrase.discardAmount, Phrase.seq, Phrase.word,
        Phrase.words, List.map]
      repeat rewrite [String.toList_ofList]
      rfl

/-! ## Sentences -/

/-- The first letters of the sentence so far, `before` being the text up to a place, its last
character first. -/
def opening (before : List Char) : List Char := (Text.trimStart (sentenceBefore before)).take 5

/-- The first letters with one more character read. -/
def advance (o : List Char) (c : Char) : List Char :=
  if c = '.' then []
  else if o = [] then (if Text.isBlank c then [] else [c])
  else if o.length = 5 then o
  else o ++ [c]

/-- Whether a sentence with these first letters is gated. -/
def gates (o : List Char) : Bool := startsWith "if " o || startsWith "flip " o

@[simp] theorem opening_nil : opening [] = [] := rfl

theorem opening_cons (c : Char) (before : List Char) :
    opening (c :: before) = advance (opening before) c := by
  unfold opening advance sentenceBefore
  by_cases hc : c = '.'
  · simp [hc, Text.trimStart]
  · rw [List.takeWhile_cons_of_pos (by simpa using hc), List.reverse_cons, if_neg hc]
    generalize (before.takeWhile (· ≠ '.')).reverse = s
    unfold Text.trimStart
    rw [List.dropWhile_append]
    cases hs : s.dropWhile Text.isBlank with
    | nil =>
      -- nothing but blanks so far
      by_cases hb : Text.isBlank c <;> simp [hb]
    | cons a s =>
      rw [if_neg (by simp), if_neg (by simp), List.length_take]
      split
      next hlong =>
        -- five letters are known, and more do not change them
        rw [List.take_append_of_le_length (by omega)]
      next hshort =>
        -- with one letter more there are still at most five
        have hfits : ((a :: s) ++ [c]).length ≤ 5 := by
          rw [List.length_append, List.length_singleton]
          omega
        rw [List.take_of_length_le hfits, List.take_of_length_le (by omega)]

theorem isGated_eq (before : List Char) : isGated before = gates (opening before) := by
  have hstarts : ∀ w s, w.toList.length ≤ 5 → startsWith w (s.take 5) = startsWith w s := by
    intro w s hw
    unfold startsWith
    rw [Bool.eq_iff_iff, List.isPrefixOf_iff_prefix, List.isPrefixOf_iff_prefix,
      List.prefix_take_iff]
    simp [hw]
  unfold isGated gates opening
  rw [hstarts "if " _ (by decide), hstarts "flip " _ (by decide)]

/-- Once the first letters are known, more text in the sentence does not change them. -/
theorem opening_append {seen cs : List Char} (hlen : (opening seen).length = 5)
    (hcs : ∀ c ∈ cs, c ≠ '.') : opening (cs.reverse ++ seen) = opening seen := by
  induction cs generalizing seen with
  | nil => rfl
  | cons c cs ih =>
    have hstep : opening (c :: seen) = opening seen := by
      have hne : opening seen ≠ [] := by
        intro h
        rw [h] at hlen
        exact absurd hlen (by decide)
      rw [opening_cons, advance, if_neg (hcs c List.mem_cons_self), if_neg hne, if_pos hlen]
    rw [List.reverse_cons, List.append_assoc, List.singleton_append]
    rw [ih (by rw [hstep]; exact hlen) fun c hc => hcs c (List.mem_cons_of_mem _ hc), hstep]

/-! ## Searching on -/

/-- Behind a reading a search goes on. -/
theorem findFrom_skip {p : Phrase} {seen taken rest : List Char} :
    findFrom p seen taken.length (taken ++ rest) = findFrom p (taken.reverse ++ seen) 0 rest := by
  induction taken generalizing seen with
  | nil => rfl
  | cons c taken ih =>
    rw [List.reverse_cons, List.append_assoc]
    exact ih

/-- A search goes past a text in which the phrase can be read nowhere. -/
theorem findFrom_append {p : Phrase} {front rest : List Char}
    (h : ∀ s, s <:+ front → s ≠ [] → ways p (s ++ rest) = []) (seen : List Char) :
    findFrom p seen 0 (front ++ rest) = findFrom p (front.reverse ++ seen) 0 rest := by
  induction front generalizing seen with
  | nil => rfl
  | cons c front ih =>
    have hhere : ways p (c :: (front ++ rest)) = [] :=
      h (c :: front) List.suffix_rfl (List.cons_ne_nil c front)
    have hbehind := ih (fun s hs => h s (hs.trans (List.suffix_cons c front))) (c :: seen)
    rw [List.cons_append, findFrom, read?_eq_head?, hhere]
    show findFrom p (c :: seen) 0 (front ++ rest) = _
    rw [hbehind, List.reverse_cons, List.append_assoc]
    rfl

/-- What is found does not depend on the text before it. -/
theorem findFrom_eq_map (p : Phrase) (seen cs : List Char) (skip : Nat) :
    findFrom p seen skip cs
      = (findFrom p [] skip cs).map fun f => { f with before := f.before ++ seen } := by
  -- along the text, for any text already seen; both sides pass on one more character
  induction cs generalizing seen skip with
  | nil => cases skip <;> rfl
  | cons c cs ih =>
    have hbehind : ∀ skip, findFrom p (c :: seen) skip cs
        = (findFrom p [c] skip cs).map fun f => { f with before := f.before ++ seen } := by
      intro skip
      rw [ih (c :: seen) skip, ih [c] skip, List.map_map]
      refine List.map_congr_left fun f _ => ?_
      simp
    cases skip with
    | succ skip => exact hbehind skip
    | zero =>
      unfold findFrom
      cases read? p (c :: cs) with
      | none => exact hbehind 0
      | some w => simp [hbehind]

/-- A phrase that is read at the start of a text is found there, and then in what is left. -/
theorem findAll_of_read? {p : Phrase} {taken rest : List Char} {filled : List (Slot × List Char)}
    (hne : taken ≠ []) (h : read? p (taken ++ rest) = some ⟨taken, filled, rest⟩) :
    findAll p (taken ++ rest)
      = ⟨[], taken, filled, rest⟩
        :: (findAll p rest).map fun f => { f with before := f.before ++ taken.reverse } := by
  cases taken with
  | nil => exact absurd rfl hne
  | cons c cs =>
    have hbehind : findFrom p [c] ((c :: cs).length - 1) (cs ++ rest)
        = (findAll p rest).map fun f => { f with before := f.before ++ (c :: cs).reverse } := by
      rw [List.length_cons, Nat.add_sub_cancel, findFrom_skip, findFrom_eq_map, findAll,
        List.reverse_cons]
    rw [List.cons_append] at h ⊢
    rw [findAll, findFrom, h]
    exact congrArg _ hbehind

/-! ## Where a phrase can begin -/

/-- Whether a phrase may begin with a character. -/
def opens : Phrase → Char → Bool
  | .wordOf choices, c =>
    choices.any fun w =>
      match w with
      | [] => true
      | a :: _ => a == c
  | .one set, c => set.admits c
  | .digits, c => c.isDigit
  | .run set least, c => least == 0 || set.admits c
  | .slot _ p, c => opens p c
  | .optional _, _ => true
  | .either p q, c => opens p c || opens q c
  | .both p _, c => opens p c
  | .atEnd, _ => false

theorem ways_eq_nil_of_not_opens {p : Phrase} {c : Char} {cs : List Char}
    (h : opens p c = false) : ways p (c :: cs) = [] := by
  -- by the shape of the phrase; what may be empty opens with anything
  induction p with
  | wordOf choices =>
    simp only [opens, List.any_eq_false] at h
    simp only [ways, List.filterMap_eq_nil_iff]
    intro w hw
    have hopens := h w hw
    cases w with
    | nil => exact absurd rfl hopens
    | cons a w =>
      have hac : a ≠ c := by simpa using hopens
      simp [afterWord?, hac]
  | one set =>
    have hc : set.admits c = false := h
    simp [ways, hc]
  | digits =>
    have hc : c.isDigit = false := h
    simp [ways, hc]
  | run set least =>
    simp only [opens, Bool.or_eq_false_iff, beq_eq_false_iff_ne] at h
    obtain ⟨n, rfl⟩ := Nat.exists_eq_succ_of_ne_zero h.1
    simp [ways, cuts, h.2]
  | slot s p ih =>
    simp only [ways, ih h, List.map_nil]
  | optional p ih => cases h
  | either p q ihp ihq =>
    simp only [opens, Bool.or_eq_false_iff] at h
    simp only [ways, ihp h.1, ihq h.2, List.append_nil]
  | both p q ihp ihq =>
    simp only [ways, ihp h, List.flatMap_nil]
  | atEnd => rfl

/-- The rules whose phrase may begin with a character. -/
def openers (c : Char) : List RuleName :=
  Enumeration.all.filter fun r => opens r.spelled.val c

theorem mem_openers {r : RuleName} {c : Char} : r ∈ openers c ↔ opens r.phrase c = true := by
  rw [openers, List.mem_filter, ← r.spelled.property]
  simp

/-! ## Rules that are not used -/

/-- A rule is not used at a place: the gate turns it down, or it cannot be read there. -/
def Unused (r : RuleName) (seen cs : List Char) : Prop :=
  r.place = .plain ∧ isGated seen = true ∨ ways r.phrase cs = []

/-- What a rule finds in a text is turned down, if it is not used at the first place and what it
finds behind that is turned down. -/
theorem admits_findFrom_cons {r : RuleName} {seen cs : List Char} {c : Char}
    (hfirst : Unused r seen (c :: cs))
    (hrest : ∀ skip, ∀ f ∈ findFrom r.phrase (c :: seen) skip cs, Reading.admits r f = false)
    (skip : Nat) : ∀ f ∈ findFrom r.phrase seen skip (c :: cs), Reading.admits r f = false := by
  intro f hf
  cases skip with
  | succ skip =>
    -- the place is covered by a reading before it
    exact hrest skip f hf
  | zero =>
    unfold findFrom at hf
    rw [read?_eq_head?] at hf
    cases hways : ways r.phrase (c :: cs) with
    | nil =>
      rw [hways] at hf
      exact hrest 0 f hf
    | cons w ws =>
      rw [hways] at hf
      rcases List.mem_cons.1 hf with rfl | hf
      · -- what is read here is turned down, as the gate does so
        rcases hfirst with ⟨hplain, hgated⟩ | hnone
        · simp only [Reading.admits, hplain]
          rw [hgated]
          rfl
        · rw [hnone] at hways
          cases hways
      · exact hrest _ f hf

/-- The same for several characters with none of which the rule can begin. -/
theorem admits_findFrom_append {r : RuleName} {seen ds cs : List Char}
    (hds : ∀ d ∈ ds, opens r.phrase d = false)
    (hrest : ∀ skip, ∀ f ∈ findFrom r.phrase (ds.reverse ++ seen) skip cs,
      Reading.admits r f = false)
    (skip : Nat) : ∀ f ∈ findFrom r.phrase seen skip (ds ++ cs), Reading.admits r f = false := by
  -- character by character, each going over to the text seen
  induction ds generalizing seen skip with
  | nil => exact hrest skip
  | cons d ds ih =>
    refine admits_findFrom_cons (.inr (ways_eq_nil_of_not_opens (hds d List.mem_cons_self)))
      (fun skip => ih (fun d hd => hds d (List.mem_cons_of_mem _ hd)) ?_ skip) skip
    intro skip f hf
    refine hrest skip f ?_
    rwa [List.reverse_cons, List.append_assoc, List.singleton_append]

namespace Template

/-! ## Templates in which only one rule is used -/

/-- Whether a rule is not used at the front of a template, in a sentence with first letters
`o`. -/
def unused (o : List Char) (t : Template) (r : RuleName) : Bool :=
  (match ways? r.spelled.val t with
    | some [] => true
    | _ => false)
    || r.place == .plain && gates o

/-- Whether no rule but `own` is used anywhere in a template.  Where a number stands, no rule
may begin with a digit; where a hole stands, the first letters of the sentence have to be
known. -/
def silent (own : RuleName) : List Char → Template → Bool
  | _, [] => true
  | o, .char c :: t =>
    ((openers c).all fun r => r == own || unused o (.char c :: t) r) && silent own (advance o c) t
  | o, .number _ :: t =>
    (digits.all fun d => (openers d).isEmpty) && o.length == 5 && silent own o t
  | o, .letter h :: t =>
    ((Enumeration.all : List RuleName).all fun r => r == own || unused o (.letter h :: t) r)
      && o.length == 5 && silent own o t

variable (σ : Filling)

theorem unused_fill {o : List Char} {t : Template} {r : RuleName} {seen : List Char}
    (h : unused o t r = true) (ho : opening seen = o) : Unused r seen (fill σ t) := by
  unfold unused at h
  rw [Bool.or_eq_true] at h
  rcases h with h | h
  · split at h
    next hways =>
      have hnone := ways_fill σ hways
      rw [← r.spelled.property] at hnone
      exact .inr hnone
    next => cases h
  · simp only [Bool.and_eq_true, beq_iff_eq] at h
    exact .inl ⟨h.1, by rw [isGated_eq, ho, h.2]⟩

/-- A number hides no place where a rule is used, and leaves the first letters as they are. -/
private theorem admits_findFrom_number {r : RuleName} {n : NumberHole} {t : Template}
    {seen : List Char} (hdigits : (digits.all fun d => (openers d).isEmpty) = true)
    (hlen : (opening seen).length = 5)
    (hrest : ∀ skip seen', opening seen' = opening seen →
      ∀ f ∈ findFrom r.phrase seen' skip (fill σ t), Reading.admits r f = false) (skip : Nat) :
    ∀ f ∈ findFrom r.phrase seen skip (fill σ (.number n :: t)), Reading.admits r f = false := by
  obtain ⟨d, ds, htext, hnumber⟩ := exists_digit σ n
  rw [fill_number, htext]
  refine admits_findFrom_append (fun d hd => ?_) (fun skip => hrest skip _ ?_) skip
  · have hnone := List.all_eq_true.1 hdigits d (mem_digits (hnumber d hd))
    rw [← Bool.not_eq_true, ← mem_openers, List.isEmpty_iff.1 hnone]
    exact List.not_mem_nil
  · -- a number has no full stop in it
    refine opening_append hlen fun c hc => ?_
    rintro rfl
    exact absurd (hnumber _ hc) (by decide)

/-- In a silent template what any other rule finds is turned down. -/
theorem admits_findFrom {own r : RuleName} (hr : r ≠ own) {o : List Char} {t : Template}
    {seen : List Char} (h : silent own o t = true) (ho : opening seen = o) (skip : Nat) :
    ∀ f ∈ findFrom r.phrase seen skip (fill σ t), Reading.admits r f = false := by
  have hown : (r == own) = false := beq_eq_false_iff_ne.2 hr
  -- along the template; the first letters of the sentence are kept up with the text seen
  induction t generalizing o seen skip with
  | nil =>
    intro f hf
    cases skip <;> cases hf
  | cons a t ih =>
    subst ho
    cases a with
    | char c =>
      simp only [silent, Bool.and_eq_true, List.all_eq_true] at h
      rw [fill_char]
      refine admits_findFrom_cons ?_ (fun skip => ih h.2 (opening_cons c seen) skip) skip
      cases hopens : opens r.phrase c with
      | false => exact .inr (ways_eq_nil_of_not_opens hopens)
      | true =>
        have hunused := h.1 r (mem_openers.2 hopens)
        rw [hown, Bool.false_or] at hunused
        exact unused_fill σ hunused rfl
    | number n =>
      simp only [silent, Bool.and_eq_true, beq_iff_eq] at h
      exact admits_findFrom_number σ h.1.1 h.1.2 (fun skip seen' hseen' => ih h.2 hseen' skip) skip
    | letter l =>
      simp only [silent, Bool.and_eq_true, List.all_eq_true, beq_iff_eq] at h
      -- any rule may begin with a letter not known, so all of them are checked
      have hunused := h.1.1 r (Enumeration.mem_all r)
      rw [hown, Bool.false_or] at hunused
      have hdot : ∀ c ∈ [σ.letter l], c ≠ '.' := by
        simp only [List.mem_singleton, forall_eq]
        intro hdot
        exact absurd (hdot ▸ σ.isLetter_letter l) (by decide)
      exact admits_findFrom_cons (c := σ.letter l) (unused_fill σ hunused rfl)
        (fun skip => ih h.2 (opening_append h.1.2 hdot) skip) skip

/-- In a silent template every other rule accepts nothing. -/
theorem accepted_eq_nil {own r : RuleName} (hr : r ≠ own) {t : Template}
    (h : silent own [] t = true) : Reading.accepted r (fill σ t) = [] := by
  have hnone : (findAll r.phrase (fill σ t)).filter (Reading.admits r) = [] := by
    rw [List.filter_eq_nil_iff]
    intro f hf
    rw [admits_findFrom σ hr h opening_nil 0 f hf]
    decide
  rw [Reading.accepted, hnone]
  rfl

/-! ## The rule that is used -/

/-- Whether a rule can be read nowhere in a template without holes. -/
def barren (r : RuleName) : Template → Bool
  | [] => true
  | .char c :: t =>
    (!opens r.spelled.val c
      || match ways? r.spelled.val (.char c :: t) with
        | some [] => true
        | _ => false) && barren r t
  | .number _ :: _ => false
  | .letter _ :: _ => false

theorem findFrom_of_barren {r : RuleName} {t : Template} (h : barren r t = true)
    (seen : List Char) : findFrom r.phrase seen 0 (fill σ t) = [] := by
  induction t generalizing seen with
  | nil => rfl
  | cons a t ih =>
    cases a with
    | number n => cases h
    | letter l => cases h
    | char c =>
      simp only [barren, Bool.and_eq_true, Bool.or_eq_true, Bool.not_eq_true'] at h
      have hnone : ways r.phrase (c :: fill σ t) = [] := by
        rw [r.spelled.property]
        rcases h.1 with hopens | hways
        · exact ways_eq_nil_of_not_opens hopens
        · match hread : ways? r.spelled.val (.char c :: t), hways with
          | some [], _ => exact ways_fill σ hread
      rw [fill_char]
      unfold findFrom
      rw [read?_eq_head?, hnone]
      exact ih h.2 (c :: seen)

/-- A rule that is read at the front of a template, and nowhere behind, finds just that in its
texts. -/
theorem findAll_eq {r : RuleName} {t : Template} {w : Way} {ws : List Way}
    (h : ways? r.spelled.val t = some (w :: ws)) (htaken : fill σ w.taken ≠ [])
    (hrest : barren r w.rest = true) :
    findAll r.phrase (fill σ t)
      = [⟨[], fill σ w.taken, w.filled.map fun s => (s.1, fill σ s.2), fill σ w.rest⟩] := by
  have hways := ways_fill σ h
  rw [← r.spelled.property] at hways
  have hmem : w.fill σ ∈ ways r.phrase (fill σ t) := by
    rw [hways]
    exact List.mem_cons_self
  -- the search takes the preferred way, and goes on behind what is taken
  have hsplit : fill σ w.taken ++ fill σ w.rest = fill σ t := taken_append_rest hmem
  cases htext : fill σ w.taken with
  | nil => exact absurd htext htaken
  | cons c taken =>
    rw [htext, List.cons_append] at hsplit
    rw [← hsplit] at hways ⊢
    unfold findAll findFrom
    rw [read?_eq_head?, hways]
    show _ :: findFrom r.phrase [c] ((fill σ w.taken).length - 1) _ = _
    rw [htext, List.length_cons, Nat.add_sub_cancel, findFrom_skip, findFrom_of_barren σ hrest]
    simp [Way.fill, htext]

end Template

/-! ## A given text -/

/-- The effects found in a normal form, by the phrases spelled out. -/
def effectsIn (normal : List Char) : List Effect :=
  (Enumeration.all : List RuleName).flatMap fun r =>
    ((findAll r.spelled.val normal).filter (Reading.admits r)).filterMap r.build

/-- Where effects are found in the normal form of a text, they are the effects of its reading. -/
theorem effects_ofText {text : String} {es : List Effect} (hne : es ≠ [])
    (h : effectsIn (normalize text.toList) = es) : (Reading.ofText text).effects = es := by
  have hmap : ((Reading.allAccepted (normalize text.toList)).flatMap (·.2)).map (·.2) = es := by
    rw [← h, Reading.allAccepted, List.flatMap_map, List.map_flatMap, effectsIn]
    refine List.flatMap_congr fun r _ => ?_
    -- rule by rule, with the place of each effect left out
    rw [Reading.accepted, List.map_filterMap, ← r.spelled.property]
    congr 1
    funext f
    cases r.build f <;> rfl
  have hfound : (Reading.allAccepted (normalize text.toList)).flatMap (·.2) ≠ [] := by
    intro hnil
    rw [hnil] at hmap
    exact hne hmap.symm
  have hnormal : normalize text.toList ≠ [] := by
    intro hnil
    rw [hnil] at h
    exact hne (h.symm.trans (by decide))
  simp only [Reading.ofText, hnormal, hfound, if_false]
  exact hmap

end CardEffects.Clause
