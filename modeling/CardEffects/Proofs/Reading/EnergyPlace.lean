/-
  CardEffects.Proofs.Reading.EnergyPlace

  Where a clause names a type of energy: in the word right before the word "energy", if that word
  is a token.  This is said of the text alone, letter by letter; and for every rule that leaves a
  place for energy, each way to read it has in that place just what the text has.  So there is no
  second way that passes over a token.

    * `energyPlace`, `energyPlace_words` — the token before the first word that begins with "energy".
    * `track`, `mem_track` — how far that word can be when a phrase has been read, and what is then
      in the place for energy.
    * `energyRules`, `lookup_energy` — the two agree for every rule with such a place.
-/
import CardEffects.Proofs.Reading.Matches
import Mathlib.Data.List.Dedup

namespace CardEffects.Clause

/-! ## Tokens in a text -/

/-- The names that stand for energy. -/
def energyWords : List (List Char) :=
  ["grass".toList, "fire".toList, "water".toList, "lightning".toList, "psychic".toList,
    "fighting".toList, "darkness".toList, "dark".toList, "metal".toList, "colorless".toList]

/-- Whether a word has the form of a token: a letter in braces, or one of the names. -/
def isToken (w : List Char) : Bool :=
  energyWords.contains w
    || match w with
      | ['\x7b', c, '\x7d'] => CharSet.isLetter c
      | _ => false

/-- How far a text has been read on the way to the word "energy". -/
inductive Scan where
  /-- The word before, if it is a token, and the letters of this one so far, unless a digit stands
  among them. -/
  | reading (last word : Option (List Char))
  /-- The word has come, behind a token or not. -/
  | found (token : Option (List Char))
  deriving DecidableEq

namespace Scan

/-- No word has been read. -/
def start : Scan := .reading none (some [])

/-- Reads one character of a word. -/
def letter (last : Option (List Char)) (c : Char) : Option (List Char) → Scan
  | none => .reading last none
  | some w =>
    if c = 'y' ∧ w = ['e', 'n', 'e', 'r', 'g'] then .found last
    else .reading last (some (w ++ [c]))

/-- Reads one character. -/
def step (s : Scan) (c : Char) : Scan :=
  match s with
  | .found t => .found t
  | .reading last word =>
    if c = ' ' then .reading (word.filter isToken) (some [])
    else if c.isDigit then .reading last none
    else letter last c word

/-- The token that was found. -/
def token? : Scan → Option (List Char)
  | .found t => t
  | .reading _ _ => none

theorem foldl_found (t : Option (List Char)) (cs : List Char) :
    cs.foldl step (.found t) = .found t := by
  induction cs with
  | nil => rfl
  | cons c cs ih => exact ih

/-- A number leaves nothing of its word, whatever its digits are. -/
theorem foldl_digits (s : Scan) {ds : List Char} (hne : ds ≠ [])
    (hds : ∀ c ∈ ds, c.isDigit = true) : ds.foldl step s = s.step '0' := by
  have hdigit : ∀ (s : Scan) (d : Char), d.isDigit = true → s.step d = s.step '0' := by
    intro s d hd
    have hspace : d ≠ ' ' := by
      rintro rfl
      exact absurd hd (by decide)
    cases s with
    | found t => rfl
    | reading last word =>
      rw [step, step, if_neg hspace, if_pos hd]
      rfl
  have htwice : (s.step '0').step '0' = s.step '0' := by cases s <;> rfl
  induction ds with
  | nil => exact absurd rfl hne
  | cons d ds ih =>
    obtain ⟨hd, hds⟩ := List.forall_mem_cons.1 hds
    rw [List.foldl_cons, hdigit s d hd]
    cases ds with
    | nil => rfl
    | cons d' ds =>
      have hrest := ih (List.cons_ne_nil d' ds) hds
      rw [List.foldl_cons, hdigit s d' (hds d' List.mem_cons_self)] at hrest
      rw [List.foldl_cons, hdigit _ d' (hds d' List.mem_cons_self), htwice, hrest]

end Scan

/-- The token right before the first word that begins with "energy", if there is one. -/
def energyPlace (cs : List Char) : Option (List Char) := (cs.foldl Scan.step .start).token?

/-! ### Word by word -/

/-- Tokens have no digits in them. -/
theorem not_isDigit_of_isToken {w : List Char} (h : isToken w = true) :
    w.any Char.isDigit = false := by
  have hwords : ∀ w ∈ energyWords, w.any Char.isDigit = false := by decide
  unfold isToken at h
  rw [Bool.or_eq_true] at h
  rcases h with h | h
  · exact hwords w (List.contains_iff_mem.1 h)
  · split at h
    next c =>
      have hdigit : c.isDigit = false := Template.isDigit_eq_false_of_isLetter h
      simp only [List.any_cons, List.any_nil, hdigit]
      decide
    next => cases h

/-- A word that does not begin with "energy" is read to its end. -/
theorem foldl_word (last : Option (List Char)) {w : List Char} (hspace : ' ' ∉ w)
    (hword : ¬ "energy".toList <+: w) :
    w.foldl Scan.step (.reading last (some []))
      = .reading last (if w.any Char.isDigit then none else some w) := by
  have hnone : ∀ v : List Char, ' ' ∉ v →
      v.foldl Scan.step (.reading last none) = .reading last none := by
    intro v hv
    induction v with
    | nil => rfl
    | cons c v ih =>
      rw [List.mem_cons, not_or] at hv
      rw [List.foldl_cons, Scan.step, if_neg (Ne.symm hv.1), Scan.letter, ite_self, ih hv.2]
  -- letter by letter, `u` being the letters before
  have hfrom : ∀ u v : List Char, ' ' ∉ v → ¬ "energy".toList <+: u ++ v →
      v.foldl Scan.step (.reading last (some u))
        = .reading last (if v.any Char.isDigit then none else some (u ++ v)) := by
    intro u v hv hprefix
    induction v generalizing u with
    | nil => simp
    | cons c v ih =>
      rw [List.mem_cons, not_or] at hv
      rw [List.foldl_cons, Scan.step, if_neg (Ne.symm hv.1), List.any_cons]
      cases hc : c.isDigit with
      | true => exact hnone v hv.2
      | false =>
        have hnot : ¬ (c = 'y' ∧ u = ['e', 'n', 'e', 'r', 'g']) := by
          rintro ⟨rfl, rfl⟩
          exact hprefix (List.prefix_append _ v)
        have hrest := ih (u ++ [c]) hv.2 (by simpa using hprefix)
        rw [List.append_assoc, List.singleton_append] at hrest
        rw [if_neg Bool.false_ne_true, Scan.letter, if_neg hnot, hrest, Bool.false_or]
  exact hfrom [] w hspace hword

/-- In a text of words none of which begins with "energy", in front of one that does, the place for
energy is the last word if that is a token. -/
theorem energyPlace_words (words : List (List Char)) (w rest : List Char)
    (h : ∀ v ∈ words ++ [w], ' ' ∉ v ∧ ¬ "energy".toList <+: v) :
    energyPlace (words.flatMap (fun v => v ++ [' ']) ++ (w ++ (" energy".toList ++ rest)))
      = if isToken w then some w else none := by
  have hspace (last : Option (List Char)) (v : List Char) (hv : ' ' ∉ v ∧ ¬ "energy".toList <+: v) :
      (v ++ [' ']).foldl Scan.step (.reading last (some []))
        = .reading ((if v.any Char.isDigit then none else some v).filter isToken) (some []) := by
    rw [List.foldl_append, foldl_word last hv.1 hv.2]
    rfl
  have hwords (last : Option (List Char)) : ∃ last', (words.flatMap fun v => v ++ [' ']).foldl
      Scan.step (.reading last (some [])) = .reading last' (some []) := by
    induction words generalizing last with
    | nil => exact ⟨last, rfl⟩
    | cons v words ih =>
      rw [List.cons_append] at h
      obtain ⟨hv, hrest⟩ := List.forall_mem_cons.1 h
      rw [List.flatMap_cons, List.foldl_append, hspace last v hv]
      exact ih hrest _
  obtain ⟨last, hlast⟩ := hwords none
  have hw := h w (List.mem_append_right words (List.mem_singleton_self w))
  have htext : w ++ (" energy".toList ++ rest) = (w ++ [' ']) ++ ("energy".toList ++ rest) := by
    simp
  rw [energyPlace, Scan.start, List.foldl_append, hlast, htext, List.foldl_append,
    hspace last w hw, List.foldl_append]
  show ((rest.foldl Scan.step (.found _))).token? = _
  rw [Scan.foldl_found]
  show (if w.any Char.isDigit then none else some w).filter isToken = _
  by_cases htoken : isToken w = true
  · rw [not_isDigit_of_isToken htoken, if_pos htoken]
    simp [htoken]
  · rw [if_neg htoken]
    split
    · rfl
    · simp [htoken]

/-! ## Texts of a phrase -/

/-- The lower-case letters. -/
def letters : List Char := (List.range 26).map fun k => Char.ofNat (97 + k)

theorem mem_letters {c : Char} (h : CharSet.isLetter c = true) : c ∈ letters := by
  simp only [CharSet.isLetter, Bool.and_eq_true, decide_eq_true_eq] at h
  have hlo : 97 ≤ c.toNat := h.1
  have hhi : c.toNat ≤ 122 := h.2
  refine List.mem_map.2 ⟨c.toNat - 97, List.mem_range.2 (by omega), ?_⟩
  rw [Nat.add_sub_cancel' hlo, Char.ofNat_toNat]

/-- The texts that readings of a phrase can take; nothing when they are not listed. -/
def texts? : Phrase → Option (List (List Char))
  | .wordOf choices => some choices
  | .one .letter => some (letters.map fun c => [c])
  | .slot _ p => texts? p
  | .optional p => (texts? p).map fun ts => ts ++ [[]]
  | .either p q => (texts? p).bind fun ts => (texts? q).map fun us => ts ++ us
  | .both p q =>
    (texts? p).bind fun ts => (texts? q).map fun us => ts.flatMap fun t => us.map fun u => t ++ u
  | .atEnd => some [[]]
  | .one _ | .digits | .run _ _ => none

theorem mem_texts? {p : Phrase} {ts : List (List Char)} (hp : texts? p = some ts)
    {cs : List Char} {w : Way} (h : w ∈ ways p cs) : w.taken ∈ ts := by
  induction p generalizing ts cs w with
  | wordOf choices =>
    obtain rfl := Option.some.inj hp
    exact (mem_ways_wordOf h).1
  | one set =>
    cases set with
    | letter =>
      obtain rfl := Option.some.inj hp
      obtain ⟨c, rest, -, hc, rfl⟩ := mem_ways_one h
      exact List.mem_map.2 ⟨c, mem_letters hc, rfl⟩
    | _ => cases hp
  | digits => cases hp
  | run set least => cases hp
  | slot s p ih =>
    obtain ⟨v, hv, rfl⟩ := mem_ways_slot h
    exact ih (w := v) hp hv
  | optional p ih =>
    obtain ⟨us, hus, rfl⟩ := Option.map_eq_some_iff.1 hp
    rw [List.mem_append, List.mem_singleton]
    rcases mem_ways_optional h with h | rfl
    · exact .inl (ih hus h)
    · exact .inr rfl
  | either p q ihp ihq =>
    obtain ⟨us, hus, hp⟩ := Option.bind_eq_some_iff.1 hp
    obtain ⟨vs, hvs, rfl⟩ := Option.map_eq_some_iff.1 hp
    rw [List.mem_append]
    exact (mem_ways_either h).imp (ihp hus) (ihq hvs)
  | both p q ihp ihq =>
    obtain ⟨us, hus, hp⟩ := Option.bind_eq_some_iff.1 hp
    obtain ⟨vs, hvs, rfl⟩ := Option.map_eq_some_iff.1 hp
    obtain ⟨a, ha, b, hb, rfl⟩ := mem_ways_both h
    exact List.mem_flatMap.2
      ⟨a.taken, ihp hus ha, List.mem_map.2 ⟨b.taken, ihq hvs hb, rfl⟩⟩
  | atEnd =>
    obtain rfl := Option.some.inj hp
    obtain ⟨-, rfl⟩ := mem_ways_atEnd h
    exact List.mem_singleton_self _

/-! ## Tracking a phrase -/

/-- What is known when a part of a phrase has been read: how far the text has been read on the way
to the word "energy", and what is in the place for energy. -/
structure Mark where
  scan : Scan
  token : Option (List Char)
  deriving DecidableEq

namespace Mark

/-- Before anything is read. -/
def start : Mark := ⟨.start, none⟩

/-- Some text more is read, and some slots are filled. -/
def after (m : Mark) (taken : List Char) (filled : List (Slot × List Char)) : Mark :=
  ⟨taken.foldl Scan.step m.scan, m.token.or (filled.lookup .energy)⟩

theorem after_nil (m : Mark) : m.after [] [] = m := by
  rw [after, List.foldl_nil, List.lookup_nil, Option.or_none]

theorem after_append (m : Mark) (taken taken' : List Char)
    (filled filled' : List (Slot × List Char)) :
    m.after (taken ++ taken') (filled ++ filled')
      = (m.after taken filled).after taken' filled' := by
  rw [after, List.foldl_append, List.lookup_append, ← Option.or_assoc]
  rfl

/-- Whether the word has come. -/
def isFound (m : Mark) : Bool :=
  match m.scan with
  | .found _ => true
  | .reading _ _ => false

/-- Behind the word nothing changes but the place for energy. -/
theorem after_of_isFound {m : Mark} (h : m.isFound = true) (taken : List Char)
    {filled : List (Slot × List Char)} (hfilled : filled.lookup .energy = none) :
    m.after taken filled = m := by
  obtain ⟨scan, token⟩ := m
  cases scan with
  | found t => rw [after, Scan.foldl_found, hfilled, Option.or_none]
  | reading last word => cases h

end Mark

/-- What is known, each thing once.  Behind a token no two things are the same. -/
def merge (ms : List Mark) : List Mark :=
  if ms.all fun m => m.token.isNone then ms.dedup else ms

theorem mem_merge {m : Mark} {ms : List Mark} (h : m ∈ ms) : m ∈ merge ms := by
  unfold merge
  split
  · exact List.mem_dedup.2 h
  · exact h

/-- What can be known when a phrase has been read, from what could be known before; nothing when
that cannot be listed. -/
def track : Phrase → List Mark → Option (List Mark)
  | .wordOf choices, ms =>
    some (ms.flatMap fun m => if m.isFound then [m] else choices.map fun w => m.after w [])
  | .one .letter, ms => some (ms.flatMap fun m => letters.map fun c => m.after [c] [])
  | .digits, ms => some (ms.map fun m => m.after ['0'] [])
  | .slot .energy p, ms =>
    (texts? p).map fun ts => ms.flatMap fun m => ts.map fun t => m.after t [(.energy, t)]
  | .slot _ p, ms => track p ms
  | .optional p, ms => (track p ms).map fun out => ms ++ out
  | .either p q, ms => (track p ms).bind fun out => (track q ms).map fun out' => out ++ out'
  | .both p q, ms =>
    -- when the word has come, only the place for energy is of interest
    if ms.all Mark.isFound && !(slotsOf (.both p q)).contains .energy then some ms
    else (track p ms).bind fun out => track q (merge out)
  | .one _, ms | .run _ _, ms => if ms.all Mark.isFound then some ms else none
  | .atEnd, ms => some ms

/-- When the word has come on all ways, nothing that is read behind it is of interest. -/
theorem mem_of_all_isFound {ms out : List Mark}
    (hms : (if ms.all Mark.isFound then some ms else none) = some out) {m : Mark} (hm : m ∈ ms)
    (taken : List Char) {filled : List (Slot × List Char)}
    (hfilled : filled.lookup .energy = none) : m.after taken filled ∈ out := by
  split at hms
  next hfound =>
    obtain rfl := Option.some.inj hms
    rwa [m.after_of_isFound (List.all_eq_true.1 hfound m hm) taken hfilled]
  next => cases hms

/-- What is known when a phrase has been read is listed. -/
theorem mem_track {p : Phrase} {ms out : List Mark} (hp : track p ms = some out) {m : Mark}
    (hm : m ∈ ms) {cs : List Char} {w : Way} (h : w ∈ ways p cs) :
    m.after w.taken w.filled ∈ out := by
  induction p generalizing ms out m cs w with
  | wordOf choices =>
    obtain rfl := Option.some.inj hp
    obtain ⟨hchoice, hfilled, -⟩ := mem_ways_wordOf h
    rw [hfilled]
    refine List.mem_flatMap.2 ⟨m, hm, ?_⟩
    split
    next hfound =>
      rw [m.after_of_isFound hfound _ rfl]
      exact List.mem_singleton_self m
    next => exact List.mem_map.2 ⟨w.taken, hchoice, rfl⟩
  | one set =>
    obtain ⟨c, rest, -, hc, rfl⟩ := mem_ways_one h
    cases set with
    | letter =>
      obtain rfl := Option.some.inj hp
      exact List.mem_flatMap.2 ⟨m, hm, List.mem_map.2 ⟨c, mem_letters hc, rfl⟩⟩
    | _ => exact mem_of_all_isFound hp hm [c] rfl
  | digits =>
    obtain rfl := Option.some.inj hp
    obtain ⟨hne, hdigits, hfilled⟩ := mem_ways_digits h
    refine List.mem_map.2 ⟨m, hm, ?_⟩
    rw [Mark.after, Mark.after, Scan.foldl_digits _ hne hdigits, hfilled]
    rfl
  | run set least => exact mem_of_all_isFound hp hm _ (lookup_eq_none h List.not_mem_nil)
  | slot s p ih =>
    obtain ⟨v, hv, rfl⟩ := mem_ways_slot h
    by_cases hs : s = .energy
    · subst hs
      obtain ⟨ts, hts, rfl⟩ := Option.map_eq_some_iff.1 hp
      exact List.mem_flatMap.2 ⟨m, hm, List.mem_map.2 ⟨v.taken, mem_texts? hts hv, rfl⟩⟩
    · have hslot : track (.slot s p) ms = track p ms := by
        cases s <;> first | rfl | exact absurd rfl hs
      have hfilled : ((s, v.taken) :: v.filled).lookup .energy = v.filled.lookup .energy := by
        rw [List.lookup_cons, beq_eq_false_iff_ne.2 (Ne.symm hs)]
      rw [hslot] at hp
      rw [Mark.after, hfilled]
      exact ih hp hm hv
  | optional p ih =>
    obtain ⟨out, hout, rfl⟩ := Option.map_eq_some_iff.1 hp
    rw [List.mem_append]
    rcases mem_ways_optional h with h | rfl
    · exact .inr (ih hout hm h)
    · rw [Mark.after_nil]
      exact .inl hm
  | either p q ihp ihq =>
    obtain ⟨out, hout, hp⟩ := Option.bind_eq_some_iff.1 hp
    obtain ⟨out', hout', rfl⟩ := Option.map_eq_some_iff.1 hp
    rw [List.mem_append]
    exact (mem_ways_either h).imp (ihp hout hm) (ihq hout' hm)
  | both p q ihp ihq =>
    unfold track at hp
    split at hp
    next hfound =>
      obtain rfl := Option.some.inj hp
      simp only [Bool.and_eq_true, List.all_eq_true, Bool.not_eq_true', ← Bool.not_eq_true,
        List.contains_iff_mem] at hfound
      rwa [m.after_of_isFound (hfound.1 m hm) _ (lookup_eq_none h hfound.2)]
    next =>
      obtain ⟨mid, hmid, hout⟩ := Option.bind_eq_some_iff.1 hp
      obtain ⟨a, ha, b, hb, rfl⟩ := mem_ways_both h
      rw [Mark.after_append]
      exact ihq hout (mem_merge (ihp hmid hm ha)) hb
  | atEnd =>
    obtain rfl := Option.some.inj hp
    obtain ⟨-, rfl⟩ := mem_ways_atEnd h
    rwa [Mark.after_nil]

/-! ## Rules with a place for energy -/

/-- The rules whose clauses may name a type of energy. -/
def energyRules : List RuleName :=
  [.coinDamagePerEnergy, .coinEnergyAmount, .coinEnergyHeads, .coinDiscard,
    .conditionalExtraEnergy, .energyScaling, .energyAttachZone, .energyAttachGeneric,
    .energyDiscard]

/-- They are the rules whose phrases have a slot for it. -/
theorem mem_energyRules_iff (r : RuleName) :
    r ∈ energyRules ↔ .energy ∈ slotsOf r.spelled.val := by
  cases r <;> decide

/-- Whether the word "energy" has come, and the place for energy holds the token before it, which
may have to be there. -/
def Mark.agrees (always : Bool) (m : Mark) : Bool :=
  match m.scan with
  | .found t => t == m.token && (!always || t.isSome)
  | .reading _ _ => false

theorem agrees_of_mem_energyRules :
    (energyRules.all fun r => (track r.spelled.val [.start]).any fun out =>
      out.all (Mark.agrees (r == .energyAttachZone))) = true := by
  decide +kernel

/-- **A place for energy holds the token before the word "energy".**  This is so for all ways to
read a rule, so none of them passes over a token; and one rule is not read without a token. -/
theorem lookup_energy {r : RuleName} (hr : r ∈ energyRules) {cs : List Char} {w : Way}
    (h : w ∈ ways r.phrase cs) :
    w.filled.lookup .energy = energyPlace cs ∧ energyPlace w.taken = energyPlace cs
      ∧ (r = .energyAttachZone → energyPlace cs ≠ none) := by
  rw [r.spelled.property] at h
  obtain ⟨out, hout, hall⟩ := (Option.any_eq_true _ _).1
    (List.all_eq_true.1 agrees_of_mem_energyRules r hr)
  have hagrees := List.all_eq_true.1 hall _ (mem_track hout (List.mem_singleton_self _) h)
  simp only [Mark.agrees, Mark.after, Mark.start, Option.none_or] at hagrees
  split at hagrees
  next t hscan =>
    rw [Bool.and_eq_true, beq_iff_eq] at hagrees
    -- behind the word the text may go on
    have hplace : energyPlace cs = t := by
      rw [energyPlace, ← taken_append_rest h, List.foldl_append, hscan, Scan.foldl_found]
      rfl
    refine ⟨by rw [hplace, hagrees.1], by rw [hplace, energyPlace, hscan]; rfl, ?_⟩
    rintro rfl
    rw [hplace, ← Option.isSome_iff_ne_none]
    simpa using hagrees.2
  next => cases hagrees

end CardEffects.Clause
