/-
  CardEffects.Proofs.Reading.FullStops

  Phrases that end with the sentence.  Such a phrase takes a full stop at the end of a reading at
  most, so it is read off a sentence in the same ways whatever goes on behind; and a search finds in
  a text that ends with a full stop what it finds there when the text goes on.

    * `dotLast` — a check on the phrase.
    * `not_mem_dropLast_of_dotLast` — where a reading may have a full stop.
    * `ways_extend` — the ways to read a phrase in a text that goes on.
    * `findAll_extend` — what is found in a text that goes on.
-/
import CardEffects.Proofs.Reading.Matches

namespace CardEffects.Clause

/-! ## Phrases and full stops -/

/-- Whether no reading of a phrase takes a full stop. -/
def dotless : Phrase → Bool
  | .wordOf choices => choices.all fun w => !w.contains '.'
  | .one set | .run set _ => !set.admits '.'
  | .slot _ p | .optional p => dotless p
  | .either p q | .both p q => dotless p && dotless q
  | .digits | .atEnd => true

/-- Whether the readings of a phrase take a full stop at their end at most. -/
def dotLast : Phrase → Bool
  | .wordOf choices => choices.all fun w => !w.dropLast.contains '.'
  | .run set _ => !set.admits '.'
  | .slot _ p | .optional p => dotLast p
  | .either p q => dotLast p && dotLast q
  | .both p q => dotless p && dotLast q
  | .one _ | .digits | .atEnd => true

theorem dotLast_of_dotless {p : Phrase} (hp : dotless p = true) : dotLast p = true := by
  induction p with
  | wordOf choices =>
    refine List.all_eq_true.2 fun w hw => ?_
    have hdot : '.' ∉ w := by simpa using List.all_eq_true.1 hp w hw
    simpa using fun h => hdot ((List.dropLast_prefix w).mem h)
  | run set least => exact hp
  | slot s p ih => exact ih hp
  | optional p ih => exact ih hp
  | either p q ihp ihq =>
    simp only [dotless, Bool.and_eq_true] at hp
    exact Bool.and_eq_true_iff.2 ⟨ihp hp.1, ihq hp.2⟩
  | both p q ihp ihq =>
    simp only [dotless, Bool.and_eq_true] at hp
    exact Bool.and_eq_true_iff.2 ⟨hp.1, ihq hp.2⟩
  | _ => rfl

theorem not_mem_of_dotless {p : Phrase} (hp : dotless p = true) {cs : List Char} {w : Way}
    (h : w ∈ ways p cs) : '.' ∉ w.taken := by
  induction p generalizing cs w with
  | wordOf choices =>
    have hw := List.all_eq_true.1 hp _ (mem_ways_wordOf h).1
    simpa using hw
  | one set =>
    have hset : set.admits '.' = false := by simpa [dotless] using hp
    obtain ⟨c, rest, -, hc, rfl⟩ := mem_ways_one h
    rw [List.mem_singleton]
    rintro rfl
    rw [hset] at hc
    cases hc
  | digits => exact fun hdot => absurd ((mem_ways_digits h).2.1 '.' hdot) (by decide)
  | run set least =>
    have hset : set.admits '.' = false := by simpa [dotless] using hp
    intro hdot
    have hadmits := (mem_ways_run h).1 '.' hdot
    rw [hset] at hadmits
    cases hadmits
  | slot s p ih =>
    obtain ⟨v, hv, rfl⟩ := mem_ways_slot h
    exact ih (w := v) hp hv
  | optional p ih =>
    rcases mem_ways_optional h with h | rfl
    · exact ih hp h
    · exact List.not_mem_nil
  | either p q ihp ihq =>
    simp only [dotless, Bool.and_eq_true] at hp
    exact (mem_ways_either h).elim (ihp hp.1) (ihq hp.2)
  | both p q ihp ihq =>
    simp only [dotless, Bool.and_eq_true] at hp
    obtain ⟨a, ha, b, hb, rfl⟩ := mem_ways_both h
    rw [List.mem_append, not_or]
    exact ⟨ihp hp.1 ha, ihq hp.2 hb⟩
  | atEnd =>
    obtain ⟨-, rfl⟩ := mem_ways_atEnd h
    exact List.not_mem_nil

theorem not_mem_dropLast_of_dotless {p : Phrase} (hp : dotless p = true) {cs : List Char}
    {w : Way} (h : w ∈ ways p cs) : '.' ∉ w.taken.dropLast :=
  fun hdot => not_mem_of_dotless hp h ((List.dropLast_prefix _).mem hdot)

/-- A reading of such a phrase stays in its sentence. -/
theorem not_mem_dropLast_of_dotLast {p : Phrase} (hp : dotLast p = true) {cs : List Char}
    {w : Way} (h : w ∈ ways p cs) : '.' ∉ w.taken.dropLast := by
  -- by the shape of the phrase; of two in a row the first takes no full stop at all
  induction p generalizing cs w with
  | wordOf choices =>
    have hw := List.all_eq_true.1 hp _ (mem_ways_wordOf h).1
    simpa using hw
  | one set =>
    obtain ⟨c, rest, -, -, rfl⟩ := mem_ways_one h
    exact List.not_mem_nil
  | digits => exact not_mem_dropLast_of_dotless (p := .digits) rfl h
  | run set least => exact not_mem_dropLast_of_dotless (p := .run set least) hp h
  | slot s p ih =>
    obtain ⟨v, hv, rfl⟩ := mem_ways_slot h
    exact ih (w := v) hp hv
  | optional p ih =>
    rcases mem_ways_optional h with h | rfl
    · exact ih hp h
    · exact List.not_mem_nil
  | either p q ihp ihq =>
    simp only [dotLast, Bool.and_eq_true] at hp
    exact (mem_ways_either h).elim (ihp hp.1) (ihq hp.2)
  | both p q ihp ihq =>
    simp only [dotLast, Bool.and_eq_true] at hp
    obtain ⟨a, ha, b, hb, rfl⟩ := mem_ways_both h
    have hfirst := not_mem_of_dotless hp.1 ha
    have hlast := ihq hp.2 hb
    show '.' ∉ (a.taken ++ b.taken).dropLast
    rcases List.eq_nil_or_concat b.taken with hnil | ⟨front, c, hconcat⟩
    · rw [hnil, List.append_nil]
      exact fun hdot => hfirst ((List.dropLast_prefix _).mem hdot)
    · rw [hconcat, List.concat_eq_append] at hlast ⊢
      rw [List.dropLast_concat] at hlast
      rw [← List.append_assoc, List.dropLast_concat, List.mem_append, not_or]
      exact ⟨hfirst, hlast⟩
  | atEnd => exact not_mem_dropLast_of_dotless (p := .atEnd) rfl h

/-! ## What goes on behind a sentence -/

/-- A reading of a text that goes on. -/
def Way.extend (rest : List Char) (w : Way) : Way := { w with rest := w.rest ++ rest }

theorem afterWord?_extend {w cs : List Char} (hw : '.' ∉ w.dropLast) (hcs : '.' ∈ cs)
    (rest : List Char) : afterWord? w (cs ++ rest) = (afterWord? w cs).map (· ++ rest) := by
  induction w generalizing cs with
  | nil => rfl
  | cons a w ih =>
    cases cs with
    | nil => cases hcs
    | cons c cs =>
      rw [List.cons_append, afterWord?, afterWord?]
      split
      next hac =>
        cases w with
        | nil => rfl
        | cons b w =>
          -- the word goes on, so its letters so far are none but the sentence's
          rw [List.dropLast_cons_of_ne_nil (List.cons_ne_nil b w), List.mem_cons, not_or] at hw
          exact ih hw.2 ((List.mem_cons.1 hcs).resolve_left fun hc => hw.1 (hc.trans hac.symm))
      next => rfl

theorem cuts_extend {ok : Char → Bool} (hok : ok '.' = false) {cs : List Char} (hcs : '.' ∈ cs)
    (rest : List Char) : cuts ok (cs ++ rest) = (cuts ok cs).map fun p => (p.1, p.2 ++ rest) := by
  induction cs with
  | nil => cases hcs
  | cons c cs ih =>
    rw [List.cons_append, cuts, cuts]
    split
    next hc =>
      have hdot : '.' ∈ cs := by
        refine (List.mem_cons.1 hcs).resolve_left ?_
        rintro rfl
        rw [hok] at hc
        cases hc
      rw [ih hdot, List.map_cons, List.map_map, List.map_map]
      rfl
    next => rfl

/-- The digits of a text that has a full stop end before the full stop. -/
theorem digits_extend {cs : List Char} (hcs : '.' ∈ cs) (rest : List Char) :
    (cs ++ rest).takeWhile Char.isDigit = cs.takeWhile Char.isDigit
      ∧ (cs ++ rest).dropWhile Char.isDigit = cs.dropWhile Char.isDigit ++ rest := by
  obtain ⟨front, back, rfl⟩ := List.append_of_mem hcs
  have hdot : Char.isDigit '.' = false := by decide
  induction front with
  | nil => simp [hdot]
  | cons c front ih =>
    obtain ⟨htake, hdrop⟩ := ih (by simp)
    by_cases hc : c.isDigit = true
    · simp [hc] at htake hdrop ⊢
      exact ⟨htake, hdrop⟩
    · simp [hc]

/-- A phrase that ends with the sentence is read alike whatever goes on behind. -/
theorem ways_extend {p : Phrase} (hp : dotLast p = true) {cs : List Char} (hcs : '.' ∈ cs)
    (rest : List Char) : ways p (cs ++ rest) = (ways p cs).map (Way.extend rest) := by
  induction p generalizing cs with
  | wordOf choices =>
    rw [ways, ways, List.map_filterMap]
    refine List.filterMap_congr fun w hw => ?_
    have hdots : '.' ∉ w.dropLast := by simpa using List.all_eq_true.1 hp w hw
    rw [afterWord?_extend hdots hcs, Option.map_map, Option.map_map]
    rfl
  | one set =>
    cases cs with
    | nil => cases hcs
    | cons c cs =>
      rw [List.cons_append, ways, ways]
      split <;> rfl
  | digits =>
    obtain ⟨htake, hdrop⟩ := digits_extend hcs rest
    rw [ways, ways, htake, hdrop]
    cases cs.takeWhile Char.isDigit <;> rfl
  | run set least =>
    have hset : set.admits '.' = false := by simpa [dotLast] using hp
    rw [ways, ways, cuts_extend hset hcs, ← List.map_drop, List.map_map, List.map_map]
    rfl
  | slot s p ih =>
    rw [ways, ways, ih hp hcs, List.map_map, List.map_map]
    rfl
  | optional p ih =>
    rw [ways, ways, ih hp hcs, List.map_append]
    rfl
  | either p q ihp ihq =>
    simp only [dotLast, Bool.and_eq_true] at hp
    rw [ways, ways, ihp hp.1 hcs, ihq hp.2 hcs, List.map_append]
  | both p q ihp ihq =>
    simp only [dotLast, Bool.and_eq_true] at hp
    rw [ways, ways, ihp (dotLast_of_dotless hp.1) hcs, List.flatMap_map, List.map_flatMap]
    refine List.flatMap_congr fun a ha => ?_
    -- the full stop is still to come behind the first phrase
    have hdot : '.' ∈ a.rest := by
      rw [← taken_append_rest ha, List.mem_append] at hcs
      exact hcs.resolve_left (not_mem_of_dotless hp.1 ha)
    show (ways q (a.rest ++ rest)).map _ = _
    rw [ihq hp.2 hdot, List.map_map, List.map_map]
    rfl
  | atEnd =>
    cases cs with
    | nil => cases hcs
    | cons c cs => rfl

/-! ## Searching sentence by sentence -/

namespace Found

/-- A match in a text that goes on. -/
def extend (rest : List Char) (f : Found) : Found := { f with after := f.after ++ rest }

/-- A match in a text with another in front. -/
def behind (front : List Char) (f : Found) : Found := { f with before := f.before ++ front.reverse }

end Found

/-- What is found in sentences is found again when the text goes on, and then what is found in the
rest. -/
theorem findFrom_extend {p : Phrase} (hp : dotLast p = true) {front : List Char}
    (hfront : ∀ s, s <:+ front → s ≠ [] → '.' ∈ s) (rest seen : List Char) {skip : Nat}
    (hskip : skip ≤ front.length) :
    findFrom p seen skip (front ++ rest)
      = (findFrom p seen skip front).map (Found.extend rest)
        ++ findFrom p (front.reverse ++ seen) 0 rest := by
  induction front generalizing seen skip with
  | nil =>
    obtain rfl := Nat.le_zero.1 hskip
    rfl
  | cons c front ih =>
    have hbehind (skip : Nat) (hskip : skip ≤ front.length) :
        findFrom p (c :: seen) skip (front ++ rest)
          = (findFrom p (c :: seen) skip front).map (Found.extend rest)
            ++ findFrom p ((c :: front).reverse ++ seen) 0 rest := by
      have hsuffix := ih (fun s hs => hfront s (hs.trans (List.suffix_cons c front)))
        (c :: seen) hskip
      rwa [List.reverse_cons, List.append_assoc]
    cases skip with
    | succ skip => exact hbehind skip (Nat.le_of_succ_le_succ hskip)
    | zero =>
      have hdot : '.' ∈ c :: front := hfront _ List.suffix_rfl (List.cons_ne_nil c front)
      have hread : read? p (c :: (front ++ rest))
          = (read? p (c :: front)).map (Way.extend rest) := by
        rw [read?_eq_head?, read?_eq_head?, ← List.cons_append, ways_extend hp hdot,
          List.head?_map]
      rw [List.cons_append, findFrom, findFrom, hread]
      cases hw : read? p (c :: front) with
      | none => exact hbehind 0 (Nat.zero_le _)
      | some w =>
        -- the match ends within the sentences
        have hlen : w.taken.length - 1 ≤ front.length := by
          have hcut := congrArg List.length (taken_append_rest (mem_ways_of_read? hw))
          rw [List.length_append, List.length_cons] at hcut
          omega
        show _ :: findFrom p (c :: seen) (w.taken.length - 1) (front ++ rest) = _
        rw [hbehind _ hlen]
        rfl

theorem findAll_extend {p : Phrase} (hp : dotLast p = true) (front rest : List Char) :
    findAll p (front ++ '.' :: rest)
      = (findAll p (front ++ ['.'])).map (Found.extend rest)
        ++ (findAll p rest).map (Found.behind (front ++ ['.'])) := by
  have hfront : ∀ s, s <:+ front ++ ['.'] → s ≠ [] → '.' ∈ s := by
    intro s hs hne
    obtain ⟨t, rfl, -⟩ := (List.suffix_concat_iff.1 hs).resolve_left hne
    simp
  have hsplit := findFrom_extend hp hfront rest [] (Nat.zero_le _)
  rw [List.append_assoc, List.singleton_append] at hsplit
  rw [findAll, hsplit, findFrom_eq_map p (_ ++ _), List.append_nil]
  rfl

end CardEffects.Clause
