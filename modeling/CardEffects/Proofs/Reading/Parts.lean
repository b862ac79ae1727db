/-
  CardEffects.Proofs.Reading.Parts

  The readings of a phrase, part by part.

    * `mem_ways_wordOf`, `mem_ways_one`, `mem_ways_slot`, `mem_ways_both` and the like — the readings
      of a phrase, and how they are made of those of its parts.
    * `exists_of_read?_both`, `read?_optional`, `read?_wordOf` — which of them is preferred.
    * `read?_both_of_ways`, `runThen_append` — parts that can be read in one way only.
    * `slotsOf` — the slots that a reading can fill.
    * `leads` — the words with one of which every reading begins.
    * `stops` — the phrases of which every reading goes on behind a full stop.
-/
import CardEffects.Clause.Phrase

namespace CardEffects.Clause

/-! ## The readings of the parts -/

theorem mem_ways_wordOf {choices : List (List Char)} {cs : List Char} {a : Way}
    (h : a ∈ ways (.wordOf choices) cs) :
    a.taken ∈ choices ∧ a.filled = [] ∧ a.taken ++ a.rest = cs := by
  have hcut := taken_append_rest h
  simp only [ways, List.mem_filterMap, Option.map_eq_some_iff] at h
  obtain ⟨w, hw, rest, -, rfl⟩ := h
  exact ⟨hw, rfl, hcut⟩

/-- A single word is read whole. -/
theorem mem_ways_word {u : String} {cs : List Char} {a : Way}
    (h : a ∈ ways (Phrase.word u) cs) :
    a.taken = u.toList ∧ a.filled = [] ∧ u.toList ++ a.rest = cs := by
  obtain ⟨htaken, hfilled, hcut⟩ := mem_ways_wordOf h
  obtain htaken := List.mem_singleton.1 htaken
  exact ⟨htaken, hfilled, htaken ▸ hcut⟩

theorem mem_ways_one {set : CharSet} {cs : List Char} {w : Way} (h : w ∈ ways (.one set) cs) :
    ∃ c rest, cs = c :: rest ∧ set.admits c = true ∧ w = ⟨[c], [], rest⟩ := by
  cases cs with
  | nil => cases h
  | cons c cs =>
    unfold ways at h
    split at h
    next hc => exact ⟨c, cs, rfl, hc, List.mem_singleton.1 h⟩
    next => cases h

theorem mem_ways_digits {cs : List Char} {w : Way} (h : w ∈ ways .digits cs) :
    w.taken ≠ [] ∧ (∀ c ∈ w.taken, c.isDigit = true) ∧ w.filled = [] := by
  unfold ways at h
  split at h
  · cases h
  next d ds hds =>
    obtain rfl := List.mem_singleton.1 h
    refine ⟨List.cons_ne_nil d ds, ?_, rfl⟩
    show ∀ c ∈ d :: ds, _
    rw [← hds]
    exact List.all_eq_true.1 List.all_takeWhile

/-- What is cut off holds admitted characters only. -/
theorem all_of_mem_cuts {ok : Char → Bool} {cs : List Char} {cut : List Char × List Char}
    (h : cut ∈ cuts ok cs) : ∀ c ∈ cut.1, ok c = true := by
  induction cs generalizing cut with
  | nil =>
    obtain rfl := List.mem_singleton.1 h
    exact List.forall_mem_nil _
  | cons a cs ih =>
    unfold cuts at h
    rcases List.mem_cons.1 h with rfl | h
    · exact List.forall_mem_nil _
    · split at h
      next ha =>
        obtain ⟨cut', hcut', rfl⟩ := List.mem_map.1 h
        exact List.forall_mem_cons.2 ⟨ha, ih hcut'⟩
      next => cases h

theorem mem_ways_run {set : CharSet} {least : Nat} {cs : List Char} {w : Way}
    (h : w ∈ ways (.run set least) cs) :
    (∀ c ∈ w.taken, set.admits c = true) ∧ w.filled = [] := by
  obtain ⟨cut, hcut, rfl⟩ := List.mem_map.1 h
  exact ⟨all_of_mem_cuts (List.mem_of_mem_drop hcut), rfl⟩

theorem mem_ways_slot {s : Slot} {p : Phrase} {cs : List Char} {a : Way}
    (h : a ∈ ways (.slot s p) cs) :
    ∃ b ∈ ways p cs, a = { b with filled := (s, b.taken) :: b.filled } := by
  simp only [ways, List.mem_map] at h
  obtain ⟨b, hb, rfl⟩ := h
  exact ⟨b, hb, rfl⟩

theorem mem_ways_optional {p : Phrase} {cs : List Char} {w : Way}
    (h : w ∈ ways (.optional p) cs) : w ∈ ways p cs ∨ w = ⟨[], [], cs⟩ := by
  rwa [ways, List.mem_append, List.mem_singleton] at h

theorem mem_ways_either {p q : Phrase} {cs : List Char} {w : Way}
    (h : w ∈ ways (.either p q) cs) : w ∈ ways p cs ∨ w ∈ ways q cs := by
  rwa [ways, List.mem_append] at h

theorem mem_ways_both {p q : Phrase} {cs : List Char} {w : Way} (h : w ∈ ways (.both p q) cs) :
    ∃ a ∈ ways p cs, ∃ b ∈ ways q a.rest,
      w = ⟨a.taken ++ b.taken, a.filled ++ b.filled, b.rest⟩ := by
  rw [ways, List.mem_flatMap] at h
  obtain ⟨a, ha, h⟩ := h
  obtain ⟨b, hb, rfl⟩ := List.mem_map.1 h
  exact ⟨a, ha, b, hb, rfl⟩

theorem mem_ways_atEnd {cs : List Char} {w : Way} (h : w ∈ ways .atEnd cs) :
    cs = [] ∧ w = ⟨[], [], []⟩ := by
  cases cs with
  | nil => exact ⟨rfl, List.mem_singleton.1 h⟩
  | cons c cs => cases h

/-! ## The preferred reading -/

/-- The preferred way to read a phrase is one of the ways. -/
theorem mem_ways_of_read? {p : Phrase} {cs : List Char} {w : Way} (h : read? p cs = some w) :
    w ∈ ways p cs := by
  rw [read?_eq_head?] at h
  exact List.mem_of_head? h

/-- Two phrases in a row: some way to read the first, and behind it the preferred way to read
the second. -/
theorem exists_of_read?_both {p q : Phrase} {cs : List Char} {w : Way}
    (h : read? (.both p q) cs = some w) :
    ∃ a ∈ ways p cs, ∃ b, read? q a.rest = some b
      ∧ w = ⟨a.taken ++ b.taken, a.filled ++ b.filled, b.rest⟩ := by
  -- the ways to read the first phrase are tried in turn, until the second can be read behind one
  rw [read?_eq_head?, ways, List.head?_flatMap] at h
  obtain ⟨a, ha, hhead⟩ := List.exists_of_findSome?_eq_some h
  rw [List.head?_map, Option.map_eq_some_iff] at hhead
  obtain ⟨b, hb, rfl⟩ := hhead
  exact ⟨a, ha, b, by rw [read?_eq_head?, hb], rfl⟩

theorem read?_optional (p : Phrase) (cs : List Char) :
    read? (.optional p) cs = some ((read? p cs).getD ⟨[], [], cs⟩) := by
  rw [read?_eq_head?, read?_eq_head?, ways]
  cases ways p cs <;> rfl

theorem read?_slot (s : Slot) (p : Phrase) (cs : List Char) :
    read? (.slot s p) cs
      = (read? p cs).map fun w => { w with filled := (s, w.taken) :: w.filled } := by
  rw [read?_eq_head?, read?_eq_head?, ways, List.head?_map]

/-- A word, and behind it the preferred way to read the rest. -/
theorem read?_word_both (u : List Char) (q : Phrase) (cs : List Char) :
    read? (.both (.wordOf [u]) q) cs
      = (afterWord? u cs).bind fun rest =>
          (read? q rest).map fun b => ⟨u ++ b.taken, b.filled, b.rest⟩ := by
  rw [read?_eq_head?, ways, ways, List.filterMap_cons, List.filterMap_nil]
  cases afterWord? u cs with
  | none => rfl
  | some rest => simp [read?_eq_head?]

theorem read?_word (u : List Char) (cs : List Char) :
    read? (.wordOf [u]) cs = (afterWord? u cs).map fun rest => ⟨u, [], rest⟩ := by
  rw [read?_eq_head?, ways, List.filterMap_cons, List.filterMap_nil]
  cases afterWord? u cs <;> rfl

theorem afterWord?_append (w rest : List Char) : afterWord? w (w ++ rest) = some rest := by
  induction w with
  | nil => rfl
  | cons c w ih => rw [List.cons_append, afterWord?, if_pos rfl, ih]

/-- Of several words the first that the text starts with is read. -/
theorem read?_wordOf (choices : List (List Char)) (cs : List Char) :
    (read? (.wordOf choices) cs).map Way.taken = choices.find? fun w => w.isPrefixOf cs := by
  rw [read?_eq_head?, ways]
  induction choices with
  | nil => rfl
  | cons w choices ih =>
    rw [List.filterMap_cons, List.find?_cons]
    cases hw : w.isPrefixOf cs with
    | true =>
      obtain ⟨rest, rfl⟩ := List.isPrefixOf_iff_prefix.1 hw
      rw [afterWord?_append]
      rfl
    | false =>
      cases hafter : afterWord? w cs with
      | none => exact ih
      | some rest =>
        have hprefix : w <+: cs := ⟨rest, append_of_afterWord? hafter⟩
        rw [← List.isPrefixOf_iff_prefix, hw] at hprefix
        cases hprefix

/-- When the second phrase can always be read, the first is read as it would be alone. -/
theorem read?_both_of_total {p q : Phrase} (hq : ∀ cs, (read? q cs).isSome = true)
    (cs : List Char) :
    read? (.both p q) cs
      = (read? p cs).bind fun a =>
          (read? q a.rest).map fun b => ⟨a.taken ++ b.taken, a.filled ++ b.filled, b.rest⟩ := by
  rw [read?_eq_head?, read?_eq_head?, ways, List.head?_flatMap]
  cases ways p cs with
  | nil => rfl
  | cons a as =>
    -- no way after the first is ever tried
    obtain ⟨b, hb⟩ := Option.isSome_iff_exists.1 (hq a.rest)
    rw [List.head?_cons, Option.bind_some, List.findSome?_cons, List.head?_map, ← read?_eq_head?,
      hb]
    rfl

/-! ## Parts with one reading -/

theorem ways_both_of_ways {p q : Phrase} {cs taken rest : List Char}
    {filled : List (Slot × List Char)} (h : ways p cs = [⟨taken, filled, rest⟩]) :
    ways (.both p q) cs
      = (ways q rest).map fun b => ⟨taken ++ b.taken, filled ++ b.filled, b.rest⟩ := by
  rw [ways, h, List.flatMap_cons, List.flatMap_nil, List.append_nil]

theorem ways_both_of_nil {p q : Phrase} {cs : List Char} (h : ways p cs = []) :
    ways (.both p q) cs = [] := by
  rw [ways, h, List.flatMap_nil]

/-- Behind a part with one reading the preferred reading of the rest is taken. -/
theorem read?_both_of_ways {p q : Phrase} {cs taken taken' rest rest' : List Char}
    {filled filled' : List (Slot × List Char)} (hp : ways p cs = [⟨taken, filled, rest⟩])
    (hq : read? q rest = some ⟨taken', filled', rest'⟩) :
    read? (.both p q) cs = some ⟨taken ++ taken', filled ++ filled', rest'⟩ := by
  rw [read?_eq_head?] at hq ⊢
  rw [ways_both_of_ways hp, List.head?_map, hq]
  rfl

theorem ways_word (u : String) (rest : List Char) :
    ways (Phrase.word u) (u.toList ++ rest) = [⟨u.toList, [], rest⟩] := by
  rw [Phrase.word, ways, List.filterMap_cons, List.filterMap_nil, afterWord?_append]
  rfl

/-- A number is read whole. -/
theorem ways_digits {ds rest : List Char} (hne : ds ≠ [])
    (hds : ∀ c ∈ ds, c.isDigit = true)
    (hrest : ∀ c ∈ rest.head?, c.isDigit = false) :
    ways .digits (ds ++ rest) = [⟨ds, [], rest⟩] := by
  have htake : (ds ++ rest).takeWhile Char.isDigit = ds := by
    rw [List.takeWhile_append_of_pos hds]
    cases rest with
    | nil => simp
    | cons c cs => simp [hrest c rfl]
  have hdrop : (ds ++ rest).dropWhile Char.isDigit = rest := by
    rw [List.dropWhile_append_of_pos hds]
    cases rest with
    | nil => simp
    | cons c cs => simp [hrest c rfl]
  unfold ways
  rw [htake, hdrop]
  cases ds with
  | nil => exact absurd rfl hne
  | cons d ds => rfl

/-- A run that what comes next cannot cut short is read whole. -/
theorem runThen_append {β : Type} {ok : Char → Bool} {next : List Char → Option β} {b : β}
    {run rest : List Char} (hrun : ∀ c ∈ run, ok c = true)
    (hnext : ∀ c ∈ run, ∀ cs, next (c :: cs) = none) (hrest : next rest = some b)
    {least : Nat} (hleast : least ≤ run.length) (seen : List Char) :
    runThen ok next least seen (run ++ rest) = some (seen.reverse ++ run, rest, b) := by
  induction run generalizing least seen with
  | nil =>
    obtain rfl := Nat.le_zero.1 hleast
    cases rest with
    | nil => simp [runThen, hrest]
    | cons c cs => simp [runThen, hrest]
  | cons c run ih =>
    obtain ⟨hc, hrun⟩ := List.forall_mem_cons.1 hrun
    obtain ⟨hnone, hnext⟩ := List.forall_mem_cons.1 hnext
    have hshort : least - 1 ≤ run.length := by
      rw [List.length_cons] at hleast
      omega
    have hstep := ih hrun hnext hshort (c :: seen)
    rw [List.cons_append]
    unfold runThen
    rw [hnone, ite_self, hc]
    simpa using hstep

/-! ## Slots -/

/-- The slots of a phrase. -/
def slotsOf : Phrase → List Slot
  | .slot s p => s :: slotsOf p
  | .optional p => slotsOf p
  | .either p q | .both p q => slotsOf p ++ slotsOf q
  | .wordOf _ | .one _ | .digits | .run _ _ | .atEnd => []

/-- A reading fills slots of its phrase only. -/
theorem mem_slotsOf {p : Phrase} {cs : List Char} {w : Way} (h : w ∈ ways p cs)
    {x : Slot × List Char} (hx : x ∈ w.filled) : x.1 ∈ slotsOf p := by
  -- by the shape of the phrase; only a slot adds to what its parts fill
  induction p generalizing cs w with
  | wordOf choices =>
    rw [(mem_ways_wordOf h).2.1] at hx
    cases hx
  | one set =>
    obtain ⟨c, rest, -, -, rfl⟩ := mem_ways_one h
    cases hx
  | digits =>
    rw [(mem_ways_digits h).2.2] at hx
    cases hx
  | run set least =>
    rw [(mem_ways_run h).2] at hx
    cases hx
  | slot s p ih =>
    obtain ⟨v, hv, rfl⟩ := mem_ways_slot h
    rcases List.mem_cons.1 hx with rfl | hx
    · exact List.mem_cons_self
    · exact List.mem_cons_of_mem s (ih hv hx)
  | optional p ih =>
    rcases mem_ways_optional h with h | rfl
    · exact ih h hx
    · cases hx
  | either p q ihp ihq =>
    rw [slotsOf, List.mem_append]
    exact (mem_ways_either h).imp (fun h => ihp h hx) fun h => ihq h hx
  | both p q ihp ihq =>
    obtain ⟨a, ha, b, hb, rfl⟩ := mem_ways_both h
    rw [slotsOf, List.mem_append]
    exact (List.mem_append.1 hx).imp (ihp ha) (ihq hb)
  | atEnd =>
    obtain ⟨-, rfl⟩ := mem_ways_atEnd h
    cases hx

theorem lookup_eq_none {p : Phrase} {cs : List Char} {w : Way} (h : w ∈ ways p cs) {s : Slot}
    (hs : s ∉ slotsOf p) : w.filled.lookup s = none := by
  rw [List.lookup_eq_none_iff]
  intro x hx
  rw [bne_iff_ne]
  rintro rfl
  exact hs (mem_slotsOf h hx)

theorem filled_eq_nil {p : Phrase} {cs : List Char} {w : Way} (h : w ∈ ways p cs)
    (hp : slotsOf p = []) : w.filled = [] := by
  rw [List.eq_nil_iff_forall_not_mem]
  intro x hx
  have hmem := mem_slotsOf h hx
  rw [hp] at hmem
  cases hmem

/-- A slot without slots in it. -/
theorem filled_slot {s : Slot} {p : Phrase} {cs : List Char} {a : Way}
    (h : a ∈ ways (.slot s p) cs) (hp : slotsOf p = []) : a.filled = [(s, a.taken)] := by
  obtain ⟨b, hb, rfl⟩ := mem_ways_slot h
  show (s, b.taken) :: b.filled = _
  rw [filled_eq_nil hb hp]

/-! ## How a reading begins -/

/-- The words with one of which every reading of a phrase begins; the empty word where little is
known. -/
def leads : Phrase → List (List Char)
  | .wordOf choices => choices
  | .slot _ p => leads p
  | .either p q => leads p ++ leads q
  | .both p _ => leads p
  | .one _ | .digits | .run _ _ | .optional _ | .atEnd => [[]]

/-- Everything begins with the empty word. -/
private theorem exists_empty_lead (taken : List Char) :
    ∃ l ∈ [([] : List Char)], l <+: taken :=
  ⟨[], List.mem_cons_self, List.nil_prefix⟩

theorem exists_lead {p : Phrase} {cs : List Char} {w : Way} (h : w ∈ ways p cs) :
    ∃ l ∈ leads p, l <+: w.taken := by
  -- by the shape of the phrase; of two in a row the first decides
  induction p generalizing cs w with
  | wordOf choices =>
    exact ⟨w.taken, (mem_ways_wordOf h).1, List.prefix_rfl⟩
  | slot s p ih =>
    obtain ⟨v, hv, rfl⟩ := mem_ways_slot h
    exact ih (w := v) hv
  | either p q ihp ihq =>
    simp only [leads, List.mem_append, or_and_right, exists_or]
    exact (mem_ways_either h).imp ihp ihq
  | both p q ihp ihq =>
    obtain ⟨a, ha, b, -, rfl⟩ := mem_ways_both h
    obtain ⟨l, hl, hla⟩ := ihp ha
    exact ⟨l, hl, hla.trans (List.prefix_append a.taken b.taken)⟩
  | one set => exact exists_empty_lead w.taken
  | digits => exact exists_empty_lead w.taken
  | run set least => exact exists_empty_lead w.taken
  | optional p ih => exact exists_empty_lead w.taken
  | atEnd => exact exists_empty_lead w.taken

/-! ## Full stops in a reading -/

/-- Whether every reading of a phrase has a full stop in it, and goes on behind. -/
def stops : Phrase → Bool
  | .wordOf choices => choices.all fun w => w.dropLast.contains '.'
  | .slot _ p => stops p
  | .either p q => stops p && stops q
  | .both p q => stops p || stops q
  | .one _ | .digits | .run _ _ | .optional _ | .atEnd => false

/-- A full stop that is not at the end of a part is not at the end of the whole. -/
theorem dot_mem_dropLast_append {as bs : List Char}
    (h : '.' ∈ as.dropLast ∨ '.' ∈ bs.dropLast) : '.' ∈ (as ++ bs).dropLast := by
  cases hbs : bs with
  | nil =>
    rw [hbs] at h
    rw [List.append_nil]
    exact h.resolve_right List.not_mem_nil
  | cons b bs' =>
    rw [← hbs, List.dropLast_append_of_ne_nil (by simp [hbs]), List.mem_append]
    exact h.imp_left fun has => (List.dropLast_prefix as).mem has

theorem dot_mem_of_stops {p : Phrase} (hp : stops p = true) {cs : List Char} {w : Way}
    (h : w ∈ ways p cs) : '.' ∈ w.taken.dropLast := by
  -- by the shape of the phrase; of two in a row it is enough that one has the full stop
  induction p generalizing cs w with
  | wordOf choices =>
    simp only [stops, List.all_eq_true, List.contains_iff_mem] at hp
    exact hp w.taken (mem_ways_wordOf h).1
  | slot s p ih =>
    obtain ⟨v, hv, rfl⟩ := mem_ways_slot h
    exact ih (w := v) hp hv
  | either p q ihp ihq =>
    simp only [stops, Bool.and_eq_true] at hp
    exact (mem_ways_either h).elim (ihp hp.1) (ihq hp.2)
  | both p q ihp ihq =>
    simp only [stops, Bool.or_eq_true] at hp
    obtain ⟨a, ha, b, hb, rfl⟩ := mem_ways_both h
    exact dot_mem_dropLast_append (hp.imp (fun hp => ihp hp ha) fun hq => ihq hq hb)
  | one set => cases hp
  | digits => cases hp
  | run set least => cases hp
  | optional p ih => cases hp
  | atEnd => cases hp

end CardEffects.Clause
