/-
  CardEffects.Clause.Phrase

  Phrases: patterns for clauses of card text, with slots for what varies.  A phrase can be read
  off the front of a text in several ways, and the list of them is in order of preference: an
  earlier choice before a later one, an optional part before its absence, and a shorter run of
  open text before a longer one; a number is always read whole.  The first way is the reading
  of the phrase there, and it is found without making the list.  A search through a text takes
  the leftmost place where the phrase can be read, and goes on behind it.
-/

namespace CardEffects.Clause

/-! ## Phrases -/

/-- What a slot of a phrase holds. -/
inductive Slot where
  | count
  | amount
  | energy
  | target
  | condition
  | names
  | criteria
  deriving DecidableEq, Repr

/-- The characters an open place in a phrase admits. -/
inductive CharSet where
  /-- Lower-case letters. -/
  | letter
  /-- Lower-case letters, digits, apostrophe, space and hyphen. -/
  | name
  /-- As in names, and braces. -/
  | taggedName
  /-- Anything but a line break. -/
  | any
  deriving DecidableEq, Repr

namespace CharSet

/-- Whether a character is one of the lower-case letters. -/
def isLetter (c : Char) : Bool := 'a' ≤ c && c ≤ 'z'

/-- Whether a set admits a character. -/
def admits : CharSet → Char → Bool
  | letter, c => isLetter c
  | name, c => isLetter c || c.isDigit || c == '\'' || c == ' ' || c == '-'
  | taggedName, c =>
    isLetter c || c.isDigit || c == '\'' || c == ' ' || c == '-' || c == '\x7b' || c == '\x7d'
  | any, c => c != '\n'

end CharSet

/-- A pattern for a clause. -/
inductive Phrase where
  /-- One of the listed words. -/
  | wordOf (choices : List (List Char))
  /-- One character. -/
  | one (set : CharSet)
  /-- A number: all the digits there, at least one. -/
  | digits
  /-- Open text of at least the given length. -/
  | run (set : CharSet) (least : Nat)
  /-- The text of a phrase, kept under the name of a slot. -/
  | slot (slot : Slot) (p : Phrase)
  /-- A phrase or nothing. -/
  | optional (p : Phrase)
  | either (p q : Phrase)
  /-- One phrase, then another. -/
  | both (p q : Phrase)
  /-- The end of the text. -/
  | atEnd
  deriving DecidableEq, Repr

namespace Phrase

/-- One word. -/
def word (w : String) : Phrase := wordOf [w.toList]

/-- One of several words. -/
def words (ws : List String) : Phrase := wordOf (ws.map String.toList)

/-- Phrases one after the other. -/
def seq : List Phrase → Phrase
  | [] => wordOf [[]]
  | [p] => p
  | p :: rest => both p (seq rest)

end Phrase

/-! ## Readings -/

/-- One way to read a phrase off the front of a text. -/
structure Way where
  /-- The text read. -/
  taken : List Char
  /-- The slots filled, in order. -/
  filled : List (Slot × List Char)
  /-- The text behind. -/
  rest : List Char
  deriving DecidableEq, Repr

/-- The text behind a word, if the text starts with it. -/
def afterWord? : List Char → List Char → Option (List Char)
  | [], cs => some cs
  | _ :: _, [] => none
  | w :: ws, c :: cs => if w = c then afterWord? ws cs else none

/-- The ways to cut a text in two where the first part holds admitted characters only, the
shortest first part first. -/
def cuts (ok : Char → Bool) : List Char → List (List Char × List Char)
  | [] => [([], [])]
  | c :: cs =>
    ([], c :: cs) :: (if ok c then (cuts ok cs).map fun p => (c :: p.1, p.2) else [])

/-- The ways to read a phrase off the front of a text, the preferred ones first. -/
def ways : Phrase → List Char → List Way
  | .wordOf choices, cs =>
    choices.filterMap fun w => (afterWord? w cs).map fun rest => ⟨w, [], rest⟩
  | .one set, c :: cs => if set.admits c then [⟨[c], [], cs⟩] else []
  | .one _, [] => []
  | .digits, cs =>
    match cs.takeWhile Char.isDigit with
    | [] => []
    | d :: ds => [⟨d :: ds, [], cs.dropWhile Char.isDigit⟩]
  | .run set least, cs => ((cuts set.admits cs).drop least).map fun p => ⟨p.1, [], p.2⟩
  | .slot s p, cs => (ways p cs).map fun w => { w with filled := (s, w.taken) :: w.filled }
  | .optional p, cs => ways p cs ++ [⟨[], [], cs⟩]
  | .either p q, cs => ways p cs ++ ways q cs
  | .both p q, cs =>
    (ways p cs).flatMap fun w =>
      (ways q w.rest).map fun v => ⟨w.taken ++ v.taken, w.filled ++ v.filled, v.rest⟩
  | .atEnd, [] => [⟨[], [], []⟩]
  | .atEnd, _ :: _ => []

/-! ## The preferred reading -/

/-- The shortest run of admitted characters, of at least the given length, behind which `next`
has a result: the run, the text behind it and the result.  `seen` holds the characters of the
run so far, the last first. -/
def runThen {β : Type} (ok : Char → Bool) (next : List Char → Option β) :
    Nat → List Char → List Char → Option (List Char × List Char × β)
  | least, seen, [] =>
    if least = 0 then (next []).map fun b => (seen.reverse, [], b) else none
  | least, seen, c :: cs =>
    match if least = 0 then next (c :: cs) else none with
    | some b => some (seen.reverse, c :: cs, b)
    | none => if ok c then runThen ok next (least - 1) (c :: seen) cs else none

/-- The preferred way to read a phrase behind which `next` has a result, and that result. -/
def readThen : Phrase → {β : Type} → (List Char → Option β) → List Char → Option (Way × β)
  | .wordOf choices, _, next, cs =>
    choices.findSome? fun w =>
      match afterWord? w cs with
      | some rest => (next rest).map fun b => (⟨w, [], rest⟩, b)
      | none => none
  | .one set, _, next, c :: cs =>
    if set.admits c then (next cs).map fun b => (⟨[c], [], cs⟩, b) else none
  | .one _, _, _, [] => none
  | .digits, _, next, cs =>
    match cs.takeWhile Char.isDigit with
    | [] => none
    | d :: ds =>
      let rest := cs.dropWhile Char.isDigit
      (next rest).map fun b => (⟨d :: ds, [], rest⟩, b)
  | .run set least, _, next, cs =>
    (runThen set.admits next least [] cs).map fun r => (⟨r.1, [], r.2.1⟩, r.2.2)
  | .slot s p, _, next, cs =>
    (readThen p next cs).map fun r =>
      ({ r.1 with filled := (s, r.1.taken) :: r.1.filled }, r.2)
  | .optional p, _, next, cs =>
    match readThen p next cs with
    | some r => some r
    | none => (next cs).map fun b => (⟨[], [], cs⟩, b)
  | .either p q, _, next, cs =>
    match readThen p next cs with
    | some r => some r
    | none => readThen q next cs
  | .both p q, _, next, cs =>
    (readThen p (fun rest => readThen q next rest) cs).map fun r =>
      (⟨r.1.taken ++ r.2.1.taken, r.1.filled ++ r.2.1.filled, r.2.1.rest⟩, r.2.2)
  | .atEnd, _, next, [] => (next []).map fun b => (⟨[], [], []⟩, b)
  | .atEnd, _, _, _ :: _ => none

/-- The reading of a phrase at the front of a text. -/
def read? (p : Phrase) (cs : List Char) : Option Way := (readThen p some cs).map (·.1)

theorem runThen_eq {β : Type} (ok : Char → Bool) (next : List Char → Option β) (least : Nat)
    (seen cs : List Char) :
    runThen ok next least seen cs
      = ((cuts ok cs).drop least).findSome? fun p =>
          (next p.2).map fun b => (seen.reverse ++ p.1, p.2, b) := by
  induction cs generalizing least seen with
  | nil => cases least <;> simp [runThen, cuts]
  | cons c cs ih =>
    cases least with
    | zero =>
      cases hn : next (c :: cs) with
      | some b => simp [runThen, cuts, hn]
      | none =>
        by_cases hc : ok c
        · simp [runThen, cuts, hn, hc, ih, List.findSome?_map, Function.comp_def]
        · simp [runThen, cuts, hn, hc]
    | succ n =>
      by_cases hc : ok c
      · simp [runThen, cuts, hc, ih, ← List.map_drop, List.findSome?_map, Function.comp_def]
      · simp [runThen, cuts, hc]

theorem findSome?_filterMap {α β γ : Type} (f : α → Option β) (g : β → Option γ)
    (l : List α) : (l.filterMap f).findSome? g = l.findSome? fun a => (f a).bind g := by
  induction l with
  | nil => rfl
  | cons a l ih => cases h : f a <;> simp [List.findSome?_cons, h, ih]

theorem findSome?_flatMap {α β γ : Type} (f : α → List β) (g : β → Option γ) (l : List α) :
    (l.flatMap f).findSome? g = l.findSome? fun a => (f a).findSome? g := by
  induction l with
  | nil => rfl
  | cons a l ih =>
    rw [List.flatMap_cons, List.findSome?_append, List.findSome?_cons, ih]
    cases (f a).findSome? g <;> rfl

/-- What is found is the first of the ways that has a result behind it. -/
theorem readThen_eq (p : Phrase) {β : Type} (next : List Char → Option β) (cs : List Char) :
    readThen p next cs = (ways p cs).findSome? fun w => (next w.rest).map fun b => (w, b) := by
  induction p generalizing β cs with
  | wordOf choices =>
    simp only [readThen, ways, findSome?_filterMap]
    congr
    funext w
    cases afterWord? w cs <;> simp
  | one set =>
    cases cs with
    | nil => simp [readThen, ways]
    | cons c cs => by_cases hc : set.admits c <;> simp [readThen, ways, hc]
  | digits =>
    simp only [readThen, ways]
    cases cs.takeWhile Char.isDigit <;> simp
  | run set least =>
    simp only [readThen, ways, runThen_eq, List.findSome?_map, Function.comp_def]
    simp [List.map_findSome?, Function.comp_def]
  | slot s p ih =>
    simp [readThen, ways, ih, List.findSome?_map, List.map_findSome?, Function.comp_def]
  | optional p ih =>
    simp only [readThen, ways, ih, List.findSome?_append]
    cases (ways p cs).findSome? _ <;> simp
  | either p q ihp ihq =>
    simp only [readThen, ways, ihp, ihq, List.findSome?_append]
    cases (ways p cs).findSome? _ <;> simp
  | both p q ihp ihq =>
    simp only [readThen, ways, ihp, ihq, findSome?_flatMap, List.findSome?_map]
    simp [List.map_findSome?, Function.comp_def]
  | atEnd => cases cs <;> simp [readThen, ways]

/-- The reading of a phrase is the first of the ways to read it. -/
theorem read?_eq_head? (p : Phrase) (cs : List Char) : read? p cs = (ways p cs).head? := by
  rw [read?, readThen_eq]
  cases ways p cs <;> simp

/-! ## Searching -/

/-- A place in a text where a phrase is read. -/
structure Found where
  /-- The text before the place, its last character first. -/
  before : List Char
  taken : List Char
  filled : List (Slot × List Char)
  after : List Char
  deriving DecidableEq, Repr

/-- The text of a slot, if the reading filled it. -/
def Found.get? (f : Found) (s : Slot) : Option (List Char) := f.filled.lookup s

/-- Searches from a place on.  `seen` is the text before it, last character first, and `skip`
the number of characters that the last reading still covers. -/
def findFrom (p : Phrase) (seen : List Char) : Nat → List Char → List Found
  | _, [] => []
  | skip + 1, c :: cs => findFrom p (c :: seen) skip cs
  | 0, c :: cs =>
    match read? p (c :: cs) with
    | some w =>
      ⟨seen, w.taken, w.filled, w.rest⟩
        :: findFrom p (c :: seen) (w.taken.length - 1) cs
    | none => findFrom p (c :: seen) 0 cs

/-- The readings of a phrase in a text, from left to right, none overlapping another. -/
def findAll (p : Phrase) (cs : List Char) : List Found := findFrom p [] 0 cs

/-! ## Readings are cuts of the text -/

theorem append_of_afterWord? {w cs rest : List Char} (h : afterWord? w cs = some rest) :
    w ++ rest = cs := by
  induction w generalizing cs with
  | nil => simpa [afterWord?] using h.symm
  | cons a w ih =>
    cases cs with
    | nil => simp [afterWord?] at h
    | cons c cs =>
      unfold afterWord? at h
      split at h
      next hc => simp [hc, ih h]
      next => simp at h

theorem append_of_mem_cuts {ok : Char → Bool} {cs : List Char} {p : List Char × List Char}
    (h : p ∈ cuts ok cs) : p.1 ++ p.2 = cs := by
  induction cs generalizing p with
  | nil => simp [cuts] at h; simp [h]
  | cons c cs ih =>
    simp only [cuts, List.mem_cons] at h
    rcases h with rfl | h
    · rfl
    · split at h
      · obtain ⟨q, hq, rfl⟩ := List.mem_map.1 h
        simp [ih hq]
      · simp at h

/-- A way to read a phrase cuts the text in two. -/
theorem taken_append_rest {p : Phrase} {cs : List Char} {w : Way} (h : w ∈ ways p cs) :
    w.taken ++ w.rest = cs := by
  induction p generalizing cs w with
  | wordOf choices =>
    simp only [ways, List.mem_filterMap, Option.map_eq_some_iff] at h
    obtain ⟨a, _, r, hr, rfl⟩ := h
    exact append_of_afterWord? hr
  | one set =>
    cases cs with
    | nil => simp [ways] at h
    | cons c cs =>
      unfold ways at h
      split at h
      · simp only [List.mem_singleton] at h
        simp [h]
      · simp at h
  | digits =>
    simp only [ways] at h
    split at h
    · simp at h
    next heq =>
      simp only [List.mem_singleton] at h
      rw [h, ← heq, List.takeWhile_append_dropWhile]
  | run set least =>
    simp only [ways, List.mem_map] at h
    obtain ⟨q, hq, rfl⟩ := h
    exact append_of_mem_cuts (List.mem_of_mem_drop hq)
  | slot s p ih =>
    simp only [ways, List.mem_map] at h
    obtain ⟨q, hq, rfl⟩ := h
    exact ih (w := q) hq
  | optional p ih =>
    simp only [ways, List.mem_append, List.mem_singleton] at h
    rcases h with h | rfl
    · exact ih h
    · rfl
  | either p q ihp ihq =>
    simp only [ways, List.mem_append] at h
    exact h.elim ihp ihq
  | both p q ihp ihq =>
    simp only [ways, List.mem_flatMap, List.mem_map] at h
    obtain ⟨a, ha, b, hb, rfl⟩ := h
    simp [ihq hb, ihp ha]
  | atEnd =>
    cases cs with
    | nil => simp [ways] at h; simp [h]
    | cons c cs => simp [ways] at h

end CardEffects.Clause
