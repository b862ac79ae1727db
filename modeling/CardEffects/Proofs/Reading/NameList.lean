/-
  CardEffects.Proofs.Reading.NameList

  Lists of names, joined by commas, "and" and "or".  Each joining word is replaced by a comma, and
  the list is cut at its commas; so every name comes out whole, in order, whatever joins it to the
  next.

    * `NameList` — a list of names as it is printed.
    * `commaFor_behind` — words that are not replaced are passed by.
    * `NameList.nameList_normal` — a list is split into its names.
    * `NameList.leading`, `NameList.normal_append_dot` — the names before the first comma, and what
      stands behind it.
-/
import CardEffects.Proofs.Reading.NormalForm
import Mathlib.Data.List.TakeWhile

namespace CardEffects.Clause

/-! ## Words that are replaced -/

/-- A text goes on as it does behind a word: with a space or a comma, or not at all. -/
def Breaks (t : List Char) : Prop := ∀ c ∈ t.head?, c = ' ' ∨ c = ','

theorem breaks_nil : Breaks [] := fun _ h => by cases h

theorem breaks_space (t : List Char) : Breaks (' ' :: t) := by
  rintro c ⟨⟩
  exact .inl rfl

theorem breaks_comma (t : List Char) : Breaks (',' :: t) := by
  rintro c ⟨⟩
  exact .inr rfl

theorem breaks_behind (words : List (List Char)) {t : List Char} (ht : Breaks t) :
    Breaks (behind words ++ t) := by
  cases words with
  | nil => exact ht
  | cons w words =>
    rw [behind_cons]
    exact breaks_space _

/-- The text that a joining word stands in. -/
def amidSpaces (u : List Char) : List Char := ' ' :: (u ++ [' '])

/-- Where another word stands, the joining word does not. -/
theorem not_prefix_word {u v t : List Char} (hspace : ' ' ∉ u) (hcomma : ',' ∉ u) (hv : ' ' ∉ v)
    (hne : v ≠ u) (ht : Breaks t) : ¬ u ++ [' '] <+: v ++ t := by
  rintro ⟨s, hs⟩
  rw [List.append_assoc, List.singleton_append] at hs
  rcases List.append_eq_append_iff.1 hs with ⟨a, rfl, ha⟩ | ⟨a, rfl, ha⟩
  · -- the word is longer, so the space behind the joining word stands in it
    cases a with
    | nil => exact hne (List.append_nil u)
    | cons c a =>
      obtain rfl := (List.cons.inj ha).1
      exact hv (List.mem_append_right u List.mem_cons_self)
  · -- the word is shorter, so what is behind it stands in the joining word
    cases a with
    | nil => exact hne (List.append_nil v).symm
    | cons c a =>
      have hc : c ∈ v ++ c :: a := List.mem_append_right v List.mem_cons_self
      rw [ha] at ht
      rcases ht c rfl with rfl | rfl
      · exact hspace hc
      · exact hcomma hc

/-- A text without spaces and commas that is the beginning of a text of words, is the beginning of
the first word. -/
theorem prefix_of_prefix_append {u v t : List Char} (hspace : ' ' ∉ u) (hcomma : ',' ∉ u)
    (ht : Breaks t) (h : u <+: v ++ t) : u <+: v := by
  rcases List.prefix_or_prefix_of_prefix h (List.prefix_append v t) with huv | ⟨a, rfl⟩
  · exact huv
  · cases a with
    | nil => simp
    | cons c a =>
      -- what is behind the word would stand in it
      have hc : c ∈ v ++ c :: a := List.mem_append_right v List.mem_cons_self
      obtain ⟨s, hs⟩ := (List.prefix_append_right_inj v).1 h
      rw [← hs] at ht
      rcases ht c rfl with rfl | rfl
      · exact absurd hc hspace
      · exact absurd hc hcomma

section CommaFor

variable {u : List Char} (hspace : ' ' ∉ u) (hcomma : ',' ∉ u)

/-- Nothing is replaced at a character that is no space. -/
theorem commaFor_cons {c : Char} (hc : c ≠ ' ') (t : List Char) :
    commaFor (amidSpaces u) 0 (c :: t) = c :: commaFor (amidSpaces u) 0 t := by
  have hnone : (amidSpaces u).isPrefixOf (c :: t) = false := by
    rw [← Bool.not_eq_true, List.isPrefixOf_iff_prefix, amidSpaces, List.cons_prefix_cons]
    exact fun h => hc h.1.symm
  rw [commaFor, hnone, if_neg Bool.false_ne_true]

theorem commaFor_word {w : List Char} (hw : ' ' ∉ w) (t : List Char) :
    commaFor (amidSpaces u) 0 (w ++ t) = w ++ commaFor (amidSpaces u) 0 t := by
  induction w with
  | nil => rfl
  | cons c w ih =>
    rw [List.mem_cons, not_or] at hw
    rw [List.cons_append, commaFor_cons (Ne.symm hw.1), ih hw.2, List.cons_append]

/-- The joining word is replaced. -/
theorem commaFor_amidSpaces (t : List Char) :
    commaFor (amidSpaces u) 0 (amidSpaces u ++ t) = ',' :: commaFor (amidSpaces u) 0 t := by
  have hskip : ∀ (v t : List Char),
      commaFor (amidSpaces u) v.length (v ++ t) = commaFor (amidSpaces u) 0 t := by
    intro v t
    induction v with
    | nil => rfl
    | cons c v ih => exact ih
  have hhere : (amidSpaces u).isPrefixOf (amidSpaces u ++ t) = true := by
    rw [List.isPrefixOf_iff_prefix]
    exact List.prefix_append _ t
  have hstep : commaFor (amidSpaces u) 0 (amidSpaces u ++ t)
      = if (amidSpaces u).isPrefixOf (amidSpaces u ++ t) then
          ',' :: commaFor (amidSpaces u) (u ++ [' ']).length (u ++ [' '] ++ t)
        else ' ' :: commaFor (amidSpaces u) 0 (u ++ [' '] ++ t) := rfl
  rw [hstep, if_pos hhere, hskip]

include hspace hcomma

/-- Words that are not the joining word are passed by. -/
theorem commaFor_behind {words : List (List Char)} (hwords : ∀ w ∈ words, ' ' ∉ w ∧ w ≠ u)
    {t : List Char} (ht : Breaks t) :
    commaFor (amidSpaces u) 0 (behind words ++ t)
      = behind words ++ commaFor (amidSpaces u) 0 t := by
  induction words with
  | nil => rfl
  | cons w words ih =>
    obtain ⟨⟨hw, hne⟩, hwords⟩ := List.forall_mem_cons.1 hwords
    have hnot := not_prefix_word hspace hcomma hw hne (breaks_behind words ht)
    have hhere : (amidSpaces u).isPrefixOf (' ' :: (w ++ (behind words ++ t))) = false := by
      rw [← Bool.not_eq_true, List.isPrefixOf_iff_prefix, amidSpaces, List.cons_prefix_cons]
      exact fun h => hnot h.2
    rw [behind_cons, List.cons_append, List.append_assoc, commaFor, hhere,
      if_neg Bool.false_ne_true, commaFor_word hw, ih hwords, List.cons_append, List.append_assoc]

theorem commaFor_spaced {words : List (List Char)} (hwords : ∀ w ∈ words, ' ' ∉ w ∧ w ≠ u)
    {t : List Char} (ht : Breaks t) :
    commaFor (amidSpaces u) 0 (spaced words ++ t)
      = spaced words ++ commaFor (amidSpaces u) 0 t := by
  cases words with
  | nil => rfl
  | cons w words =>
    obtain ⟨⟨hw, -⟩, hbehind⟩ := List.forall_mem_cons.1 hwords
    rw [spaced_cons, List.append_assoc, commaFor_word hw,
      commaFor_behind hspace hcomma hbehind ht, List.append_assoc]

end CommaFor

/-- A text is cut at the commas in it. -/
theorem atCommas_append {part : List Char} (hpart : ',' ∉ part) (parts : List (List Char))
    (hparts : ∀ p ∈ parts, ',' ∉ p) :
    atCommas (part ++ parts.flatMap (',' :: ·)) = part :: parts := by
  have hcut : ∀ {part : List Char}, ',' ∉ part → ∀ t : List Char,
      atCommas (part ++ ',' :: t) = part :: atCommas t := by
    intro part hpart t
    induction part with
    | nil => rfl
    | cons c part ih =>
      rw [List.mem_cons, not_or] at hpart
      rw [List.cons_append, atCommas, if_neg (Ne.symm hpart.1), ih hpart.2]
  induction parts generalizing part with
  | nil => rw [List.flatMap_nil, List.append_nil, atCommas_of_not_mem hpart]
  | cons p parts ih =>
    obtain ⟨hp, hparts⟩ := List.forall_mem_cons.1 hparts
    rw [List.flatMap_cons, List.cons_append, hcut hpart, ih hp hparts]

/-! ## Lists of names -/

/-- What joins two names in a list. -/
inductive Joint where
  | comma
  | and
  | or
  deriving DecidableEq, Repr

/-- As it is printed. -/
def Joint.text : Joint → List Char
  | comma => ", ".toList
  | and => " and ".toList
  | or => " or ".toList

theorem Joint.breaks_text (j : Joint) (t : List Char) : Breaks (j.text ++ t) := by
  cases j with
  | comma => exact breaks_comma _
  | and | or => exact breaks_space _

/-- Names, each but the first with what joins it to the one before. -/
structure NameList where
  first : BenchName
  rest : List (Joint × BenchName)

namespace NameList

/-- The names alone, in order. -/
def names (l : NameList) : List BenchName := l.first :: l.rest.map (·.2)

/-- The list written out, for given ways to write what joins names, and names. -/
def written (l : NameList) (mark : Joint → List Char) (name : BenchName → List Char) :
    List Char :=
  name l.first ++ l.rest.flatMap fun p => mark p.1 ++ name p.2

/-- The characters of a list. -/
def chars (l : NameList) : List Char := l.written Joint.text BenchName.chars

/-- The list as it stands in the normal form of a card text. -/
def normal (l : NameList) : List Char := l.written Joint.text BenchName.normal

variable (l : NameList)

theorem map_chars : l.chars.map normalChar = l.normal := by
  have hmark : ∀ j : Joint, j.text.map normalChar = j.text := by
    intro j
    cases j <;> decide
  rw [chars, written, List.map_append, List.map_flatMap, normal, written]
  congr 1
  refine List.flatMap_congr fun p _ => ?_
  rw [List.map_append, hmark, BenchName.normal]

/-- A printed list is tidy. -/
theorem chars_tidy : gapAfter? true l.chars = some false := by
  have hmark : ∀ j : Joint, gapAfter? false j.text = some true := by
    intro j
    cases j <;> decide
  have hrest : ∀ rest : List (Joint × BenchName),
      gapAfter? false (rest.flatMap fun p => p.1.text ++ p.2.chars) = some false := by
    intro rest
    induction rest with
    | nil => rfl
    | cons p rest ih =>
      rw [List.flatMap_cons, List.append_assoc, gapAfter?_append, hmark, Option.bind_some,
        gapAfter?_append, p.2.chars_tidy, Option.bind_some, ih]
  rw [chars, written, gapAfter?_append, l.first.chars_tidy, Option.bind_some, hrest]

/-- The normal form fits into the open place for names but for its commas. -/
theorem mem_normal {c : Char} (hc : c ∈ l.normal) : c = ',' ∨ CharSet.name.admits c = true := by
  rw [normal, written, List.mem_append, List.mem_flatMap] at hc
  rcases hc with hc | ⟨p, -, hc⟩
  · exact .inr (l.first.admits_normal c hc)
  · rcases List.mem_append.1 hc with hc | hc
    · have hmark : ∀ j : Joint, j.text.all fun c => c == ',' || CharSet.name.admits c := by
        intro j
        cases j <;> decide
      have hall := List.all_eq_true.1 (hmark p.1) c hc
      rwa [Bool.or_eq_true, beq_iff_eq] at hall
    · exact .inr (p.2.admits_normal c hc)

/-! ### Splitting -/

/-- The marks when one of the joining words has been replaced, -/
def markAnd : Joint → List Char
  | .comma => ", ".toList
  | .and => ",".toList
  | .or => " or ".toList

/-- and when both have been. -/
def markOr : Joint → List Char
  | .comma => ", ".toList
  | .and => ",".toList
  | .or => ",".toList

/-- The joining words are words, and none is a word of a name. -/
def IsJoining (u : List Char) : Prop := u = "and".toList ∨ u = "or".toList

theorem IsJoining.not_mem {u : List Char} (hu : IsJoining u) : ' ' ∉ u ∧ ',' ∉ u := by
  rcases hu with rfl | rfl <;> decide

/-- The words of a name, in normal form. -/
theorem words_normal (n : BenchName) : ∃ words : List (List Char), n.normal = spaced words
    ∧ words ≠ [] ∧ ∀ u, IsJoining u → ∀ w ∈ words, ' ' ∉ w ∧ w ≠ u := by
  refine ⟨_, n.normal_eq, by simpa using n.words_ne_nil, fun u hu => ?_⟩
  rw [List.forall_mem_map]
  refine fun w hw => ⟨fun hmem => ?_, ?_⟩
  · obtain ⟨c, hc, hspace⟩ := List.mem_map.1 hmem
    exact (inWord_of_isNameChar (n.isNameChar w hw c hc)).2.1 hspace
  · rcases hu with rfl | rfl
    · exact (n.not_joining w hw).1
    · exact (n.not_joining w hw).2

/-- Words behind a space, or none. -/
theorem cons_spaced {words : List (List Char)} (hne : words ≠ []) (t : List Char) :
    ' ' :: (spaced words ++ t) = behind words ++ t := by
  cases words with
  | nil => exact absurd rfl hne
  | cons w words => rw [spaced_cons, behind_cons, List.cons_append]

/-- What stands before a name becomes `mark'` when a joining word is replaced. -/
def Becomes (u mark mark' : List Char) : Prop :=
  ∀ (n : BenchName) (t : List Char), Breaks t →
    commaFor (amidSpaces u) 0 (mark ++ (n.normal ++ t))
      = mark' ++ (n.normal ++ commaFor (amidSpaces u) 0 t)

theorem becomes_comma {u mark : List Char} (h : Becomes u mark mark) :
    Becomes u (',' :: mark) (',' :: mark) := by
  intro n t ht
  rw [List.cons_append, commaFor_cons (by decide), h n t ht, List.cons_append]

section Becomes

variable {u : List Char} (hu : IsJoining u)
include hu

/-- A name is kept, -/
theorem becomes_nil : Becomes u [] [] := by
  intro n t ht
  obtain ⟨words, hn, -, hwords⟩ := words_normal n
  rw [hn]
  exact commaFor_spaced hu.not_mem.1 hu.not_mem.2 (hwords u hu) ht

/-- and so is the space before it. -/
theorem becomes_space : Becomes u [' '] [' '] := by
  intro n t ht
  obtain ⟨words, hn, hne, hwords⟩ := words_normal n
  show commaFor _ 0 (' ' :: (n.normal ++ t)) = ' ' :: (n.normal ++ _)
  rw [hn, cons_spaced hne, commaFor_behind hu.not_mem.1 hu.not_mem.2 (hwords u hu) ht,
    ← cons_spaced hne]

/-- The joining word itself becomes a comma, -/
theorem becomes_self : Becomes u (amidSpaces u) [','] := by
  intro n t ht
  have hname := becomes_nil hu n t ht
  rw [List.nil_append, List.nil_append] at hname
  rw [commaFor_amidSpaces, hname]
  rfl

/-- and any other word is kept. -/
theorem becomes_other {v : List Char} (hspace : ' ' ∉ v) (hne : v ≠ u) :
    Becomes u (amidSpaces v) (amidSpaces v) := by
  intro n t ht
  obtain ⟨words, hn, hwne, hwords⟩ := words_normal n
  have hbehind : ∀ s : List Char,
      amidSpaces v ++ (spaced words ++ s) = behind (v :: words) ++ s := by
    intro s
    rw [behind_cons, List.cons_append, List.append_assoc, ← cons_spaced hwne, amidSpaces]
    simp
  have hpass : ∀ w ∈ v :: words, ' ' ∉ w ∧ w ≠ u :=
    List.forall_mem_cons.2 ⟨⟨hspace, hne⟩, hwords u hu⟩
  rw [hn, hbehind, hbehind, commaFor_behind hu.not_mem.1 hu.not_mem.2 hpass ht]

end Becomes

/-- Behind a name a list goes on with a mark, or not at all. -/
theorem breaks_flatMap {mark : Joint → List Char}
    (hbreaks : ∀ (j : Joint) (t : List Char), Breaks (mark j ++ t))
    (rest : List (Joint × BenchName)) :
    Breaks (rest.flatMap fun p => mark p.1 ++ p.2.normal) := by
  cases rest with
  | nil => exact breaks_nil
  | cons p rest =>
    rw [List.flatMap_cons, List.append_assoc]
    exact hbreaks p.1 _

/-- A joining word is replaced where it joins two names, and nowhere else in a list. -/
theorem commaFor_written {u : List Char} (hu : IsJoining u) (mark mark' : Joint → List Char)
    (hmark : ∀ j, Becomes u (mark j) (mark' j))
    (hbreaks : ∀ (j : Joint) (t : List Char), Breaks (mark j ++ t)) :
    commaFor (amidSpaces u) 0 (l.written mark BenchName.normal)
      = l.written mark' BenchName.normal := by
  have hafter := breaks_flatMap hbreaks
  have hrest : ∀ rest : List (Joint × BenchName),
      commaFor (amidSpaces u) 0 (rest.flatMap fun p => mark p.1 ++ p.2.normal)
        = rest.flatMap fun p => mark' p.1 ++ p.2.normal := by
    intro rest
    induction rest with
    | nil => rfl
    | cons p rest ih =>
      rw [List.flatMap_cons, List.flatMap_cons, List.append_assoc, hmark p.1 p.2 _ (hafter rest),
        ih, List.append_assoc]
  have hfirst := becomes_nil hu l.first _ (hafter l.rest)
  rw [List.nil_append, List.nil_append, hrest] at hfirst
  exact hfirst

/-- First "and" is replaced, -/
theorem commaFor_and :
    commaFor " and ".toList 0 l.normal = l.written markAnd BenchName.normal := by
  have hu : IsJoining "and".toList := .inl rfl
  refine l.commaFor_written hu Joint.text markAnd (fun j => ?_) Joint.breaks_text
  cases j with
  | comma => exact becomes_comma (becomes_space hu)
  | and => exact becomes_self hu
  | or => exact becomes_other hu (v := "or".toList) (by decide) (by decide)

/-- and then "or". -/
theorem commaFor_or :
    commaFor " or ".toList 0 (l.written markAnd BenchName.normal)
      = l.written markOr BenchName.normal := by
  have hu : IsJoining "or".toList := .inr rfl
  refine l.commaFor_written hu markAnd markOr (fun j => ?_) fun j t => ?_
  · cases j with
    | comma => exact becomes_comma (becomes_space hu)
    | and => exact becomes_comma (becomes_nil hu)
    | or => exact becomes_self hu
  · cases j with
    | comma | and => exact breaks_comma _
    | or => exact breaks_space _

/-- **A list is split into its names**, whatever joins them. -/
theorem nameList_normal : nameList l.normal = l.names.map BenchName.normal := by
  -- what is left before a name, behind the comma that it is cut off at
  let pad : Joint → List Char := fun j => if j = .comma then [' '] else []
  have hmark : ∀ j, markOr j = ',' :: pad j := by
    intro j
    cases j <;> rfl
  have hcomma : ∀ n : BenchName, ',' ∉ n.normal := fun n h =>
    absurd (n.admits_normal ',' h) (by decide)
  have hparts : ∀ q ∈ l.rest.map fun p => pad p.1 ++ p.2.normal, ',' ∉ q := by
    rw [List.forall_mem_map]
    intro p _ h
    rcases List.mem_append.1 h with h | h
    · revert h
      cases p.1 <;> decide
    · exact hcomma p.2 h
  have hwritten : l.written markOr BenchName.normal
      = l.first.normal ++ (l.rest.map fun p => pad p.1 ++ p.2.normal).flatMap (',' :: ·) := by
    rw [written, List.flatMap_map]
    congr 1
    refine List.flatMap_congr fun p _ => ?_
    rw [hmark, List.cons_append]
  have htrim : ∀ p : Joint × BenchName, Text.trim (pad p.1 ++ p.2.normal) = p.2.normal := by
    rintro ⟨j, n⟩
    have hn := trim_of_tidy n.normal_tidy
    cases j with
    | comma => exact hn
    | and | or => exact hn
  have hne : ∀ c ∈ l.names.map BenchName.normal, (decide (c ≠ [])) = true := by
    rw [List.forall_mem_map]
    exact fun n _ => decide_eq_true n.normal_ne_nil
  rw [nameList, commaFor_and, commaFor_or, hwritten, atCommas_append (hcomma l.first) _ hparts,
    List.map_cons, trim_of_tidy l.first.normal_tidy, List.map_map]
  have hmap : l.rest.map (Text.trim ∘ fun p => pad p.1 ++ p.2.normal)
      = (l.rest.map (·.2)).map BenchName.normal := by
    rw [List.map_map]
    exact List.map_congr_left fun p _ => htrim p
  rw [hmap, ← List.map_cons]
  exact List.filter_eq_self.2 hne

/-! ### The filter -/

/-- The filter of a list: its names. -/
def filter : NameFilter := ⟨l.names.map fun n => String.ofList n.normal⟩

/-- A list of names does not stand for Pokémon of any name when its first name does not. -/
theorem benchFilter_normal : benchFilter l.normal = some l.filter := by
  have hfirst : startsWith "pokemon" l.first.normal = false := l.first.not_pokemon
  have hpokemon : startsWith "pokemon" l.normal = false := by
    rw [startsWith, ← Bool.not_eq_true, List.isPrefixOf_iff_prefix] at hfirst ⊢
    exact fun h => hfirst (prefix_of_prefix_append (by decide) (by decide)
      (breaks_flatMap Joint.breaks_text l.rest) h)
  have hnormalize : ∀ n : BenchName, normalizeName n.normal = n.normal :=
    BenchName.normalizeName_normal
  rw [benchFilter, if_neg (by rw [hpokemon]; decide), nameList_normal, NameFilter.ofNames,
    List.map_map, filter]
  refine congrArg (fun names => some (NameFilter.mk names)) (List.map_congr_left fun n _ => ?_)
  rw [Function.comp_apply, hnormalize]

/-! ### The first comma -/

/-- The list as far as no comma stands in it. -/
def leading : NameList := ⟨l.first, l.rest.takeWhile fun p => p.1 ≠ .comma⟩

/-- The text behind the first comma, up to the full stop; none when there is no comma. -/
def tail : List Char :=
  match l.rest.dropWhile fun p => p.1 ≠ .comma with
  | [] => []
  | p :: rest => ' ' :: (p.2.normal ++ (rest.flatMap fun p => p.1.text ++ p.2.normal) ++ ['.'])

/-- What ends the list for its reader: the first comma, or the full stop. -/
def stop : Char := if l.rest.all fun p => p.1 ≠ .comma then '.' else ','

theorem stop_eq : l.stop = '.' ∨ l.stop = ',' := by
  unfold stop
  split
  · exact .inl rfl
  · exact .inr rfl

/-- A list with a full stop behind it is cut at its first comma. -/
theorem normal_append_dot : l.normal ++ ['.'] = l.leading.normal ++ l.stop :: l.tail := by
  have hrest : l.rest.takeWhile (fun p => p.1 ≠ .comma) ++ l.rest.dropWhile (fun p => p.1 ≠ .comma)
      = l.rest := List.takeWhile_append_dropWhile
  have hsplit : l.normal = l.leading.normal
      ++ (l.rest.dropWhile fun p => p.1 ≠ .comma).flatMap fun p => p.1.text ++ p.2.normal := by
    rw [normal, normal, written, written, leading, List.append_assoc, ← List.flatMap_append, hrest]
  rw [hsplit, List.append_assoc]
  congr 1
  unfold stop tail
  cases hdrop : l.rest.dropWhile fun p => p.1 ≠ .comma with
  | nil =>
    rw [List.dropWhile_eq_nil_iff] at hdrop
    rw [if_pos (List.all_eq_true.2 hdrop)]
    rfl
  | cons p rest =>
    -- what stopped the list is a comma
    have hcomma : p.1 = .comma := by
      have hhead := List.head?_dropWhile_not
        (fun p : Joint × BenchName => decide (p.1 ≠ .comma)) l.rest
      rw [hdrop] at hhead
      simpa using hhead
    have hmem : p ∈ l.rest := by
      rw [← hrest, hdrop]
      exact List.mem_append_right _ List.mem_cons_self
    have hall : (l.rest.all fun p => p.1 ≠ .comma) = false := by
      rw [← Bool.not_eq_true, List.all_eq_true]
      exact fun h => absurd hcomma (of_decide_eq_true (h p hmem))
    rw [hall, if_neg Bool.false_ne_true, List.flatMap_cons, hcomma]
    simp [Joint.text]

/-- Without a comma the list is read whole. -/
theorem leading_eq_self_iff : l.leading = l ↔ ∀ p ∈ l.rest, p.1 ≠ .comma := by
  have hall : l.leading = l ↔ l.rest.takeWhile (fun p => p.1 ≠ .comma) = l.rest := by
    constructor
    · exact fun h => congrArg NameList.rest h
    · intro h
      rw [leading, h]
  rw [hall, List.takeWhile_eq_self_iff]
  simp

theorem tail_eq_nil_iff : l.tail = [] ↔ ∀ p ∈ l.rest, p.1 ≠ .comma := by
  unfold tail
  split
  next hdrop =>
    rw [List.dropWhile_eq_nil_iff] at hdrop
    exact ⟨fun _ p hp => of_decide_eq_true (hdrop p hp), fun _ => rfl⟩
  next p rest hdrop =>
    refine ⟨fun h => by simp at h, fun h => ?_⟩
    have hnil : (l.rest.dropWhile fun p => p.1 ≠ .comma) = [] :=
      List.dropWhile_eq_nil_iff.2 fun p hp => decide_eq_true (h p hp)
    rw [hnil] at hdrop
    cases hdrop

/-- What is read up to the first comma has no comma in it. -/
theorem admits_leading : ∀ c ∈ l.leading.normal, CharSet.name.admits c = true := by
  have hmark : ∀ j : Joint, j ≠ .comma → j.text.all CharSet.name.admits = true := by
    intro j hj
    cases j with
    | comma => exact absurd rfl hj
    | and | or => decide
  intro c hc
  rw [normal, written, List.mem_append, List.mem_flatMap] at hc
  rcases hc with hc | ⟨p, hp, hc⟩
  · exact l.first.admits_normal c hc
  · rcases List.mem_append.1 hc with hc | hc
    · have hp : p ∈ l.rest.takeWhile fun p => p.1 ≠ .comma := hp
      have hne := List.mem_takeWhile_imp hp
      exact List.all_eq_true.1 (hmark p.1 (of_decide_eq_true hne)) c hc
    · exact p.2.admits_normal c hc

end NameList

end CardEffects.Clause
