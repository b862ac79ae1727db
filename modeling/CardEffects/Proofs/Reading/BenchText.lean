/-
  CardEffects.Proofs.Reading.BenchText

  The text of a bonus for each Pokémon on the bench whose name is given, and where rules are read in
  it.

    * `BenchName.sentence`, `BenchName.normalize_sentence` — the text for one name, and its normal
      form.
    * `read?_benchScaling`, `findAll_benchScaling` — the rule of the bonus reads such a text up to
      the mark behind the names.
    * `bars` — a check that a rule cannot begin anywhere in a text.
    * `findAll_of_ne` — any other rule finds something in the names only.
    * `accepted_map` — and no gate stands before any of that.
-/
import CardEffects.Proofs.Reading.Gate
import CardEffects.Proofs.Reading.Matches
import CardEffects.Proofs.Reading.Names
import CardEffects.Proofs.Reading.RoundTrip
import Mathlib.Data.List.Infix

namespace CardEffects.Clause

/-! ## The text of the bonus -/

/-- The words before the amount, in normal form. -/
def beforeAmount : List Char := "this attack does ".toList

/-- The words between the amount and the name, in normal form. -/
def beforeName : List Char :=
  " damage".toList ++ (" for each of ".toList ++ ("your".toList ++ " benched ".toList))

/-- The words for damage, or for more of it. -/
def damageWords (more : Bool) : List Char :=
  if more then " more damage".toList else " damage".toList

/-- The words between the amount and the names, in normal form. -/
def beforeNames (more : Bool) : List Char :=
  damageWords more ++ (" for each of ".toList ++ ("your".toList ++ " benched ".toList))

/-- What stands before the names in the normal form. -/
def opensWith (more : Bool) (k : Nat) : List Char :=
  beforeAmount ++ (Nat.toDigits 10 k ++ beforeNames more)

/-- The words between the amount and the names, as they are printed. -/
def printedWords (more : Bool) : List Char :=
  (if more then " more damage" else " damage").toList ++ " for each of your Benched ".toList

/-- The text of a bonus with the names in their normal form, the text before them likewise. -/
theorem normalize_printed (more : Bool) (k : Nat) {names : List Char}
    (htidy : gapAfter? true names = some false) :
    normalize ("This attack does ".toList ++ (Nat.toDigits 10 k ++ (printedWords more
        ++ (names ++ ".".toList))))
      = opensWith more k ++ (names.map normalChar ++ ['.']) := by
  have hwords : ∀ more, gapAfter? true "This attack does ".toList = some true
      ∧ gapAfter? false (printedWords more) = some true
      ∧ gapAfter? false ".".toList = some false := by decide +kernel
  have hall : gapAfter? true ("This attack does ".toList ++ (Nat.toDigits 10 k ++ (printedWords more
      ++ (names ++ ".".toList)))) = some false := by
    rw [gapAfter?_append, (hwords more).1, Option.bind_some, gapAfter?_append,
      gapAfter?_toDigits, Option.bind_some, gapAfter?_append, (hwords more).2.1, Option.bind_some,
      gapAfter?_append, htidy, Option.bind_some, (hwords more).2.2]
  have hfolded : ∀ more, "This attack does ".toList.map normalChar = beforeAmount
      ∧ (printedWords more).map normalChar = beforeNames more
      ∧ ".".toList.map normalChar = ['.'] := by decide +kernel
  rw [normalize_of_tidy hall, List.map_append, List.map_append, List.map_append,
    List.map_append, map_normalChar_toDigits, (hfolded more).1, (hfolded more).2.1,
    (hfolded more).2.2, opensWith]
  simp only [List.append_assoc]

namespace BenchName

variable (name : BenchName) (k : Word)

/-- The text of a bonus for each Pokémon of a name on the bench. -/
def sentence : String :=
  "This attack does " ++ k.text ++ " damage for each of your Benched " ++ name.text ++ "."

/-- What stands before the name in the normal form. -/
def preamble : List Char := beforeAmount ++ (Nat.toDigits 10 k.toNat ++ beforeName)

theorem preamble_eq : preamble k = opensWith false k.toNat := rfl

theorem toList_sentence :
    (name.sentence k).toList
      = "This attack does ".toList ++ (Nat.toDigits 10 k.toNat ++ (printedWords false
        ++ (name.chars ++ ".".toList))) := by
  have hwords : " damage for each of your Benched ".toList = printedWords false := by decide +kernel
  unfold sentence
  rw [String.toList_append, String.toList_append, String.toList_append, String.toList_append,
    Sentence.toList_number, toList_text, hwords]
  simp only [List.append_assoc]

theorem normalize_sentence :
    normalize (name.sentence k).toList = preamble k ++ (name.normal ++ ['.']) := by
  rw [toList_sentence, normalize_printed false k.toNat name.chars_tidy, preamble_eq, normal]

end BenchName

/-! ## The rule of the bonus -/

/-- The names run up to the first mark behind them. -/
theorem read?_names {names : List Char} (hne : names ≠ [])
    (hnames : ∀ c ∈ names, CharSet.name.admits c = true) {stop : Char}
    (hstop : stop = '.' ∨ stop = ',') (rest : List Char) :
    read? (.both (.slot .names (.run .name 1)) (.either (Phrase.words [".", ","]) .atEnd))
        (names ++ stop :: rest)
      = some ⟨names ++ [stop], [(.names, names)], rest⟩ := by
  -- neither mark is admitted in a name, so the run is not cut short inside it
  have hopen : ∀ c ∈ names, ∀ cs,
      readThen (.either (Phrase.words [".", ","]) .atEnd) some (c :: cs) = none := by
    intro c hc cs
    have hadmits := hnames c hc
    have hdot : c ≠ '.' := by
      rintro rfl
      exact absurd hadmits (by decide)
    have hcomma : c ≠ ',' := by
      rintro rfl
      exact absurd hadmits (by decide)
    have hstop : opens (.either (Phrase.words [".", ","]) .atEnd) c = false := by
      show (('.' == c) || ((',' == c) || false) || false) = false
      simp [hdot.symm, hcomma.symm]
    rw [readThen_eq, ways_eq_nil_of_not_opens hstop]
    rfl
  have hend : readThen (.either (Phrase.words [".", ","]) .atEnd) some (stop :: rest)
      = some (⟨[stop], [], rest⟩, rest) := by
    rcases hstop with rfl | rfl <;> rfl
  have hleast : 1 ≤ names.length := List.length_pos_iff.2 hne
  have hrun := runThen_append hnames hopen hend hleast []
  rw [read?, readThen, readThen, readThen, hrun]
  rfl

/-- The amount is a number in front of a space, so all its digits are read. -/
theorem ways_amount {ds : List Char} (hne : ds ≠ [])
    (hds : ∀ c ∈ ds, c.isDigit = true) (more : Bool) (rest : List Char) :
    ways Phrase.amount (ds ++ (damageWords more ++ rest))
      = [⟨ds, [(.amount, ds)], damageWords more ++ rest⟩] := by
  have hspace : ∀ c ∈ (damageWords more ++ rest).head?, c.isDigit = false := by
    cases more <;> (rintro c ⟨⟩; decide)
  rw [Phrase.amount, ways, ways_digits hne hds hspace]
  rfl

theorem ways_moreDamage (more : Bool) (rest : List Char) :
    ways Phrase.moreDamage (damageWords more ++ rest) = [⟨damageWords more, [], rest⟩] := by
  cases more <;> rfl

/-- The side is the own one, as the bench is no opponent's. -/
theorem ways_your (rest : List Char) :
    ways (.slot .target (Phrase.words ["your", "your opponent's"]))
        ("your".toList ++ (" benched ".toList ++ rest))
      = [⟨"your".toList, [(.target, "your".toList)], " benched ".toList ++ rest⟩] := rfl

/-- The bonus is read from its first word to the mark behind the names. -/
theorem read?_benchScaling {ds names : List Char} (hds : ds ≠ [])
    (hdigits : ∀ c ∈ ds, c.isDigit = true) (more : Bool) (hne : names ≠ [])
    (hnames : ∀ c ∈ names, CharSet.name.admits c = true) {stop : Char}
    (hstop : stop = '.' ∨ stop = ',') (rest : List Char) :
    read? RuleName.benchScaling.phrase
        (beforeAmount ++ (ds ++ (beforeNames more ++ (names ++ stop :: rest))))
      = some ⟨beforeAmount ++ (ds ++ (beforeNames more ++ (names ++ [stop]))),
          [(.amount, ds), (.target, "your".toList), (.names, names)], rest⟩ := by
  -- part by part from the last one on, each but the names with a single reading
  have hend := read?_names hne hnames hstop rest
  have hbenched := read?_both_of_ways (ways_word " benched " _) hend
  have htarget := read?_both_of_ways (ways_your _) hbenched
  have heach := read?_both_of_ways (ways_word " for each of " _) htarget
  have hdamage := read?_both_of_ways (ways_moreDamage more _) heach
  have hamount := read?_both_of_ways (ways_amount hds hdigits more _) hdamage
  have hall := read?_both_of_ways (ways_word "this attack does " _) hamount
  unfold beforeAmount beforeNames
  simp only [List.append_assoc]
  exact hall

section Names

variable (more : Bool) (k : Nat)

/-- The bonus is found once, and then whatever its rule finds behind the names. -/
theorem findAll_benchScaling {names : List Char} (hne : names ≠ [])
    (hnames : ∀ c ∈ names, CharSet.name.admits c = true) {stop : Char}
    (hstop : stop = '.' ∨ stop = ',') (rest : List Char) :
    findAll RuleName.benchScaling.phrase (opensWith more k ++ (names ++ stop :: rest))
      = ⟨[], opensWith more k ++ (names ++ [stop]),
          [(.amount, Nat.toDigits 10 k), (.target, "your".toList), (.names, names)], rest⟩
        :: (findAll RuleName.benchScaling.phrase rest).map fun f =>
          { f with before := f.before ++ (opensWith more k ++ (names ++ [stop])).reverse } := by
  have hread := read?_benchScaling Nat.toDigits_ne_nil
    (fun c (hc : c ∈ Nat.toDigits 10 k) => Nat.isDigit_of_mem_toDigits (by decide) (by decide) hc)
    more hne hnames hstop rest
  have htext : ∀ back : List Char, beforeAmount ++ (Nat.toDigits 10 k ++ (beforeNames more ++ back))
      = opensWith more k ++ back := by
    intro back
    rw [opensWith, List.append_assoc, List.append_assoc]
  have hcut : names ++ stop :: rest = names ++ [stop] ++ rest := by simp
  rw [htext, htext, hcut, ← List.append_assoc] at hread
  rw [hcut, ← List.append_assoc, findAll_of_read? (by simp) hread]

/-- It is for the given amount, and the names given. -/
theorem build_benchScaling (names taken after : List Char) (before : List Char) :
    RuleName.benchScaling.build ⟨before, taken, [(.amount, Nat.toDigits 10 k),
        (.target, "your".toList), (.names, names)], after⟩
      = some (.benchScalingDamage ((Word.ofNat? k).getD 0) .own (benchFilter names)) := by
  have hside : side (some "your".toList) = .own := by decide
  show some (Effect.benchScalingDamage (number (some (Nat.toDigits 10 k)))
    (side (some "your".toList)) (benchFilter names)) = _
  rw [number_decimal, hside]

end Names

/-! ## The other rules -/

/-- A text that a rule is read off begins with one of the words of the rule. -/
theorem exists_spelled_lead {r : RuleName} {cs : List Char} {w : Way}
    (h : w ∈ ways r.phrase cs) : ∃ l ∈ leads r.spelled.val, l <+: cs := by
  obtain ⟨l, hl, hlead⟩ := exists_lead h
  rw [r.spelled.property] at hl
  exact ⟨l, hl, hlead.trans ⟨w.rest, taken_append_rest h⟩⟩

/-- Whether no reading of a rule can begin in a text, whatever goes on behind it: at no place
does the text agree with one of the words that the rule begins with. -/
def bars (front : List Char) (r : RuleName) : Bool :=
  front.tails.all fun s =>
    s.isEmpty || (leads r.spelled.val).all fun l => !(l.isPrefixOf s || s.isPrefixOf l)

theorem ways_of_bars {front : List Char} {r : RuleName} (h : bars front r = true)
    (rest : List Char) : ∀ s, s <:+ front → s ≠ [] → ways r.phrase (s ++ rest) = [] := by
  intro s hs hne
  rw [List.eq_nil_iff_forall_not_mem]
  intro w hw
  -- the word of the rule and what is left of the front both begin the same text
  obtain ⟨l, hl, hstart⟩ := exists_spelled_lead hw
  have hagree : l <+: s ∨ s <+: l :=
    List.prefix_or_prefix_of_prefix hstart (List.prefix_append s rest)
  have hnone := List.all_eq_true.1 h s ((List.mem_tails s front).2 hs)
  rw [Bool.or_eq_true, List.isEmpty_iff] at hnone
  have hclash := List.all_eq_true.1 (hnone.resolve_left hne) l hl
  rw [Bool.not_eq_true', Bool.or_eq_false_iff, ← Bool.not_eq_true, ← Bool.not_eq_true,
    List.isPrefixOf_iff_prefix, List.isPrefixOf_iff_prefix] at hclash
  exact hagree.elim hclash.1 hclash.2

/-- What a rule begins with stands neither inside the words before the amount nor in those before
the names. -/
theorem bars_words (r : RuleName) (more : Bool) :
    bars beforeAmount.tail r = true ∧ bars (beforeNames more) r = true := by
  revert r more
  decide +kernel

/-- Only three rules begin with the words before the amount. -/
theorem bars_beforeAmount (r : RuleName) :
    r ∈ [RuleName.damageBonus, .energyScaling, .benchScaling] ∨ bars beforeAmount r = true := by
  revert r
  decide +kernel

section Others

variable {ds : List Char} (hne : ds ≠ []) (hdigits : ∀ c ∈ ds, c.isDigit = true)
  (more : Bool) (rest : List Char)
include hne hdigits

/-- A flat bonus is for "more damage", and there it ends. -/
theorem ways_damageBonus :
    ways RuleName.damageBonus.phrase (beforeAmount ++ (ds ++ (beforeNames more ++ rest))) = [] := by
  have hmore (rest : List Char) :
      ways (.both (Phrase.word " more damage") (.either (Phrase.word ".") .atEnd))
        (damageWords more ++ (" for each of ".toList ++ rest)) = [] := by
    cases more <;> rfl
  have hphrase : RuleName.damageBonus.phrase
      = .both (Phrase.word "this attack does ") (.both Phrase.amount
        (.both (Phrase.word " more damage") (.either (Phrase.word ".") .atEnd))) := rfl
  unfold beforeAmount beforeNames
  simp only [List.append_assoc]
  rw [hphrase, ways_both_of_ways (ways_word _ _),
    ways_both_of_ways (ways_amount hne hdigits more _), hmore]
  rfl

/-- A bonus for energy is for each energy, and not for each of something. -/
theorem ways_energyScaling :
    ways RuleName.energyScaling.phrase (beforeAmount ++ (ds ++ (beforeNames more ++ rest)))
      = [] := by
  have heach (rest : List Char) :
      ways (Phrase.word " for each ") (" for each of ".toList ++ rest)
        = [⟨" for each ".toList, [], "of ".toList ++ rest⟩] := rfl
  have hany (rest : List Char) :
      ways Phrase.someEnergy ("of ".toList ++ rest) = [⟨[], [], "of ".toList ++ rest⟩] := rfl
  have henergy (rest : List Char) :
      ways (Phrase.word "energy attached to ") ("of ".toList ++ rest) = [] := rfl
  have hphrase : RuleName.energyScaling.phrase
      = .both (Phrase.word "this attack does ") (.both Phrase.amount
        (.both Phrase.moreDamage (.both (Phrase.word " for each ")
          (.both Phrase.someEnergy
            (.both (Phrase.word "energy attached to ") Phrase.holder))))) := rfl
  unfold beforeAmount beforeNames
  simp only [List.append_assoc]
  rw [hphrase, ways_both_of_ways (ways_word _ _),
    ways_both_of_ways (ways_amount hne hdigits more _), ways_both_of_ways (ways_moreDamage more _),
    ways_both_of_ways (heach _), ways_both_of_ways (hany _), ways_both_of_nil (henergy _)]
  rfl

/-- Any other rule cannot be read at the words before the amount. -/
theorem ways_beforeAmount {r : RuleName} (hr : r ≠ .benchScaling) :
    ∀ s, s <:+ beforeAmount → s ≠ [] →
      ways r.phrase (s ++ (ds ++ (beforeNames more ++ rest))) = [] := by
  intro s hs hsne
  rcases bars_beforeAmount r with hthree | hbars
  · -- these begin as the bonus does, so the text further on decides
    have hcons : beforeAmount = 't' :: beforeAmount.tail := by decide +kernel
    rw [hcons, List.suffix_cons_iff, ← hcons] at hs
    rcases hs with rfl | hs
    · simp only [List.mem_cons, List.not_mem_nil, or_false] at hthree
      rcases hthree with rfl | rfl | rfl
      · exact ways_damageBonus hne hdigits more rest
      · exact ways_energyScaling hne hdigits more rest
      · exact absurd rfl hr
    · exact ways_of_bars (bars_words r more).1 _ s hs hsne
  · exact ways_of_bars hbars _ s hs hsne

end Others

/-- No rule begins with a digit. -/
theorem not_opens_digit (r : RuleName) {d : Char} (hd : d.isDigit = true) :
    opens r.phrase d = false := by
  have hnone : digits.all (fun d => (openers d).isEmpty) = true := by decide +kernel
  have hempty := List.all_eq_true.1 hnone d (mem_digits hd)
  rw [List.isEmpty_iff] at hempty
  rw [← Bool.not_eq_true, ← mem_openers, hempty]
  exact List.not_mem_nil

/-- Any other rule finds something in the names only. -/
theorem findAll_of_ne {r : RuleName} (hr : r ≠ .benchScaling) (more : Bool) (k : Nat)
    (rest : List Char) :
    findAll r.phrase (opensWith more k ++ rest)
      = (findAll r.phrase rest).map fun f =>
          { f with before := f.before ++ (opensWith more k).reverse } := by
  have hdigits : ∀ c ∈ Nat.toDigits 10 k, c.isDigit = true :=
    fun c hc => Nat.isDigit_of_mem_toDigits (by decide) (by decide) hc
  have hamount (behind : List Char) : ∀ s, s <:+ Nat.toDigits 10 k → s ≠ [] →
      ways r.phrase (s ++ behind) = [] := by
    intro s hs hsne
    cases s with
    | nil => exact absurd rfl hsne
    | cons d s =>
      exact ways_eq_nil_of_not_opens (not_opens_digit r (hdigits d (hs.mem List.mem_cons_self)))
  -- the search goes past the first words, the amount and the words before the names in turn
  rw [opensWith, List.append_assoc, List.append_assoc, findAll,
    findFrom_append (ways_beforeAmount Nat.toDigits_ne_nil hdigits more rest hr),
    findFrom_append (hamount _), findFrom_append (ways_of_bars (bars_words r more).2 rest),
    findFrom_eq_map]
  simp only [findAll, List.append_nil, List.reverse_append, List.append_assoc]

/-! ## Gates -/

/-- Nothing is gated in a text of one sentence that begins with neither a coin flip nor an "if". -/
theorem isGated_of_prefix {body passed : List Char} (hdot : '.' ∉ body)
    (h : passed <+: 't' :: body ++ ['.']) : isGated passed.reverse = false := by
  rcases List.prefix_concat_iff.1 h with rfl | hpassed
  · -- behind the full stop a new sentence begins
    rw [List.reverse_append, List.reverse_singleton, List.singleton_append, isGated,
      sentenceBefore, List.takeWhile_cons_of_neg (by decide)]
    decide
  · have hpdot : '.' ∉ passed := by
      intro hmem
      rcases List.mem_cons.1 (hpassed.mem hmem) with hmem | hmem
      · exact absurd hmem (by decide)
      · exact hdot hmem
    rw [isGated, sentenceBefore_of_not_mem hpdot]
    cases passed with
    | nil => decide
    | cons c passed =>
      obtain rfl := (List.cons_prefix_cons.1 hpassed).1
      rfl

/-- So in the text of a bonus every match counts. -/
theorem accepted_map (r : RuleName) (more : Bool) (k : Nat) {names : List Char}
    (hdot : '.' ∉ names) :
    (Reading.accepted r (opensWith more k ++ (names ++ ['.']))).map (·.2)
      = (findAll r.phrase (opensWith more k ++ (names ++ ['.']))).filterMap r.build := by
  have hbody : opensWith more k ++ names
      = 't' :: (beforeAmount.tail ++ (Nat.toDigits 10 k ++ beforeNames more) ++ names) := by
    have hcons : beforeAmount = 't' :: beforeAmount.tail := by decide +kernel
    rw [opensWith, hcons]
    rfl
  have hnone : '.' ∉ beforeAmount.tail ++ (Nat.toDigits 10 k ++ beforeNames more) ++ names := by
    have hwords : ∀ more, '.' ∉ beforeAmount.tail ∧ '.' ∉ beforeNames more := by decide +kernel
    have hdigits : '.' ∉ Nat.toDigits 10 k := fun h =>
      absurd (Nat.isDigit_of_mem_toDigits (by decide) (by decide) h) (by decide)
    simp only [List.mem_append, not_or]
    exact ⟨⟨(hwords more).1, hdigits, (hwords more).2⟩, hdot⟩
  have hadmits : ∀ f ∈ findAll r.phrase (opensWith more k ++ (names ++ ['.'])),
      Reading.admits r f = true := by
    intro f hf
    have hplace := (of_mem_findAll hf).text
    have hpassed : f.before.reverse <+: opensWith more k ++ (names ++ ['.']) := ⟨_, hplace⟩
    rw [← List.append_assoc, hbody] at hpassed
    have hopen := isGated_of_prefix hnone hpassed
    rw [List.reverse_reverse] at hopen
    unfold Reading.admits
    split
    · rfl
    · rw [hopen]
      rfl
  rw [Reading.accepted, List.filter_eq_self.2 hadmits, List.map_filterMap]
  refine List.filterMap_congr fun f _ => ?_
  cases r.build f <;> rfl

end CardEffects.Clause
