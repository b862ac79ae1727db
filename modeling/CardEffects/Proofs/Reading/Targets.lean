/-
  CardEffects.Proofs.Reading.Targets

  Whom a clause is for when its target may be missing.  The rules for healing and for attaching
  any energy read a target if they know its words, and otherwise leave it unread; then the effect
  is for the acting Pokémon, although the text may go on with a target of its own.  In the same
  way a bonus for the bench counts all of it once the names begin with "pokemon".

    * `healedBehind`, `attachedBehind` — the target by the text behind the clause.
    * `find?_known` — a text goes on with one known target at most.
    * `heal_of_read`, `coinHeal_of_read`, `attach_of_read`, `bench_of_read` — what the rules read,
      part by part.
    * `Reading.aimed_of_accepted` — what they make of every accepted match.
-/
import CardEffects.Proofs.Reading.Matches

namespace CardEffects.Clause

/-! ## Numbers and energy -/

/-- A row of digits, at least one. -/
def IsNumber (ds : List Char) : Prop := ds ≠ [] ∧ ∀ c ∈ ds, c.isDigit = true

theorem isNumber_of_mem_ways {cs : List Char} {a : Way} (h : a ∈ ways Phrase.amount cs) :
    IsNumber a.taken := by
  obtain ⟨b, hb, rfl⟩ := mem_ways_slot h
  obtain ⟨hne, hdigits, -⟩ := mem_ways_digits hb
  exact ⟨hne, hdigits⟩

/-- An energy that may be missing: nothing, or its token and a space. -/
theorem someEnergy_cases {cs : List Char} {a : Way} (h : a ∈ ways Phrase.someEnergy cs) :
    a.filled = [] ∧ a.taken = []
      ∨ ∃ token, a.filled = [(.energy, token)] ∧ a.taken = token ++ " ".toList := by
  rcases mem_ways_optional h with h | rfl
  · obtain ⟨b, hb, c, hc, rfl⟩ := mem_ways_both h
    obtain ⟨hctaken, hcfilled, -⟩ := mem_ways_word hc
    refine .inr ⟨b.taken, ?_, ?_⟩
    · show b.filled ++ c.filled = _
      rw [filled_slot hb rfl, hcfilled, List.append_nil]
    · show b.taken ++ c.taken = _
      rw [hctaken]
  · exact .inl ⟨rfl, rfl⟩

/-! ## A target behind a clause -/

/-- The target behind a clause, which may be missing: a word, then one of the known targets. -/
def targetBehind (u : String) (known : List String) : Phrase :=
  .optional (.both (Phrase.word u) (.slot .target (Phrase.words known)))

/-- Reading a target never fails; the slot holds the known target that the text goes on with. -/
theorem exists_read?_targetBehind (u : String) (known : List String) (cs : List Char) :
    ∃ t, read? (targetBehind u known) cs = some t
      ∧ t.filled.lookup .target
        = (afterWord? u.toList cs).bind fun rest =>
            (known.map String.toList).find? fun w => w.isPrefixOf rest := by
  refine ⟨_, read?_optional _ cs, ?_⟩
  rw [Phrase.word, Phrase.words, read?_word_both]
  cases afterWord? u.toList cs with
  | none => rfl
  | some rest =>
    rw [Option.bind_some, Option.bind_some, read?_slot, ← read?_wordOf]
    cases read? (.wordOf (known.map String.toList)) rest <;> rfl

/-- Words of which none starts with another. -/
def Apart (known : List String) : Prop :=
  known.Pairwise fun u v => ¬ u.toList <+: v.toList ∧ ¬ v.toList <+: u.toList

instance (known : List String) : Decidable (Apart known) :=
  inferInstanceAs (Decidable (List.Pairwise _ known))

/-- A text starts with one of several words that are apart, and then it is the one found, or with
none of them. -/
theorem find?_known {known : List String} (h : Apart known) (cs : List Char) :
    (∃ w ∈ known, ((known.map String.toList).find? fun w => w.isPrefixOf cs) = some w.toList
        ∧ ∀ v ∈ known, startsWith v cs = decide (v = w))
      ∨ ((known.map String.toList).find? fun w => w.isPrefixOf cs) = none
        ∧ ∀ v ∈ known, startsWith v cs = false := by
  induction known with
  | nil => exact .inr ⟨rfl, List.forall_mem_nil _⟩
  | cons u known ih =>
    obtain ⟨hu, hknown⟩ := List.pairwise_cons.1 h
    rw [List.map_cons, List.find?_cons]
    cases hstart : startsWith u cs with
    | true =>
      -- found first, and no other is there
      rw [show u.toList.isPrefixOf cs = true from hstart]
      refine .inl ⟨u, List.mem_cons_self, rfl, fun v hv => ?_⟩
      rcases List.mem_cons.1 hv with rfl | hmem
      · rw [hstart, decide_eq_true rfl]
      · have hne : v ≠ u := by
          rintro rfl
          exact (hu v hmem).1 List.prefix_rfl
        have hnone : startsWith v cs = false := by
          rw [← Bool.not_eq_true]
          rw [startsWith, List.isPrefixOf_iff_prefix] at hstart ⊢
          exact fun hboth =>
            (List.prefix_or_prefix_of_prefix hstart hboth).elim (hu v hmem).1 (hu v hmem).2
        rw [hnone, decide_eq_false hne]
    | false =>
      -- not there, so it is none of the others that might be found
      rw [show u.toList.isPrefixOf cs = false from hstart]
      refine (ih hknown).imp ?_ ?_
      · rintro ⟨w, hw, hfind, hothers⟩
        refine ⟨w, List.mem_cons_of_mem u hw, hfind, fun v hv => ?_⟩
        rcases List.mem_cons.1 hv with rfl | hv
        · have hne : v ≠ w := by
            rintro rfl
            rw [hothers v hw, decide_eq_true rfl] at hstart
            cases hstart
          rw [hstart, decide_eq_false hne]
        · exact hothers v hv
      · rintro ⟨hfind, hothers⟩
        exact ⟨hfind, List.forall_mem_cons.2 ⟨hstart, hothers⟩⟩

/-- Who is healed, by the text behind "heal ... damage": all of the own side or one of it when the
text goes on so, and in every other case the acting Pokémon. -/
def healedBehind (rest : List Char) : HealTarget :=
  match afterWord? " from ".toList rest with
  | none => .this
  | some who =>
    if startsWith "each of your pokemon" who then .eachOwn
    else if startsWith "1 of your pokemon" who then .anyOwn
    else .this

/-- The words for a target that the rules for healing know. -/
def knownPatients : List String :=
  ["this pokemon", "each of your pokemon", "1 of your pokemon", "your active pokemon"]

/-- The target that is found tells as much as the text. -/
theorem healTarget_find (rest : List Char) :
    healTarget ((afterWord? " from ".toList rest).bind fun who =>
        (knownPatients.map String.toList).find? fun w => w.isPrefixOf who)
      = healedBehind rest := by
  unfold healedBehind
  cases afterWord? " from ".toList rest with
  | none => rfl
  | some who =>
    rw [Option.bind_some]
    rcases find?_known (by decide : Apart knownPatients) who
      with ⟨w, hw, hfind, hstart⟩ | ⟨hfind, hstart⟩
    · rw [hfind]
      simp only [hstart "each of your pokemon" (by decide), hstart "1 of your pokemon" (by decide)]
      clear hfind hstart
      revert w
      decide
    · rw [hfind]
      simp only [hstart "each of your pokemon" (by decide), hstart "1 of your pokemon" (by decide)]
      decide

/-- The words for a target that the rule for attaching knows. -/
def knownPlaces : List String :=
  ["this pokemon", "your active pokemon", "your benched pokemon", "1 of your benched pokemon",
    "1 of your pokemon"]

/-- The text behind "from your energy zone", which may be missing. -/
def behindZone (rest : List Char) : List Char :=
  (afterWord? " from your energy zone".toList rest).getD rest

/-- Where energy goes, by the text behind "attach ... energy" and the zone: to the bench or to one
of the own side when the text goes on so, and in every other case to the acting Pokémon. -/
def attachedBehind (rest : List Char) : EnergyTarget :=
  match afterWord? " to ".toList rest with
  | none => .this
  | some place =>
    if startsWith "your benched pokemon" place || startsWith "1 of your benched pokemon" place then
      .bench
    else if startsWith "1 of your pokemon" place then .anyOwn
    else .this

theorem energyTarget_find (rest : List Char) :
    energyTarget ((afterWord? " to ".toList rest).bind fun place =>
        (knownPlaces.map String.toList).find? fun w => w.isPrefixOf place)
      = attachedBehind rest := by
  unfold attachedBehind
  cases afterWord? " to ".toList rest with
  | none => rfl
  | some place =>
    rw [Option.bind_some]
    rcases find?_known (by decide : Apart knownPlaces) place
      with ⟨w, hw, hfind, hstart⟩ | ⟨hfind, hstart⟩
    · rw [hfind]
      simp only [hstart "your benched pokemon" (by decide),
        hstart "1 of your benched pokemon" (by decide), hstart "1 of your pokemon" (by decide)]
      clear hfind hstart
      revert w
      decide
    · rw [hfind]
      simp only [hstart "your benched pokemon" (by decide),
        hstart "1 of your benched pokemon" (by decide), hstart "1 of your pokemon" (by decide)]
      decide

/-! ## What the rules read -/

/-- The target of a match for healing may be missing, so reading goes on to the end; it is the text
behind "heal ... damage" that tells who is healed. -/
theorem heal_of_read {f : Found} {n : List Char} (h : f.Of RuleName.heal.phrase n) :
    ∃ ds rest, IsNumber ds
      ∧ f.taken ++ f.after = "heal ".toList ++ ds ++ " damage".toList ++ rest
      ∧ f.get? .amount = some ds ∧ healTarget (f.get? .target) = healedBehind rest := by
  have hread : read? (.both (Phrase.word "heal ") (.both Phrase.amount
      (.both (Phrase.word " damage") (targetBehind " from " knownPatients))))
      (f.taken ++ f.after) = some ⟨f.taken, f.filled, f.after⟩ := h.read
  -- "heal ", the number, " damage" and the target, one after the other
  obtain ⟨a, ha, v, hv, hw⟩ := exists_of_read?_both hread
  obtain ⟨b, hb, u, hu, rfl⟩ := exists_of_read?_both hv
  obtain ⟨c, hc, t, ht, rfl⟩ := exists_of_read?_both hu
  obtain ⟨-, hafilled, hacut⟩ := mem_ways_word ha
  obtain ⟨-, hcfilled, hccut⟩ := mem_ways_word hc
  have hbcut := taken_append_rest hb
  obtain ⟨t', ht', htarget⟩ := exists_read?_targetBehind " from " knownPatients c.rest
  obtain rfl := Option.some.inj (ht.symm.trans ht')
  have hfilled : f.filled = (.amount, b.taken) :: t.filled := by
    have hall := congrArg Way.filled hw
    simpa [hafilled, filled_slot hb rfl, hcfilled] using hall
  refine ⟨b.taken, c.rest, isNumber_of_mem_ways hb, ?_, ?_, ?_⟩
  · rw [← hacut, ← hbcut, ← hccut, List.append_assoc, List.append_assoc]
  · rw [Found.get?, hfilled]
    rfl
  · rw [← healTarget_find, ← htarget, Found.get?, hfilled]
    rfl

/-- With a coin no target is read at all: the match ends with "damage". -/
theorem coinHeal_of_read {f : Found} {n : List Char} (h : f.Of RuleName.coinHeal.phrase n) :
    ∃ front ds, IsNumber ds
      ∧ f.taken = front ++ "heal ".toList ++ ds ++ " damage".toList
      ∧ f.get? .amount = some ds := by
  have hread : read? (.both (Phrase.word "flip ") (.both Phrase.coinCount (.both Phrase.allHeads
      (.both (Phrase.word "heal ") (.both Phrase.amount (Phrase.word " damage"))))))
      (f.taken ++ f.after) = some ⟨f.taken, f.filled, f.after⟩ := h.read
  obtain ⟨a, ha, v₁, hv₁, hw⟩ := exists_of_read?_both hread
  obtain ⟨b, hb, v₂, hv₂, rfl⟩ := exists_of_read?_both hv₁
  obtain ⟨c, hc, v₃, hv₃, rfl⟩ := exists_of_read?_both hv₂
  obtain ⟨d, hd, v₄, hv₄, rfl⟩ := exists_of_read?_both hv₃
  obtain ⟨e, he, g, hg, rfl⟩ := exists_of_read?_both hv₄
  obtain ⟨-, hafilled, -⟩ := mem_ways_word ha
  obtain ⟨hdtaken, hdfilled, -⟩ := mem_ways_word hd
  obtain ⟨hgtaken, hgfilled, -⟩ := mem_ways_word (mem_ways_of_read? hg)
  have hfilled : f.filled = [(.count, b.taken), (.amount, e.taken)] := by
    have hall := congrArg Way.filled hw
    simpa [hafilled, filled_slot hb rfl, filled_eq_nil hc rfl, hdfilled, filled_slot he rfl,
      hgfilled] using hall
  refine ⟨a.taken ++ b.taken ++ c.taken, e.taken, isNumber_of_mem_ways he, ?_, ?_⟩
  · have hall := congrArg Way.taken hw
    rw [← hdtaken, ← hgtaken]
    simpa using hall
  · rw [Found.get?, hfilled]
    rfl

/-- The zone is read when it is there, and the target behind it. -/
theorem exists_read?_zone (cs : List Char) :
    ∃ t, read? (.both (.optional (Phrase.word " from your energy zone"))
        (targetBehind " to " knownPlaces)) cs = some t
      ∧ energyTarget (t.filled.lookup .target) = attachedBehind (behindZone cs)
      ∧ t.filled.lookup .energy = none := by
  have htotal : ∀ cs, (read? (targetBehind " to " knownPlaces) cs).isSome = true := by
    intro cs
    obtain ⟨t, ht, -⟩ := exists_read?_targetBehind " to " knownPlaces cs
    rw [ht]
    rfl
  obtain ⟨t, ht, htarget⟩ := exists_read?_targetBehind " to " knownPlaces (behindZone cs)
  have henergy : t.filled.lookup .energy = none :=
    lookup_eq_none (mem_ways_of_read? ht) (by decide)
  obtain ⟨z, hz, hzfilled, hzrest⟩ : ∃ z,
      read? (.optional (Phrase.word " from your energy zone")) cs = some z
        ∧ z.filled = [] ∧ z.rest = behindZone cs := by
    refine ⟨_, read?_optional _ cs, ?_⟩
    rw [Phrase.word, read?_word, behindZone]
    cases afterWord? " from your energy zone".toList cs <;> exact ⟨rfl, rfl⟩
  rw [read?_both_of_total htotal, hz, Option.bind_some, hzrest, ht, Option.map_some]
  refine ⟨_, rfl, ?_, ?_⟩
  · rw [hzfilled, List.nil_append, htarget, energyTarget_find]
  · rw [hzfilled, List.nil_append, henergy]

/-- The number, an energy that may be missing, and then the zone and the target, which may be
missing too. -/
theorem attach_of_read {f : Found} {n : List Char}
    (h : f.Of RuleName.energyAttachGeneric.phrase n) :
    ∃ count token rest,
      f.taken ++ f.after
          = "attach ".toList ++ count ++ " ".toList ++ token ++ "energy".toList ++ rest
      ∧ f.get? .count = some count
      ∧ (f.get? .energy = none ∧ token = []
          ∨ ∃ name, f.get? .energy = some name ∧ token = name ++ " ".toList)
      ∧ energyTarget (f.get? .target) = attachedBehind (behindZone rest) := by
  have hread : read? (.both (Phrase.word "attach ")
      (.both (.slot .count (.either (Phrase.words ["a", "an"]) (Phrase.numberOr ["one", "two"])))
        (.both (Phrase.word " ") (.both Phrase.someEnergy (.both (Phrase.word "energy")
          (.both (.optional (Phrase.word " from your energy zone"))
            (targetBehind " to " knownPlaces)))))))
      (f.taken ++ f.after) = some ⟨f.taken, f.filled, f.after⟩ := h.read
  obtain ⟨a, ha, v₁, hv₁, hw⟩ := exists_of_read?_both hread
  obtain ⟨b, hb, v₂, hv₂, rfl⟩ := exists_of_read?_both hv₁
  obtain ⟨c, hc, v₃, hv₃, rfl⟩ := exists_of_read?_both hv₂
  obtain ⟨d, hd, v₄, hv₄, rfl⟩ := exists_of_read?_both hv₃
  obtain ⟨e, he, t, ht, rfl⟩ := exists_of_read?_both hv₄
  obtain ⟨-, hafilled, hacut⟩ := mem_ways_word ha
  obtain ⟨-, hcfilled, hccut⟩ := mem_ways_word hc
  obtain ⟨-, hefilled, hecut⟩ := mem_ways_word he
  have hbcut := taken_append_rest hb
  have hdcut := taken_append_rest hd
  have hfilled : f.filled = (.count, b.taken) :: (d.filled ++ t.filled) := by
    have hall := congrArg Way.filled hw
    simpa [hafilled, filled_slot hb rfl, hcfilled, hefilled] using hall
  obtain ⟨t', ht', htarget, henergy⟩ := exists_read?_zone e.rest
  obtain rfl := Option.some.inj (ht.symm.trans ht')
  -- the energy and the target are filled by different parts, which do not hide each other
  have hdtarget : d.filled.lookup .target = none := lookup_eq_none hd (by decide)
  refine ⟨b.taken, d.taken, e.rest, ?_, ?_, ?_, ?_⟩
  · rw [← hacut, ← hbcut, ← hccut, ← hdcut, ← hecut]
    simp only [List.append_assoc]
  · rw [Found.get?, hfilled]
    rfl
  · have hget : f.get? .energy = d.filled.lookup .energy := by
      rw [Found.get?, hfilled]
      show (d.filled ++ t.filled).lookup .energy = _
      rw [List.lookup_append, henergy, Option.or_none]
    rw [hget]
    rcases someEnergy_cases hd with ⟨hnone, htaken⟩ | ⟨token, hsome, htaken⟩
    · exact .inl ⟨by rw [hnone]; rfl, htaken⟩
    · exact .inr ⟨token, by rw [hsome]; rfl, htaken⟩
  · rw [← htarget, Found.get?, hfilled]
    show energyTarget ((d.filled ++ t.filled).lookup .target) = _
    rw [List.lookup_append, hdtarget, Option.none_or]

/-- The names run up to a mark or to the end of the text. -/
theorem bench_of_read {f : Found} {n : List Char} (h : f.Of RuleName.benchScaling.phrase n) :
    ∃ front names rest, f.taken ++ f.after = front ++ " benched ".toList ++ names ++ rest
      ∧ f.get? .names = some names
      ∧ (∀ c ∈ names, CharSet.name.admits c = true)
      ∧ (rest = [] ∨ ∃ c more, rest = c :: more ∧ (c = '.' ∨ c = ',')) := by
  have hread : read? (.both (Phrase.word "this attack does ") (.both Phrase.amount
      (.both Phrase.moreDamage (.both (Phrase.word " for each of ")
        (.both (.slot .target (Phrase.words ["your", "your opponent's"]))
          (.both (Phrase.word " benched ") (.both (.slot .names (.run .name 1))
            (.either (Phrase.words [".", ","]) .atEnd))))))))
      (f.taken ++ f.after) = some ⟨f.taken, f.filled, f.after⟩ := h.read
  obtain ⟨a, ha, v₁, hv₁, hw⟩ := exists_of_read?_both hread
  obtain ⟨b, hb, v₂, hv₂, rfl⟩ := exists_of_read?_both hv₁
  obtain ⟨c, hc, v₃, hv₃, rfl⟩ := exists_of_read?_both hv₂
  obtain ⟨d, hd, v₄, hv₄, rfl⟩ := exists_of_read?_both hv₃
  obtain ⟨e, he, v₅, hv₅, rfl⟩ := exists_of_read?_both hv₄
  obtain ⟨g, hg, v₆, hv₆, rfl⟩ := exists_of_read?_both hv₅
  obtain ⟨m, hm, z, hz, rfl⟩ := exists_of_read?_both hv₆
  obtain ⟨-, hafilled, hacut⟩ := mem_ways_word ha
  obtain ⟨-, hdfilled, hdcut⟩ := mem_ways_word hd
  obtain ⟨-, hgfilled, hgcut⟩ := mem_ways_word hg
  have hz := mem_ways_of_read? hz
  have hfilled : f.filled = [(.amount, b.taken), (.target, e.taken), (.names, m.taken)] := by
    have hall := congrArg Way.filled hw
    simpa [hafilled, filled_slot hb rfl, filled_eq_nil hc rfl, hdfilled, filled_slot he rfl,
      hgfilled, filled_slot hm rfl, filled_eq_nil hz rfl] using hall
  refine ⟨"this attack does ".toList ++ b.taken ++ c.taken ++ " for each of ".toList ++ e.taken,
    m.taken, m.rest, ?_, ?_, ?_, ?_⟩
  · rw [← hacut, ← taken_append_rest hb, ← taken_append_rest hc, ← hdcut,
      ← taken_append_rest he, ← hgcut, ← taken_append_rest hm]
    simp only [List.append_assoc]
  · rw [Found.get?, hfilled]
    rfl
  · obtain ⟨run, hrun, rfl⟩ := mem_ways_slot hm
    exact (mem_ways_run hrun).1
  · rcases mem_ways_either hz with hstop | hend
    · obtain ⟨hmark, -, hcut⟩ := mem_ways_wordOf hstop
      have hmark : z.taken = ['.'] ∨ z.taken = [','] := by simpa using hmark
      refine .inr (hmark.elim (fun h => ⟨'.', z.rest, ?_, .inl rfl⟩)
        fun h => ⟨',', z.rest, ?_, .inr rfl⟩)
      · rw [← hcut, h]
        rfl
      · rw [← hcut, h]
        rfl
    · exact .inl (mem_ways_atEnd hend).1

end CardEffects.Clause

namespace CardEffects.Reading

open Clause

/-- What the rules with a target that may be missing make of a match. -/
inductive Aimed : RuleName → Found → Effect → Prop
  /-- Who is healed, the text behind "heal ... damage" says. -/
  | heal {f : Found} {ds rest : List Char} (isNumber : IsNumber ds)
      (text : f.taken ++ f.after = "heal ".toList ++ ds ++ " damage".toList ++ rest) :
      Aimed .heal f (.heal (number (some ds)) (healedBehind rest))
  /-- With a coin it is the acting Pokémon, whatever stands behind "heal ... damage". -/
  | coinHeal {f : Found} {front ds : List Char} (isNumber : IsNumber ds)
      (text : f.taken = front ++ "heal ".toList ++ ds ++ " damage".toList) :
      Aimed .coinHeal f
        (.coinFlipConditional (number (f.get? .count)) .heads (.heal (number (some ds))))
  /-- Where energy goes, the text behind "attach ... energy" and the zone says. -/
  | attach {f : Found} {count token rest : List Char} {energy : Option Energy}
      (text : f.taken ++ f.after
        = "attach ".toList ++ count ++ " ".toList ++ token ++ "energy".toList ++ rest)
      (counted : f.get? .count = some count)
      (named : f.get? .energy = none ∧ token = []
        ∨ ∃ name, f.get? .energy = some name ∧ token = name ++ " ".toList)
      (known : energy? (f.get? .energy) = some energy) :
      Aimed .energyAttachGeneric f
        (.energyAttach (energySpec energy) (number (some count))
          (attachedBehind (behindZone rest)))
  /-- The names counted are those between "benched" and the next mark, and Pokémon of any name
  when they start with "pokemon". -/
  | bench {f : Found} {front names rest : List Char} {filter : Option NameFilter}
      (text : f.taken ++ f.after = front ++ " benched ".toList ++ names ++ rest)
      (listed : f.get? .names = some names)
      (admitted : ∀ c ∈ names, CharSet.name.admits c = true)
      (ended : rest = [] ∨ ∃ c more, rest = c :: more ∧ (c = '.' ∨ c = ','))
      (unfiltered : filter = none ↔ startsWith "pokemon" names = true) :
      Aimed .benchScaling f
        (.benchScalingDamage (number (f.get? .amount)) (side (f.get? .target)) filter)

/-- Names that start with "pokemon" are no filter, whatever follows. -/
theorem benchFilter_eq_none_iff (names : List Char) :
    benchFilter names = none ↔ startsWith "pokemon" names = true := by
  unfold benchFilter
  split <;> simp_all

/-- **Targets by default.**  What the rules for healing, for healing by a coin, for attaching any
energy and for damage by the bench make of a match is for the target that the text goes on with
only when they know its words.  In every other case, whether a target is named or not, it is for
the acting Pokémon, or counts the whole bench. -/
theorem aimed_of_accepted {r : RuleName} {n : List Char} {f : Found} {e : Effect}
    (hr : r ∈ [RuleName.heal, .coinHeal, .energyAttachGeneric, .benchScaling])
    (h : (f, e) ∈ accepted r n) : Aimed r f e := by
  obtain ⟨hfound, -, hbuild⟩ := mem_accepted_iff.1 h
  have hof := of_mem_findAll hfound
  simp only [List.mem_cons, List.not_mem_nil, or_false] at hr
  -- only attaching can come to nothing after all, when its energy has a name that is not known
  rcases hr with rfl | rfl | rfl | rfl
  · obtain ⟨ds, rest, hnumber, htext, hamount, htarget⟩ := heal_of_read hof
    obtain rfl := Option.some.inj hbuild
    rw [hamount, htarget]
    exact .heal hnumber htext
  · obtain ⟨front, ds, hnumber, htext, hamount⟩ := coinHeal_of_read hof
    obtain rfl := Option.some.inj hbuild
    rw [hamount]
    exact .coinHeal hnumber htext
  · obtain ⟨count, token, rest, htext, hcount, htoken, htarget⟩ := attach_of_read hof
    obtain ⟨energy, henergy, hmade⟩ := Option.bind_eq_some_iff.1 hbuild
    obtain rfl := Option.some.inj hmade
    rw [hcount, htarget]
    exact .attach htext hcount htoken henergy
  · obtain ⟨front, names, rest, htext, hnames, hall, hend⟩ := bench_of_read hof
    obtain rfl := Option.some.inj hbuild
    rw [hnames]
    exact .bench htext hnames hall hend (benchFilter_eq_none_iff names)

/-! ### Targets that are not known -/

/-- One of the bench is healed. -/
def healBenchedText : String := "Heal 30 damage from 1 of your Benched Pokémon."

/-- Everyone of the own side is healed, if the coin says so. -/
def coinHealEachText : String :=
  "Flip a coin. If heads, heal 30 damage from each of your Pokémon."

/-- Everyone on the bench gets energy. -/
def attachEachText : String :=
  "Attach a \x7bW\x7d Energy from your Energy Zone to each of your Benched Pokémon."

/-- Some of the bench counts. -/
def benchedExText : String :=
  "This attack does 20 more damage for each of your Benched Pokémon ex."

theorem accepted_healBenchedText :
    ∃ f, (f, .heal 30 .this) ∈ accepted .heal (normalize healBenchedText.toList)
      ∧ startsWith " from 1 of your benched pokemon" f.after = true := by
  refine exists_accepted (p := fun f => startsWith " from 1 of your benched pokemon" f.after) ?_
  rw [healBenchedText, String.toList_ofList]
  decide

/-- The one on the bench is not healed, for the rule is aimed at the acting Pokémon. -/
theorem aimed_healBenchedText :
    ∃ f, (f, .heal 30 .this) ∈ accepted .heal (normalize healBenchedText.toList)
      ∧ Aimed .heal f (.heal 30 .this) := by
  obtain ⟨f, hf, -⟩ := accepted_healBenchedText
  exact ⟨f, hf, aimed_of_accepted (by decide) hf⟩

/-- Each of the four rules reads a clause with a target it does not know, and puts its own in the
place of that target. -/
theorem defaults_replace_targets :
    (∃ f, (f, .heal 30 .this) ∈ accepted .heal (normalize healBenchedText.toList)
        ∧ startsWith " from 1 of your benched pokemon" f.after = true)
      ∧ (∃ f, (f, .coinFlipConditional 1 .heads (.heal 30))
            ∈ accepted .coinHeal (normalize coinHealEachText.toList)
          ∧ startsWith " from each of your pokemon" f.after = true)
      ∧ (∃ f, (f, .energyAttach (.named .water) 1 .this)
            ∈ accepted .energyAttachGeneric (normalize attachEachText.toList)
          ∧ startsWith " to each of your benched pokemon" f.after = true)
      ∧ ∃ f, (f, .benchScalingDamage 20 .own none)
            ∈ accepted .benchScaling (normalize benchedExText.toList)
          ∧ (f.get? .names == some "pokemon ex".toList) = true := by
  refine ⟨accepted_healBenchedText, ?_, ?_, ?_⟩
  · refine exists_accepted (p := fun f => startsWith " from each of your pokemon" f.after) ?_
    rw [coinHealEachText, String.toList_ofList]
    decide
  · refine exists_accepted (p := fun f => startsWith " to each of your benched pokemon" f.after) ?_
    rw [attachEachText, String.toList_ofList]
    decide
  · refine exists_accepted (p := fun f => f.get? .names == some "pokemon ex".toList) ?_
    rw [benchedExText, String.toList_ofList]
    decide

end CardEffects.Reading
