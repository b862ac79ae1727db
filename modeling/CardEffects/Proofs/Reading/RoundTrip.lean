/-
  CardEffects.Proofs.Reading.RoundTrip

  Every sentence is read as what it says.

    * `Sentence.normalize_text` — the normal form of a sentence is its template, filled.
    * `Sentence.Reads.build` — the rule of a sentence makes its effect of what is in its slots.
    * `Sentence.ofText_text` — so the sentence is read as that one effect, by that one rule.
-/
import CardEffects.Proofs.Reading.Check
import Mathlib.Data.List.Basic
import Mathlib.Data.List.Nodup

namespace CardEffects.Clause

namespace Sentence

/-! ## The normal form -/

/-- In the normal form the symbol of a type is a letter still. -/
private theorem isLetter_symbol (e : Energy) : CharSet.isLetter (normalChar e.symbol) = true := by
  cases e <;> decide

/-- What fills the holes of the normal form: the numbers in decimal, and the letters of the
types. -/
def filling (n k : Word) (e t : Energy) : Filling where
  number
    | .count => Nat.toDigits 10 n.toNat
    | .amount => Nat.toDigits 10 k.toNat
  letter
    | .energy => normalChar e.symbol
    | .kind => normalChar t.symbol
  number_ne_nil h := by cases h <;> exact Nat.toDigits_ne_nil
  isDigit_number h c hc := by
    cases h <;> exact Nat.isDigit_of_mem_toDigits (by decide) (by decide) hc
  isLetter_letter h := by
    cases h with
    | energy => exact isLetter_symbol e
    | kind => exact isLetter_symbol t

variable (n k : Word) (e t : Energy)

theorem toList_number (n : Word) : n.text.toList = Nat.toDigits 10 n.toNat :=
  String.toList_ofList

theorem toList_energy (e : Energy) :
    (CostSymbol.token (.typed e)).toList = ['\x7b', e.symbol, '\x7d'] :=
  String.toList_ofList

private theorem map_normalChar_symbol (e : Energy) :
    ['\x7b', e.symbol, '\x7d'].map normalChar = ['\x7b', normalChar e.symbol, '\x7d'] := by
  have hbraces : normalChar '\x7b' = '\x7b' ∧ normalChar '\x7d' = '\x7d' := by decide
  rw [List.map_cons, List.map_cons, List.map_cons, hbraces.1, hbraces.2, List.map_nil]

/-- The normal form of a piece is its template, filled. -/
theorem map_normalChar_piece (p : Piece) :
    (p.text n k e t).toList.map normalChar = Template.fill (filling n k e t) p.template := by
  cases p with
  | words text letters spells =>
    rw [Piece.text, Piece.template, spells, Template.fill_map_char]
  | count =>
    rw [Piece.text, toList_number, map_normalChar_toDigits]
    exact (List.append_nil _).symm
  | amount =>
    rw [Piece.text, toList_number, map_normalChar_toDigits]
    exact (List.append_nil _).symm
  | energy =>
    rw [Piece.text, toList_energy, map_normalChar_symbol]
    rfl
  | kind =>
    rw [Piece.text, toList_energy, map_normalChar_symbol]
    rfl

private theorem gapAfter?_symbol (gap : Bool) (e : Energy) :
    gapAfter? gap ['\x7b', e.symbol, '\x7d'] = some false := by
  have hall : ['\x7b', e.symbol, '\x7d'].all (fun c => c != ' ' && inWord c) = true := by
    cases e <;> decide
  have hword : ∀ c ∈ ['\x7b', e.symbol, '\x7d'], c ≠ ' ' ∧ inWord c = true := by
    simpa only [List.all_eq_true, Bool.and_eq_true, bne_iff_ne] using hall
  exact gapAfter?_of_inWord (by simp) hword gap

/-- Whether the sentence is tidy can be seen from its pieces. -/
theorem gapAfter?_piece (gap : Bool) (p : Piece) :
    p.gapAfter? gap = gapAfter? gap (p.text n k e t).toList := by
  cases p with
  | words text letters spells => rw [Piece.text, spells, Piece.gapAfter?]
  | count => rw [Piece.text, toList_number, gapAfter?_toDigits, Piece.gapAfter?]
  | amount => rw [Piece.text, toList_number, gapAfter?_toDigits, Piece.gapAfter?]
  | energy => rw [Piece.text, toList_energy, gapAfter?_symbol, Piece.gapAfter?]
  | kind => rw [Piece.text, toList_energy, gapAfter?_symbol, Piece.gapAfter?]

theorem gapAfter?_pieces (gap : Bool) (ps : List Piece) :
    ps.foldlM Piece.gapAfter? gap
      = gapAfter? gap (ps.flatMap fun p => (p.text n k e t).toList) := by
  induction ps generalizing gap with
  | nil => rfl
  | cons p ps ih =>
    rw [List.foldlM_cons, List.flatMap_cons, gapAfter?_append, gapAfter?_piece n k e t gap p]
    cases gapAfter? gap (p.text n k e t).toList with
    | none => rfl
    | some gap => exact ih gap

theorem toList_text (s : Sentence) :
    (s.text n k e t).toList = s.pieces.flatMap fun p => (p.text n k e t).toList := by
  rw [text, String.toList_join, List.flatMap_map]

/-- The normal form of a sentence is its template, filled. -/
theorem normalize_text (s : Sentence) :
    normalize (s.text n k e t).toList = Template.fill (filling n k e t) s.template := by
  have hreads := s.reads_eq_true
  simp only [reads, Bool.and_eq_true, beq_iff_eq] at hreads
  have htidy : gapAfter? true (s.text n k e t).toList = some false := by
    rw [toList_text, ← gapAfter?_pieces]
    exact hreads.1.1
  rw [normalize_of_tidy htidy, toList_text, List.map_flatMap, template, Template.fill,
    List.flatMap_assoc]
  exact List.flatMap_congr fun p _ => map_normalChar_piece n k e t p

/-! ## What the slots are read as -/

/-- The text of pieces in a slot. -/
def slotText (ps : List Piece) : List Char :=
  Template.fill (filling n k e t) (ps.flatMap Piece.template)

section Slots

theorem number_count : number (some (slotText n k e t [.count])) = n := by
  have h : slotText n k e t [.count] = Nat.toDigits 10 n.toNat := List.append_nil _
  rw [h, number_toDigits]

theorem number_amount : number (some (slotText n k e t [.amount])) = k := by
  have h : slotText n k e t [.amount] = Nat.toDigits 10 k.toNat := List.append_nil _
  rw [h, number_toDigits]

theorem energy?_energy : energy? (some (slotText n k e t [.energy])) = some (some e) := by
  have h : slotText n k e t [.energy] = ['\x7b', normalChar e.symbol, '\x7d'] := rfl
  rw [h]
  cases e <;> decide

theorem energy?_energySlot (typed : Bool) :
    energy? ((energySlot typed).map (slotText n k e t)) = some (named typed e) := by
  cases typed with
  | true => exact energy?_energy n k e t
  | false => rfl

/-- The text of words in a slot does not depend on what is left open. -/
private theorem slotText_words {text : String} {letters : List Char}
    (spells : text.toList = letters) :
    slotText n k e t [.words text letters spells] = letters.map normalChar := by
  rw [slotText, List.flatMap_singleton, Piece.template, Template.fill_map_char]

theorem conditionTarget_piece (sufferer : Sufferer) :
    conditionTarget (some (slotText n k e t [sufferer.piece])) = sufferer.target := by
  cases sufferer <;> (rw [Sufferer.piece, lit, slotText_words]; decide)

theorem conditionTarget_holder (s : Side) :
    conditionTarget (some (slotText n k e t [holderPiece s])) = holderTarget s := by
  cases s <;> (rw [holderPiece, lit, slotText_words]; decide)

theorem condition?_piece (c : Condition) :
    condition? (some (slotText n k e t [conditionPiece c])) = some c := by
  cases c <;> (rw [conditionPiece, lit, slotText_words]; decide)

theorem condition?_suffered (c : Option Condition) :
    condition? (some (slotText n k e t [sufferedPiece c])) = c := by
  cases c with
  | none =>
    rw [sufferedPiece, lit, slotText_words]
    decide
  | some c => exact condition?_piece n k e t c

theorem side_holder (s : Side) : side (some (slotText n k e t [holderPiece s])) = s := by
  cases s <;> (rw [holderPiece, lit, slotText_words]; decide)

theorem side_bench (s : Side) : side (some (slotText n k e t [benchPiece s])) = s := by
  cases s <;> (rw [benchPiece, lit, slotText_words]; decide)

theorem energyTarget_gainer (gainer : Gainer) :
    energyTarget (some (slotText n k e t [gainer.piece])) = gainer.target := by
  cases gainer <;> (rw [Gainer.piece, lit, slotText_words]; decide)

theorem energyTarget_receiver (receiver : Receiver) :
    energyTarget (some (slotText n k e t [receiver.piece])) = receiver.target := by
  cases receiver <;> (rw [Receiver.piece, lit, slotText_words]; decide)

/-- The type of the Pokémon does not matter for where the energy goes. -/
theorem energyTarget_oneOfKind (benched : Bool) :
    energyTarget (some (slotText n k e t (oneOfKind benched)))
      = if benched then .bench else .anyOwn := by
  have h (p : Piece) :
      slotText n k e t [p, .kind, lit " Pokémon"]
        = slotText n k e t [p] ++ '\x7b' :: normalChar t.symbol :: '\x7d' :: " pokemon".toList := by
    simp only [slotText, lit, List.flatMap_cons, List.flatMap_nil, Piece.template, List.append_nil,
      Template.fill_append, Template.fill_map_char, Template.fill_char, Template.fill_letter,
      List.cons_append, List.nil_append]
    rfl
  cases benched with
  | true =>
    rw [oneOfKind, if_pos rfl, h, lit, slotText_words]
    cases t <;> decide
  | false =>
    rw [oneOfKind, if_neg Bool.false_ne_true, h, lit, slotText_words]
    cases t <;> decide

/-- A receiver that is not named is the Pokémon itself. -/
theorem energyTarget_map (receiver : Option Receiver) :
    energyTarget ((receiver.map fun r => [r.piece]).map (slotText n k e t))
      = (receiver.map Receiver.target).getD .this := by
  cases receiver with
  | none => rfl
  | some receiver => exact energyTarget_receiver n k e t receiver

theorem healTarget_piece (patient : Patient) :
    healTarget (some (slotText n k e t [patient.piece])) = patient.target := by
  cases patient <;> (rw [Patient.piece, lit, slotText_words]; decide)

/-- A patient that is not named is the Pokémon itself. -/
theorem healTarget_map (patient : Option Patient) :
    healTarget ((patient.map fun p => [p.piece]).map (slotText n k e t))
      = (patient.map Patient.target).getD .this := by
  cases patient with
  | none => rfl
  | some patient => exact healTarget_piece n k e t patient

theorem benchFilter_pokemon :
    benchFilter ((some (slotText n k e t [lit "Pokémon"])).getD "pokemon".toList) = none := by
  rw [lit, slotText_words]
  decide

theorem criteria_pokemon :
    String.ofList (Text.trim (slotText n k e t [lit "Pokémon"])) = "pokemon" := by
  rw [lit, slotText_words]
  decide

theorem discardCount_piece (m : Measure) :
    discardCount (some (slotText n k e t [m.piece])) = m.count k := by
  cases m with
  | number =>
    -- a number is written without the letters of "all"
    have hall : some (slotText n k e t [.amount]) ≠ some "all".toList := by
      intro h
      have hamount : slotText n k e t [.amount] = Nat.toDigits 10 k.toNat := List.append_nil _
      have hdigits : Nat.toDigits 10 k.toNat = "all".toList :=
        hamount.symm.trans (Option.some.inj h)
      have ha : 'a' ∈ Nat.toDigits 10 k.toNat := by
        rw [hdigits]
        decide
      exact absurd (Nat.isDigit_of_mem_toDigits (by decide) (by decide) ha) (by decide)
    rw [Measure.piece, discardCount, if_neg hall, number_amount, Measure.count]
  | all =>
    rw [Measure.piece, lit, slotText_words, Measure.count]
    decide
  | random =>
    rw [Measure.piece, lit, slotText_words, Measure.count]
    decide
  | one an =>
    cases an <;> (rw [Measure.piece, article, lit, slotText_words, Measure.count]; decide)

end Slots

/-- A reading from the front of a sentence that has the pieces of the sentence in its slots. -/
structure Reads (s : Sentence) (f : Found) : Prop where
  before : f.before = []
  get? : ∀ slot, f.get? slot = (s.slots.get? slot).map (slotText n k e t)

/-- The rule of a sentence makes its effect of such a reading. -/
theorem Reads.build {s : Sentence} {f : Found} (h : s.Reads n k e t f) :
    s.rule.build f = some (s.effect n k e) := by
  have hget := h.get?
  cases s with
  | coinDamageFixed =>
    simp only [rule, RuleName.build, hget, Slots.get?, slots, Option.map_some, number_count,
      number_amount, effect]
  | coinDamageUntilTails =>
    simp only [rule, RuleName.build, hget, Slots.get?, slots, Option.map_some, number_amount,
      effect]
  | coinDamagePerEnergy typed =>
    simp only [rule, RuleName.build, hget, Slots.get?, slots, Option.map_some, number_amount,
      energy?_energySlot, Option.bind_eq_bind, Option.bind_some, effect]
  | coinDamagePerPokemonInPlay =>
    simp only [rule, RuleName.build, hget, Slots.get?, slots, Option.map_some, number_amount,
      effect]
  | coinDamagePerBench side =>
    simp only [rule, RuleName.build, hget, Slots.get?, slots, Option.map_some, number_amount,
      side_bench, effect]
  | coinEnergyAmount typed gainer =>
    simp only [rule, RuleName.build, hget, Slots.get?, slots, Option.map_some, number_count,
      energy?_energySlot, energyTarget_gainer, Option.bind_eq_bind, Option.bind_some, effect]
  | coinEnergyTake an typed gainer =>
    simp only [rule, RuleName.build, hget, Slots.get?, slots, Option.map_some,
      energy?_energySlot, energyTarget_gainer, Option.bind_eq_bind, Option.bind_some, effect]
  | coinEnergyAttach an typed zone gainer =>
    simp only [rule, RuleName.build, hget, Slots.get?, slots, Option.map_some,
      energy?_energySlot, energyTarget_gainer, Option.bind_eq_bind, Option.bind_some, effect]
  | coinBonus =>
    simp only [rule, RuleName.build, hget, Slots.get?, slots, Option.map_some, number_count,
      number_amount, effect]
  | coinFail => rfl
  | coinCondition sufferer c =>
    simp only [rule, RuleName.build, hget, Slots.get?, slots, Option.map_some, number_count,
      conditionTarget_piece, condition?_piece, Option.bind_eq_bind, Option.bind_some, effect]
  | coinHeal named =>
    simp only [rule, RuleName.build, hget, Slots.get?, slots, Option.map_some, number_count,
      number_amount, effect]
  | coinDiscard typed measure source =>
    simp only [rule, RuleName.build, hget, Slots.get?, slots, Option.map_some, number_count,
      energy?_energySlot, discardCount_piece, side_holder, Option.bind_eq_bind,
      Option.bind_some, effect]
  | conditionApply sufferer c =>
    simp only [rule, RuleName.build, hget, Slots.get?, slots, Option.map_some,
      conditionTarget_piece, condition?_piece, Option.bind_eq_bind, Option.bind_some, effect]
  | conditionApplyRandom side =>
    simp only [rule, RuleName.build, hget, Slots.get?, slots, Option.map_some,
      conditionTarget_holder, effect]
  | conditionalTargetCondition c =>
    simp only [rule, RuleName.build, hget, Slots.get?, slots, Option.map_some, number_amount,
      condition?_suffered, effect]
  | conditionalDamaged side =>
    simp only [rule, RuleName.build, hget, Slots.get?, slots, Option.map_some, number_amount,
      side_holder, effect]
    cases side <;> rfl
  | conditionalExtraEnergy typed =>
    simp only [rule, RuleName.build, hget, Slots.get?, slots, Option.map_some, number_count,
      number_amount, energy?_energySlot, Option.bind_eq_bind, Option.bind_some, effect]
  | energyScaling typed source =>
    simp only [rule, RuleName.build, hget, Slots.get?, slots, Option.map_some, number_amount,
      energy?_energySlot, side_holder, Option.bind_eq_bind, Option.bind_some, effect]
  | benchScaling side =>
    simp only [rule, RuleName.build, hget, Slots.get?, slots, Option.map_some, number_amount,
      side_bench, benchFilter_pokemon, effect]
  | damageBonus =>
    simp only [rule, RuleName.build, hget, Slots.get?, slots, Option.map_some, number_amount,
      effect]
  | damageBonusTurn =>
    simp only [rule, RuleName.build, hget, Slots.get?, slots, Option.map_some, number_amount,
      effect]
  | healFull patient =>
    simp only [rule, RuleName.build, hget, Slots.get?, slots, Option.map_some,
      healTarget_piece, effect]
  | heal patient =>
    simp only [rule, RuleName.build, hget, Slots.get?, slots, Option.map_some, number_amount,
      healTarget_map, effect]
  | energyAttachZone receiver =>
    simp only [rule, RuleName.build, hget, Slots.get?, slots, Option.map_some, number_count,
      energy?_energy, energyTarget_receiver, Option.bind_eq_bind, Option.bind_some, effect]
  | energyAttachKind benched =>
    simp only [rule, RuleName.build, hget, Slots.get?, slots, Option.map_some, number_count,
      energy?_energy, energyTarget_oneOfKind, Option.bind_eq_bind, Option.bind_some, effect]
  | energyAttachGeneric typed zone receiver =>
    simp only [rule, RuleName.build, hget, Slots.get?, slots, Option.map_some, number_count,
      energy?_energySlot, energyTarget_map, Option.bind_eq_bind, Option.bind_some, effect]
  | energyDiscard typed measure source =>
    simp only [rule, RuleName.build, hget, Slots.get?, slots, Option.map_some,
      energy?_energySlot, discardCount_piece, side_holder, Option.bind_eq_bind,
      Option.bind_some, effect]
  | draw =>
    simp only [rule, RuleName.build, hget, Slots.get?, slots, Option.map_some, number_count,
      effect]
  | search =>
    simp only [rule, RuleName.build, hget, Slots.get?, slots, Option.map_some,
      criteria_pokemon, Option.bind_eq_bind, Option.bind_some, effect]

/-! ## The reading -/

/-- What a reading of the template has in its slots is what the reading of the text has. -/
private theorem lookup_map_fill (slot : Slot) (filled : List (Slot × Template)) :
    (filled.map fun p => (p.1, Template.fill (filling n k e t) p.2)).lookup slot
      = (filled.lookup slot).map (Template.fill (filling n k e t)) := by
  induction filled with
  | nil => rfl
  | cons p filled ih =>
    rw [List.map_cons, List.lookup_cons, List.lookup_cons, ih]
    cases slot == p.1 <;> rfl

/-- A sentence is read by its own rule from the front, and that is all the rule finds. -/
theorem findAll_text (s : Sentence) :
    ∃ f, findAll s.rule.phrase (normalize (s.text n k e t).toList) = [f] ∧ s.Reads n k e t f := by
  have hreads := s.reads_eq_true
  simp only [reads, Bool.and_eq_true] at hreads
  obtain ⟨-, hown⟩ := hreads
  rw [normalize_text]
  match hways : s.template.ways? s.rule.spelled.val, hown with
  | some (w :: ws), hown =>
    simp only [Bool.and_eq_true] at hown
    obtain ⟨⟨hfills, hhead⟩, hrest⟩ := hown
    have htaken : Template.fill (filling n k e t) w.taken ≠ [] := by
      obtain ⟨a, ha⟩ := Option.isSome_iff_exists.1 hhead
      obtain ⟨t, ht⟩ := List.head?_eq_some_iff.1 ha
      rw [ht]
      exact Template.fill_cons_ne_nil _ a t
    refine ⟨_, Template.findAll_eq (filling n k e t) hways htaken hrest, rfl, fun slot => ?_⟩
    have hslot := List.all_eq_true.1 hfills slot (Enumeration.mem_all slot)
    rw [Found.get?, lookup_map_fill, beq_iff_eq.1 hslot, Option.map_map]
    rfl

/-- No rule but its own accepts anything in a sentence. -/
theorem accepted_text_of_ne (s : Sentence) {r : RuleName} (hr : r ≠ s.rule) :
    Reading.accepted r (normalize (s.text n k e t).toList) = [] := by
  have hreads := s.reads_eq_true
  simp only [reads, Bool.and_eq_true] at hreads
  rw [normalize_text]
  exact Template.accepted_eq_nil _ hr hreads.1.2

/-- Its own rule accepts what it finds, for the effect of the sentence. -/
theorem accepted_text (s : Sentence) :
    ∃ f, Reading.accepted s.rule (normalize (s.text n k e t).toList) = [(f, s.effect n k e)] := by
  obtain ⟨f, hfound, hf⟩ := s.findAll_text n k e t
  -- nothing stands before a reading from the front, so no gate does
  have hadmits : Reading.admits s.rule f = true := by
    unfold Reading.admits
    split
    · rfl
    · rw [hf.before]
      decide
  refine ⟨f, ?_⟩
  rw [Reading.accepted, hfound, List.filter_cons_of_pos hadmits, List.filter_nil,
    List.filterMap_cons, hf.build, List.filterMap_nil]
  rfl

/-- In a list without repetitions where one member alone has something, that is all there is. -/
theorem flatMap_eq_of_only {α β : Type} {l : List α} {a : α} {f : α → List β} (hl : l.Nodup)
    (ha : a ∈ l) (hf : ∀ b, b ≠ a → f b = []) : l.flatMap f = f a := by
  induction l with
  | nil => cases ha
  | cons b l ih =>
    obtain ⟨hb, hl⟩ := List.nodup_cons.1 hl
    rw [List.flatMap_cons]
    rcases List.mem_cons.1 ha with rfl | ha
    · -- behind the member there is nothing
      have hnone : ∀ c ∈ l, f c = [] := fun c hc => hf c fun h => hb (h ▸ hc)
      rw [List.flatMap_eq_nil_iff.2 hnone, List.append_nil]
    · rw [hf b fun h => hb (h ▸ ha), List.nil_append, ih hl ha]

/-- When it is a single thing, the others have nothing. -/
theorem flatMap_only {α β : Type} {l : List α} {a : α} {f : α → List β} {x : β}
    (hl : l.Nodup) (ha : a ∈ l) (hfa : f a = [x]) (hf : ∀ b, b ≠ a → f b = []) :
    l.flatMap f = [x] ∧ (l.filter fun b => !(f b).isEmpty) = [a] := by
  have hmem : ∀ b, b ∈ (l.filter fun b => !(f b).isEmpty) ↔ b ∈ [a] := by
    intro b
    rw [List.mem_filter, List.mem_singleton]
    by_cases hb : b = a
    · subst hb
      simp [hfa, ha]
    · simp [hf b hb, hb]
  refine ⟨(flatMap_eq_of_only hl ha hf).trans hfa, List.perm_singleton.1 ?_⟩
  exact (List.perm_ext_iff_of_nodup (hl.filter _) (List.nodup_singleton a)).2 hmem

/-- **Every sentence is read as what it says.**  Whatever numbers and energy types are put into
a sentence, and whatever else varies in it, its reading has the effect of the sentence and no
other, made by the rule of the sentence and no other. -/
theorem ofText_text (s : Sentence) (n k : Word) (e t : Energy) :
    (Reading.ofText (s.text n k e t)).effects = [s.effect n k e]
      ∧ (Reading.ofText (s.text n k e t)).rules = [s.rule] := by
  obtain ⟨f, hf⟩ := s.accepted_text n k e t
  obtain ⟨hflat, hfilter⟩ := flatMap_only (l := Enumeration.all)
    (f := fun r => Reading.accepted r (normalize (s.text n k e t).toList))
    Enumeration.nodup_all (Enumeration.mem_all s.rule) hf
    fun r hr => s.accepted_text_of_ne n k e t hr
  have hflat' : (Reading.allAccepted (normalize (s.text n k e t).toList)).flatMap (·.2)
      = [(f, s.effect n k e)] := by
    rw [Reading.allAccepted, List.flatMap_map]
    exact hflat
  have hfilter' : ((Reading.allAccepted (normalize (s.text n k e t).toList)).filter
      fun p => !p.2.isEmpty).map (·.1) = [s.rule] := by
    rw [Reading.allAccepted, List.filter_map, List.map_map]
    exact (List.map_id _).trans hfilter
  have hnormal : normalize (s.text n k e t).toList ≠ [] := by
    intro h
    rw [h] at hf
    cases hf
  unfold Reading.ofText
  rw [if_neg hnormal]
  simp only [hflat', hfilter']
  exact ⟨rfl, rfl⟩

end Sentence

end CardEffects.Clause
