/-
  CardEffects.Proofs.Json.RoundTrip

  JSON texts are read back.  A value is written on one line or on many, and from either text the
  reader gives the value again, whatever characters its texts are made of.

    * `readNumber_toDigits`, `readText_escape` — numbers and texts are read back.
    * `readItems_render`, `readFields_render` — lists and records are, if what is in them is.
    * `readBack_of_plain` — and so are all values with natural numbers and texts of characters.
    * `parse_compact`, `parse_pretty` — whole texts.
-/
import CardEffects.Proofs.Json.Layout
import Mathlib.Data.List.Basic
import Mathlib.Data.List.TakeDrop
import Mathlib.Data.List.TakeWhile

namespace CardEffects.Json

open Layout

/-! ## Blanks -/

theorem skipBlanks_append {ws : List Char} (hws : ∀ c ∈ ws, isBlank c = true) {c : Char}
    (hc : isBlank c = false) (rest : List Char) : skipBlanks (ws ++ c :: rest) = c :: rest := by
  rw [skipBlanks, List.dropWhile_append_of_pos hws, List.dropWhile_cons_of_neg (by simp [hc])]

/-! ## Numbers -/

/-- Only zero is written with a zero in front. -/
theorem head?_toDigits {n : Nat} (hn : 0 < n) : (Nat.toDigits 10 n).head? ≠ some '0' := by
  induction n using Nat.strongRecOn with
  | ind n ih =>
    rcases Nat.lt_or_ge n 10 with hlt | hge
    · rw [Nat.toDigits_of_lt_base hlt, List.head?_cons, Ne, Option.some.injEq,
        Nat.digitChar_eq_zero]
      omega
    · rw [Nat.toDigits_of_base_le (by decide) hge,
        List.head?_append_of_ne_nil _ Nat.toDigits_ne_nil]
      exact ih (n / 10) (by omega) (by omega)

theorem isBlank_of_isDigit {c : Char} (h : c.isDigit = true) : isBlank c = false := by
  rw [Bool.eq_false_iff]
  intro hblank
  simp only [isBlank, Bool.or_eq_true, beq_iff_eq] at hblank
  rcases hblank with ((rfl | rfl) | rfl) | rfl <;> exact absurd h (by decide)

/-- A number cannot go on with this text. -/
def EndsNumber (rest : List Char) : Prop :=
  ∀ c, rest.head? = some c → c.isDigit = false ∧ c ≠ '.' ∧ c ≠ 'e' ∧ c ≠ 'E'

theorem endsNumber_nil : EndsNumber [] := nofun

theorem endsNumber_append {ws : List Char} (hws : ∀ c ∈ ws, isBlank c = true) {rest : List Char}
    (h : EndsNumber rest) : EndsNumber (ws ++ rest) := by
  cases ws with
  | nil => exact h
  | cons b ws =>
    intro c hc
    obtain rfl : b = c := Option.some.inj hc
    have hb := hws b List.mem_cons_self
    simp only [isBlank, Bool.or_eq_true, beq_iff_eq] at hb
    rcases hb with ((rfl | rfl) | rfl) | rfl <;> decide

theorem readDigits_append {ds rest : List Char} (hne : ds ≠ []) (hds : ∀ c ∈ ds, c.isDigit = true)
    (hrest : EndsNumber rest) : readDigits (ds ++ rest) = some (ds, rest) := by
  have hspan : (ds ++ rest).span Char.isDigit = (ds, rest) := by
    rw [List.span_eq_takeWhile_dropWhile, List.takeWhile_append_of_pos hds,
      List.dropWhile_append_of_pos hds]
    cases rest with
    | nil => simp
    | cons c rest =>
      have hc := (hrest c rfl).1
      rw [List.takeWhile_cons_of_neg (by simp [hc]), List.dropWhile_cons_of_neg (by simp [hc]),
        List.append_nil]
  rw [readDigits, hspan]
  cases ds with
  | nil => exact absurd rfl hne
  | cons d ds => rfl

theorem readWhole_toDigits (n : Nat) {rest : List Char} (hrest : EndsNumber rest) :
    readWhole (Nat.toDigits 10 n ++ rest) = some (Nat.toDigits 10 n, rest) := by
  rcases Nat.eq_zero_or_pos n with rfl | hn
  · rw [Nat.toDigits_zero, List.singleton_append]
    cases rest with
    | nil => rfl
    | cons c rest => exact if_neg (by simp [(hrest c rfl).1])
  · have hread : readDigits (Nat.toDigits 10 n ++ rest) = some (Nat.toDigits 10 n, rest) :=
      readDigits_append Nat.toDigits_ne_nil
        (fun c hc => Nat.isDigit_of_mem_toDigits (by decide) (by decide) hc) hrest
    have hhead := head?_toDigits hn
    rw [← List.head?_append_of_ne_nil _ Nat.toDigits_ne_nil] at hhead
    -- no zero stands in front, so all digits are taken together
    rw [← hread]
    unfold readWhole
    split
    next heq => exact absurd (congrArg List.head? heq) hhead
    next => rfl

theorem readNumber_toDigits (n : Nat) {rest : List Char} (hrest : EndsNumber rest) :
    readNumber (Nat.toDigits 10 n ++ rest) = some (natural n, rest) := by
  have hsign : ∀ cs, Nat.toDigits 10 n ++ rest ≠ '-' :: cs := by
    intro cs heq
    have hhead := congrArg List.head? heq
    rw [List.head?_append_of_ne_nil _ Nat.toDigits_ne_nil] at hhead
    have hminus := Nat.isDigit_of_mem_toDigits (by decide) (by decide) (List.mem_of_head? hhead)
    exact absurd hminus (by decide)
  have hfraction : readFraction rest = some ([], rest) := by
    unfold readFraction
    split
    next => exact absurd rfl (hrest _ rfl).2.1
    next => rfl
  have hexponent : readExponent rest = some ([], rest) := by
    unfold readExponent
    split
    next c more =>
      obtain ⟨-, -, hsmall, hlarge⟩ := hrest c rfl
      exact if_neg (by simp [hsmall, hlarge])
    next => rfl
  unfold readNumber
  -- without a minus the sign is empty, and nothing is taken off the text for it
  split
  next sign cs heq =>
    split at heq
    next hminus => exact absurd hminus (hsign _)
    next =>
      obtain ⟨rfl, rfl⟩ := Prod.mk.inj heq
      simp [readWhole_toDigits n hrest, hfraction, hexponent, Nat.ofDigitChars_ten_toDigits]

/-! ## Texts -/

/-- The piece that a character is read as. -/
def pieceOf (c : Char) : Piece :=
  if c.toNat < 32 ∧ c ∉ ['\n', '\r', '\t', '\x08', '\x0c'] then .unit c.toNat else .char c

theorem hexUnit?_control {n : Nat} (h : n < 32) :
    hexUnit? '0' '0' (hexDigit (n / 16)) (hexDigit (n % 16)) = some n := by
  revert n
  decide

/-- A character is read as its piece from what it is written as. -/
theorem readPieces_escape (c : Char) (acc : List Piece) (rest : List Char) :
    readPieces acc (escape c ++ rest) = readPieces (pieceOf c :: acc) rest := by
  unfold escape
  split
  · rfl
  · rfl
  · rfl
  · rfl
  · rfl
  · rfl
  · rfl
  next hquote hslash hn hr ht hb hf =>
    -- a control character without a letter of its own is written by its number
    by_cases hcontrol : c.toNat < 32
    · have hpiece : pieceOf c = .unit c.toNat :=
        if_pos ⟨hcontrol, by simpa using ⟨hn, hr, ht, hb, hf⟩⟩
      rw [if_pos hcontrol, hpiece]
      simp only [List.cons_append, List.nil_append, readPieces, hexUnit?_control hcontrol]
    · have hpiece : pieceOf c = .char c := if_neg fun h => hcontrol h.1
      rw [if_neg hcontrol, hpiece, List.singleton_append, readPieces, if_neg hcontrol]
      · exact hquote
      · intro _ _ _ _ _ h _
        exact hslash h
      · intro _ _ h _
        exact hslash h

theorem readPieces_flatMap_escape (cs : List Char) (acc : List Piece) (rest : List Char) :
    readPieces acc (cs.flatMap escape ++ '"' :: rest)
      = some (acc.reverse ++ cs.map pieceOf, rest) := by
  induction cs generalizing acc with
  | nil => rw [List.flatMap_nil, List.nil_append, readPieces, List.map_nil, List.append_nil]
  | cons c cs ih =>
    rw [List.flatMap_cons, List.append_assoc, readPieces_escape, ih, List.reverse_cons,
      List.append_assoc]
    rfl

/-- A unit that is no half of a surrogate pair is a character by itself. -/
theorem joinPieces_unit {n : Nat} (h : n < 0xD800) (rest : List Piece) :
    joinPieces (.unit n :: rest) = (joinPieces rest).map (Char.ofNat n :: ·) := by
  have hsingle : ¬ (0xD800 ≤ n ∧ n < 0xE000) := by omega
  cases rest with
  | nil => exact if_neg hsingle
  | cons p rest =>
    cases p with
    | char c => exact if_neg hsingle
    | unit m =>
      have hpair : ¬ (0xD800 ≤ n ∧ n < 0xDC00 ∧ 0xDC00 ≤ m ∧ m < 0xE000) := by omega
      exact (if_neg hpair).trans (if_neg hsingle)

/-- The pieces of characters are joined to them. -/
theorem joinPieces_map_pieceOf (cs : List Char) : joinPieces (cs.map pieceOf) = some cs := by
  induction cs with
  | nil => rfl
  | cons c cs ih =>
    rw [List.map_cons, pieceOf]
    split
    next h =>
      rw [joinPieces_unit (Nat.lt_trans h.1 (by decide)), ih, Option.map_some, Char.ofNat_toNat]
    next => rw [joinPieces, ih, Option.map_some]

/-- A text is read back from between its quotes. -/
theorem readText_escape (s : String) (rest : List Char) :
    readText (s.toList.flatMap escape ++ '"' :: rest) = some (some s, rest) := by
  rw [readText, readPieces_flatMap_escape, List.reverse_nil, List.nil_append, Option.map_some,
    joinPieces_map_pieceOf, Option.map_some, String.ofList_toList]

/-! ## Values -/

/-- A value that a text can be read as, with numbers that are natural and texts of characters. -/
inductive Plain : Json → Prop where
  | null : Plain null
  | flag (b : Bool) : Plain (flag b)
  | natural (n : Nat) : Plain (natural n)
  | text (s : String) : Plain (text s)
  | list {items : List Json} : (∀ j ∈ items, Plain j) → Plain (list items)
  | record {fields : List (String × Json)} : (∀ f ∈ fields, Plain f.2) → Plain (record fields)

variable {l : Layout}

theorem toDigits_eq_cons (n : Nat) :
    ∃ d ds, Nat.toDigits 10 n = d :: ds ∧ d.isDigit = true := by
  cases hds : Nat.toDigits 10 n with
  | nil => exact absurd hds Nat.toDigits_ne_nil
  | cons d ds =>
    have hd : d ∈ Nat.toDigits 10 n := hds ▸ List.mem_cons_self
    exact ⟨d, ds, rfl, Nat.isDigit_of_mem_toDigits (by decide) (by decide) hd⟩

/-- A value begins with a character of its own. -/
theorem exists_head_render {j : Json} (h : Plain j) (level : Nat) :
    ∃ c cs, l.render level j = c :: cs ∧ isBlank c = false ∧ c ≠ ']' := by
  cases h with
  | null => exact ⟨_, _, rfl, by decide, by decide⟩
  | flag b => cases b <;> exact ⟨_, _, rfl, by decide, by decide⟩
  | natural n =>
    obtain ⟨d, ds, hds, hdigit⟩ := toDigits_eq_cons n
    exact ⟨d, ds, hds, isBlank_of_isDigit hdigit, by rintro rfl; exact absurd hdigit (by decide)⟩
  | text s => exact ⟨_, _, rfl, by decide, by decide⟩
  | @list items _ => cases items <;> exact ⟨_, _, rfl, by decide, by decide⟩
  | @record fields _ => cases fields <;> exact ⟨_, _, rfl, by decide, by decide⟩

/-- A value is read back from its text, whatever blanks stand before it. -/
def ReadBack (l : Layout) (j : Json) : Prop :=
  ∀ (level fuel : Nat) (ws rest : List Char), (∀ c ∈ ws, isBlank c = true) →
    2 * (l.render level j).length ≤ fuel → EndsNumber rest →
    readValue fuel (ws ++ (l.render level j ++ rest)) = some (j, rest)

/-- What may stand behind an item or a field ends it. -/
theorem endsNumber_cons {c : Char} (hc : c ∈ [',', ']', '\x7d']) (rest : List Char) :
    EndsNumber (c :: rest) := by
  intro d hd
  obtain rfl : c = d := Option.some.inj hd
  have hall : [',', ']', '\x7d'].all
      (fun c => !c.isDigit && c != '.' && c != 'e' && c != 'E') = true := by decide
  have hends := List.all_eq_true.1 hall c hc
  simp only [Bool.and_eq_true, Bool.not_eq_true', bne_iff_ne] at hends
  exact ⟨hends.1.1.1, hends.1.1.2, hends.1.2, hends.2⟩

theorem skipBlanks_cons {c : Char} (hc : isBlank c = false) (rest : List Char) :
    skipBlanks (c :: rest) = c :: rest :=
  skipBlanks_append (List.forall_mem_nil _) hc rest

/-- The items of a list are read back up to the closing bracket. -/
theorem readItems_render {level : Nat} {rest : List Char} (items : List Json) (j : Json)
    (h : ∀ i ∈ j :: items, ReadBack l i) (acc : List Json) (fuel : Nat) (ws : List Char)
    (hws : ∀ c ∈ ws, isBlank c = true)
    (hfuel : 2 * ((l.render (level + 1) j).length + (l.renderItems level [','] items).length) + 1
      ≤ fuel) :
    readItems fuel acc (ws ++ (l.render (level + 1) j
        ++ (l.renderItems level [','] items ++ (l.gap level ++ ']' :: rest))))
      = some (list (acc.reverse ++ j :: items), rest) := by
  -- along the items that follow, for any items read before
  induction items generalizing j acc fuel ws with
  | nil =>
    obtain ⟨fuel, rfl⟩ : ∃ k, fuel = k + 1 := ⟨fuel - 1, by omega⟩
    -- a bracket comes next, perhaps behind blanks, and a number ends before either
    have hitem := h j List.mem_cons_self (level + 1) fuel ws (l.gap level ++ ']' :: rest) hws
      (by omega) (endsNumber_append (l.gap_blank level) (endsNumber_cons (by decide) rest))
    rw [renderItems, List.nil_append, readItems, hitem]
    dsimp only
    rw [skipBlanks_append (l.gap_blank level) (by decide)]
    simp
  | cons i items ih =>
    obtain ⟨fuel, rfl⟩ : ∃ k, fuel = k + 1 := ⟨fuel - 1, by omega⟩
    rw [renderItems] at hfuel ⊢
    simp only [List.length_append, List.length_singleton] at hfuel
    have hitem := h j List.mem_cons_self (level + 1) fuel ws
      (',' :: (l.gap (level + 1) ++ (l.render (level + 1) i
        ++ (l.renderItems level [','] items ++ (l.gap level ++ ']' :: rest))))) hws
      (by omega) (endsNumber_cons (by decide) _)
    have htail := ih i (fun k hk => h k (List.mem_cons_of_mem _ hk)) (j :: acc) fuel
      (l.gap (level + 1)) (l.gap_blank _) (by omega)
    simp only [List.append_assoc, List.cons_append, List.nil_append]
    rw [readItems, hitem]
    dsimp only
    rw [skipBlanks_cons (by decide)]
    simpa using htail

/-- Fields with names of characters make a record. -/
theorem recordOf_some (fields : List (String × Json)) :
    recordOf (fields.map fun f => (some f.1, f.2)) = record fields := by
  have hnamed : (fields.map fun f => (some f.1, f.2)).mapM
      (fun f : Option String × Json => f.1.map (·, f.2)) = some fields := by
    induction fields with
    | nil => rfl
    | cons f fields ih =>
      rw [List.map_cons, List.mapM_cons, ih]
      rfl
  rw [recordOf, hnamed]

/-- The fields of a record are read back up to the closing brace. -/
theorem readFields_render {level : Nat} {rest : List Char} (fields : List (String × Json))
    (f : String × Json) (h : ∀ g ∈ f :: fields, ReadBack l g.2) (acc : List (String × Json))
    (fuel : Nat) (ws : List Char) (hws : ∀ c ∈ ws, isBlank c = true)
    (hfuel : 2 * ((l.render (level + 1) f.2).length
      + (l.renderFields level [','] fields).length) + 1 ≤ fuel) :
    readFields fuel (acc.map fun g => (some g.1, g.2)) (ws ++ (quoted f.1 ++ (':' :: (l.colon
        ++ (l.render (level + 1) f.2
          ++ (l.renderFields level [','] fields ++ (l.gap level ++ '\x7d' :: rest)))))))
      = some (record (acc.reverse ++ f :: fields), rest) := by
  -- along the fields that follow, for any fields read before
  induction fields generalizing f acc fuel ws with
  | nil =>
    obtain ⟨fuel, rfl⟩ : ∃ k, fuel = k + 1 := ⟨fuel - 1, by omega⟩
    have hvalue := h f List.mem_cons_self (level + 1) fuel l.colon (l.gap level ++ '\x7d' :: rest)
      l.colon_blank (by omega)
      (endsNumber_append (l.gap_blank level) (endsNumber_cons (by decide) rest))
    have hrecord := recordOf_some (acc.reverse ++ [f])
    rw [renderFields, List.nil_append, readFields, quoted_append, skipBlanks_append hws (by decide)]
    simp only [readText_escape]
    rw [skipBlanks_cons (by decide)]
    simp only [hvalue]
    rw [skipBlanks_append (l.gap_blank level) (by decide)]
    simpa using hrecord
  | cons g fields ih =>
    obtain ⟨fuel, rfl⟩ : ∃ k, fuel = k + 1 := ⟨fuel - 1, by omega⟩
    rw [renderFields] at hfuel ⊢
    simp only [List.length_append, List.length_cons] at hfuel
    have hvalue := h f List.mem_cons_self (level + 1) fuel l.colon
      (',' :: (l.gap (level + 1) ++ (quoted g.1 ++ (':' :: (l.colon ++ (l.render (level + 1) g.2
        ++ (l.renderFields level [','] fields ++ (l.gap level ++ '\x7d' :: rest))))))))
      l.colon_blank (by omega) (endsNumber_cons (by decide) _)
    have htail := ih g (fun k hk => h k (List.mem_cons_of_mem _ hk)) (f :: acc) fuel
      (l.gap (level + 1)) (l.gap_blank _) (by omega)
    simp only [List.append_assoc, List.cons_append, List.nil_append]
    rw [readFields, quoted_append f.1, skipBlanks_append hws (by decide)]
    simp only [readText_escape]
    rw [skipBlanks_cons (by decide)]
    simp only [hvalue]
    rw [skipBlanks_cons (by decide)]
    simpa using htail

theorem readValue_of_digit {d : Char} (hd : d.isDigit = true) {cs more : List Char}
    (hcs : skipBlanks cs = d :: more) (fuel : Nat) :
    readValue (fuel + 1) cs = readNumber (d :: more) := by
  unfold readValue
  rw [hcs]
  -- every other value begins with a character that is no digit
  split
  all_goals first
    | rfl
    | (rename_i heq; cases heq; cases hd)

/-- The blanks before a value are skipped, and a step is left to read it. -/
theorem ReadBack.of_skipped {j : Json} (h : Plain j)
    (hread : ∀ level fuel cs rest, skipBlanks cs = l.render level j ++ rest →
      2 * (l.render level j).length ≤ fuel + 1 → EndsNumber rest →
      readValue (fuel + 1) cs = some (j, rest)) : ReadBack l j := by
  intro level fuel ws rest hws hfuel hrest
  obtain ⟨c, cs, hhead, hblank, -⟩ := @exists_head_render l j h level
  have hlength : 0 < (l.render level j).length := by
    rw [hhead]
    exact Nat.succ_pos _
  obtain ⟨fuel, rfl⟩ : ∃ k, fuel = k + 1 := ⟨fuel - 1, by omega⟩
  refine hread level fuel _ rest ?_ hfuel hrest
  rw [hhead]
  exact skipBlanks_append hws hblank _

/-- **A value is read back** from what is written for it in any layout. -/
theorem readBack_of_plain {j : Json} (h : Plain j) : ReadBack l j := by
  induction h with
  | null =>
    refine .of_skipped .null fun level fuel cs rest hcs _ _ => ?_
    rw [readValue, hcs]
    rfl
  | flag b =>
    refine .of_skipped (.flag b) fun level fuel cs rest hcs _ _ => ?_
    rw [readValue, hcs]
    cases b <;> rfl
  | natural n =>
    refine .of_skipped (.natural n) fun level fuel cs rest hcs _ hrest => ?_
    obtain ⟨d, ds, hds, hd⟩ := toDigits_eq_cons n
    rw [render, hds] at hcs
    rw [List.cons_append] at hcs
    rw [readValue_of_digit hd hcs, ← List.cons_append, ← hds]
    exact readNumber_toDigits n hrest
  | text s =>
    refine .of_skipped (.text s) fun level fuel cs rest hcs _ _ => ?_
    rw [render, quoted_append] at hcs
    rw [readValue, hcs]
    simp only [readText_escape, Option.map_some]
  | @list items hitems ih =>
    refine .of_skipped (.list hitems) fun level fuel cs rest hcs hfuel _ => ?_
    rw [readValue, hcs]
    cases items with
    | nil => rfl
    | cons j items =>
      rw [render, renderItems] at hfuel
      simp only [List.length_append, List.length_cons, List.length_nil] at hfuel
      obtain ⟨c, more, hhead, hblank, hclose⟩ :=
        @exists_head_render l j (hitems j List.mem_cons_self) (level + 1)
      have hread := @readItems_render l level rest items j ih [] fuel [] (List.forall_mem_nil _)
        (by omega)
      simp only [render, renderItems, List.nil_append, List.append_assoc, List.cons_append]
      -- the first item does not close the list
      rw [hhead] at hread ⊢
      rw [List.cons_append, skipBlanks_append (l.gap_blank _) hblank]
      split
      next hbracket => exact absurd (List.cons.inj hbracket).1 hclose
      next => exact hread
  | @record fields hfields ih =>
    refine .of_skipped (.record hfields) fun level fuel cs rest hcs hfuel _ => ?_
    rw [readValue, hcs]
    cases fields with
    | nil => rfl
    | cons f fields =>
      rw [render, renderFields] at hfuel
      simp only [List.length_append, List.length_cons, List.length_nil] at hfuel
      have hread := @readFields_render l level rest fields f ih [] fuel []
        (List.forall_mem_nil _) (by omega)
      simp only [render, renderFields, List.nil_append, List.append_assoc, List.cons_append]
      rw [quoted_append] at hread ⊢
      rw [skipBlanks_append (l.gap_blank _) (by decide)]
      simpa using hread

/-- A text that is a value in some layout is parsed as that value. -/
theorem parse_of_render {j : Json} (h : Plain j) (level : Nat) {s : String}
    (hs : s.toList = l.render level j) : parse s = some j := by
  have hread := @readBack_of_plain l j h level (2 * s.toList.length + 2) [] []
    (List.forall_mem_nil _) (by rw [hs]; omega) endsNumber_nil
  rw [List.nil_append, List.append_nil, ← hs] at hread
  rw [parse, hread]
  rfl

theorem parse_compact {j : Json} (h : Plain j) : parse (compact j) = some j :=
  parse_of_render h 0 (toList_compactOnto "" 0 j)

theorem parse_pretty {j : Json} (h : Plain j) (level : Nat) : parse (pretty level j) = some j :=
  parse_of_render h level (toList_prettyOnto "" level j)

end CardEffects.Json
