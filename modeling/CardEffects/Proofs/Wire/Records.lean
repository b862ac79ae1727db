/-
  CardEffects.Proofs.Wire.Records

  How values may be written as JSON, and that they are read back from it.  A way of writing is a
  relation between a value and the JSON values that stand for it; a decoder is sound for it if it
  takes each of these to the value.  Lists, optional values, maps and records are written by way of
  their parts.

    * `Faithful` — a decoder that reads back whatever is written in a given way.
    * `Faithful.list`, `Faithful.option`, `Faithful.enumMap` — the parts give the whole.
    * `WrittenAs` — the records of a structure: its fields in any order, some of those left out
      that may be, and fields that the structure does not know among them.
    * `WrittenAs.exists_fields` — each field of such a record is found, or was left out.
-/
import CardEffects.Json.Decode
import Mathlib.Data.List.Forall2
import Mathlib.Data.List.Nodup

namespace CardEffects

/-! ## Maps -/

namespace EnumMap

variable {κ : Type} [DecidableEq κ] [Enumeration κ] {α : Type}

/-- Entries are stored one after the other. -/
theorem get?_foldl_insert (entries : List (κ × α)) (hkeys : (entries.map Prod.fst).Nodup)
    (m : EnumMap κ α) (k : κ) (v : α) :
    (entries.foldl (fun m e => m.insert e.1 e.2) m).get? k = some v
      ↔ (k, v) ∈ entries ∨ k ∉ entries.map Prod.fst ∧ m.get? k = some v := by
  -- along the entries, for any map that they are stored in
  induction entries generalizing m with
  | nil => simp
  | cons e entries ih =>
    obtain ⟨l, w⟩ := e
    rw [List.map_cons, List.nodup_cons] at hkeys
    rw [List.foldl_cons, ih hkeys.2, get?_insert]
    by_cases hk : k = l
    · -- the key just stored does not occur again
      have hnot (v : α) : (l, v) ∉ entries := fun h => hkeys.1 (List.mem_map.2 ⟨_, h, rfl⟩)
      subst hk
      simp [hkeys.1, hnot, eq_comm]
    · simp [hk]

/-- A map made of entries with different keys stores these entries. -/
theorem get?_ofList {entries : List (κ × α)} (hkeys : (entries.map Prod.fst).Nodup) (k : κ)
    (v : α) : (ofList entries).get? k = some v ↔ (k, v) ∈ entries := by
  rw [ofList, get?_foldl_insert entries hkeys, get?_empty]
  simp

theorem keys_toList_sublist (m : EnumMap κ α) :
    (m.toList.map Prod.fst).Sublist (Enumeration.all : List κ) := by
  unfold toList
  induction (Enumeration.all : List κ) with
  | nil => exact .slnil
  | cons k l ih =>
    cases hk : m.get? k with
    | none => simpa [hk] using ih.cons k
    | some v => simpa [hk] using ih.cons_cons k

/-- No key has two entries. -/
theorem nodup_keys_toList (m : EnumMap κ α) : (m.toList.map Prod.fst).Nodup :=
  m.keys_toList_sublist.nodup Enumeration.nodup_all

/-- A map is made again of its entries in any order. -/
theorem ofList_eq_of_perm {m : EnumMap κ α} {entries : List (κ × α)}
    (h : entries.Perm m.toList) : ofList entries = m := by
  have hkeys : (entries.map Prod.fst).Nodup := (h.map Prod.fst).nodup_iff.2 m.nodup_keys_toList
  refine ext fun k => Option.ext fun v => ?_
  rw [get?_ofList hkeys, h.mem_iff, mem_toList]

end EnumMap

namespace Json

variable {α β : Type}

/-! ## Ways of writing -/

/-- A decoder that takes whatever a value is written as back to the value. -/
def Faithful (writes : α → Json → Prop) (decode : Json → Option α) : Prop :=
  ∀ a j, writes a j → decode j = some a

/-- What an encoder writes. -/
def Encoded (encode : α → Json) (a : α) (j : Json) : Prop := j = encode a

theorem encoded_self (encode : α → Json) (a : α) : Encoded encode a (encode a) := rfl

theorem Faithful.encoded {encode : α → Json} {decode : Json → Option α}
    (h : ∀ a, decode (encode a) = some a) : Faithful (Encoded encode) decode := by
  rintro a j rfl
  exact h a

/-! ### Leaves and variants -/

@[simp] theorem variant?_text (name : String) : variant? (text name) = some (name, none) := rfl

@[simp] theorem variant?_variant (name : String) (content : Json) :
    variant? (variant name content) = some (name, some content) :=
  rfl

@[simp] theorem word?_word (n : Word) : word? (word n) = some n := Word.ofNat?_toNat n

@[simp] theorem flag?_flag (b : Bool) : flag? (flag b) = some b := rfl

@[simp] theorem text?_text (s : String) : text? (text s) = some s := rfl

@[simp] theorem label?_label {κ : Type} [Labelled κ] (k : κ) :
    label? (text (Labelled.label k)) = some k :=
  Labelled.ofLabel?_label k

theorem faithful_word : Faithful (Encoded word) word? := .encoded word?_word

theorem faithful_flag : Faithful (Encoded flag) flag? := .encoded flag?_flag

theorem faithful_text : Faithful (Encoded text) text? := .encoded text?_text

/-- The label of a member of an enumeration. -/
def labelText {κ : Type} [Labelled κ] (k : κ) : Json := text (Labelled.label k)

theorem faithful_label {κ : Type} [Labelled κ] : Faithful (Encoded (@labelText κ _)) label? :=
  .encoded label?_label

/-! ### Lists -/

/-- A list of what its items are written as. -/
def ListOf (writes : α → Json → Prop) (l : List α) (j : Json) : Prop :=
  ∃ items, j = list items ∧ List.Forall₂ writes l items

theorem mapM_eq_some_of_forall₂ {decode : β → Option α} {l : List α} {items : List β}
    (h : List.Forall₂ (fun a b => decode b = some a) l items) : items.mapM decode = some l := by
  induction h with
  | nil => rfl
  | cons hab _ ih => simp [List.mapM_cons, hab, ih]

theorem Faithful.list {writes : α → Json → Prop} {decode : Json → Option α}
    (h : Faithful writes decode) : Faithful (ListOf writes) (list? decode) := by
  rintro l _ ⟨items, rfl, hitems⟩
  exact mapM_eq_some_of_forall₂ (hitems.imp fun a j => h a j)

theorem listOf_ofList {writes : α → Json → Prop} {encode : α → Json}
    (h : ∀ a, writes a (encode a)) (l : List α) : ListOf writes l (ofList encode l) := by
  refine ⟨l.map encode, rfl, ?_⟩
  rw [List.forall₂_map_right_iff, List.forall₂_same]
  exact fun a _ => h a

@[simp] theorem list?_ofList {encode : α → Json} {decode : Json → Option α}
    (h : ∀ a, decode (encode a) = some a) (l : List α) :
    list? decode (ofList encode l) = some l :=
  (Faithful.encoded h).list l _ (listOf_ofList (encoded_self encode) l)

@[simp] theorem list?_texts (l : List String) : list? text? (texts l) = some l :=
  list?_ofList text?_text l

/-! ### Optional values -/

/-- Null, or what the value is written as. -/
def OptionOf (writes : α → Json → Prop) : Option α → Json → Prop
  | none, j => j = null
  | some a, j => writes a j

theorem Faithful.option {writes : α → Json → Prop} {decode : Json → Option α}
    (h : Faithful writes decode) (hnull : ∀ a, ¬ writes a null) :
    Faithful (OptionOf writes) (option? decode) := by
  rintro o j hj
  cases o with
  | none => rw [show j = null from hj, option?]
  | some a =>
    unfold option?
    split
    next => exact absurd hj (hnull a)
    next => rw [h a j hj, Option.map_some]

theorem optionOf_ofOption {writes : α → Json → Prop} {encode : α → Json}
    (h : ∀ a, writes a (encode a)) (o : Option α) : OptionOf writes o (ofOption encode o) := by
  cases o with
  | none => exact rfl
  | some a => exact h a

@[simp] theorem option?_ofOption {encode : α → Json} {decode : Json → Option α}
    (h : ∀ a, decode (encode a) = some a) (hnull : ∀ a, null ≠ encode a) (o : Option α) :
    option? decode (ofOption encode o) = some o :=
  (Faithful.encoded h).option hnull o _
    (optionOf_ofOption (encoded_self encode) o)

/-! ### Maps -/

/-- A record with the entries of a map, in any order. -/
def MapOf {κ : Type} [DecidableEq κ] [Labelled κ] (writes : α → Json → Prop) (m : EnumMap κ α)
    (j : Json) : Prop :=
  ∃ entries fields, j = record fields ∧ entries.Perm m.toList
    ∧ List.Forall₂ (fun e f => f.1 = Labelled.label e.1 ∧ writes e.2 f.2) entries fields

theorem Faithful.enumMap {κ : Type} [DecidableEq κ] [Labelled κ] {writes : α → Json → Prop}
    {decode : Json → Option α} (h : Faithful writes decode) :
    Faithful (@MapOf α κ _ _ writes) (enumMap? decode) := by
  rintro m _ ⟨entries, fields, rfl, hperm, hfields⟩
  -- the entries come out in the order of the record, and the map does not keep it
  have hread : (fields.mapM fun f => do
      let k ← (Labelled.ofLabel? f.1 : Option κ)
      let v ← decode f.2
      some (k, v)) = some entries := by
    refine mapM_eq_some_of_forall₂ (hfields.imp ?_)
    rintro ⟨k, v⟩ ⟨name, j⟩ ⟨rfl, hv⟩
    simp [h v j hv]
  rw [enumMap?, hread]
  exact congrArg some (EnumMap.ofList_eq_of_perm hperm)

theorem mapOf_ofEnumMap {κ : Type} [DecidableEq κ] [Labelled κ] {writes : α → Json → Prop}
    {encode : α → Json} (h : ∀ a, writes a (encode a)) (m : EnumMap κ α) :
    MapOf writes m (ofEnumMap encode m) := by
  refine ⟨m.toList, _, rfl, .refl _, ?_⟩
  rw [List.forall₂_map_right_iff, List.forall₂_same]
  exact fun e _ => ⟨rfl, h e.2⟩

/-! ## Records -/

/-- The fields of a record with one name. -/
abbrev named (name : String) (fields : List (String × Json)) : List (String × Json) :=
  fields.filter fun f => f.1 == name

/-- What the fields of a record say about the field of a name. -/
def found (fields : List (String × Json)) (name : String) : Field :=
  match fields.lookup name with
  | some value => .given value
  | none => .missing

@[simp] theorem found_cons_self (name : String) (value : Json) (fields : List (String × Json)) :
    found ((name, value) :: fields) name = .given value := by
  simp [found]

@[simp] theorem found_cons_of_ne {name other : String} (h : other ≠ name) (value : Json)
    (fields : List (String × Json)) : found ((other, value) :: fields) name = found fields name := by
  rw [found, List.lookup_cons, beq_false_of_ne h.symm]
  rfl

theorem found_eq (name : String) (fields : List (String × Json)) :
    found fields name = ((named name fields).head?.map fun f => Field.given f.2).getD .missing := by
  induction fields with
  | nil => rfl
  | cons f fields ih =>
    obtain ⟨other, value⟩ := f
    by_cases hother : other = name
    · subst hother
      simp
    · rw [found_cons_of_ne hother, named, List.filter_cons_of_neg (by simpa using hother)]
      exact ih

/-- A record has the fields of a structure if none of them occurs twice. -/
theorem fields?_eq_found {names : List String} {fields : List (String × Json)}
    (h : ∀ n ∈ names, (named n fields).length ≤ 1) :
    fields? names (record fields) = some (found fields) := by
  refine if_pos (List.all_eq_true.2 fun n hn => ?_)
  rw [decide_eq_true_iff, List.countP_eq_length_filter]
  exact h n hn

/-- The record of all fields of a structure. -/
@[simp] theorem fields?_record {names : List String} {fields : List (String × Json)}
    (heq : fields.map Prod.fst = names) (hnames : names.Nodup) :
    fields? names (record fields) = some (found fields) := by
  subst heq
  refine fields?_eq_found fun n _ => ?_
  have hcount := List.nodup_iff_count_le_one.1 hnames n
  rwa [List.count, List.countP_map, List.countP_eq_length_filter] at hcount

@[simp] theorem structure?_record {names : List String} {fields : List (String × Json)}
    (heq : fields.map Prod.fst = names) (hnames : names.Nodup) :
    structure? names (record fields) = some (found fields) :=
  fields?_record heq hnames

@[simp] theorem Field.required_given (decode : Json → Option α) (j : Json) :
    (Field.given j).required decode = decode j :=
  rfl

@[simp] theorem Field.optional_given (decode : Json → Option α) (j : Json) :
    (Field.given j).optional decode = option? decode j :=
  rfl

/-! ### Ways of writing a structure -/

/-- A field of a structure: its name, what may be written there, and whether the field may be left
out. -/
structure Slot where
  name : String
  writes : Json → Prop
  omittable : Prop

/-- Fields of a record that hold some slots, in order; of the others each may be left out. -/
inductive Fill : List Slot → List (String × Json) → Prop where
  | nil : Fill [] []
  | written {s : Slot} {slots : List Slot} {fields : List (String × Json)} {value : Json} :
      s.writes value → Fill slots fields → Fill (s :: slots) ((s.name, value) :: fields)
  | leftOut {s : Slot} {slots : List Slot} {fields : List (String × Json)} :
      s.omittable → Fill slots fields → Fill (s :: slots) fields

/-- A record that holds some slots, in any order and with unknown fields among them. -/
def WrittenAs (slots : List Slot) (j : Json) : Prop :=
  ∃ fields known unknown, j = record fields ∧ fields.Perm (known ++ unknown) ∧ Fill slots known
    ∧ ∀ f ∈ unknown, f.1 ∉ slots.map Slot.name

/-- What is found of a slot. -/
def Slot.Holds (s : Slot) : Field → Prop
  | .given value => s.writes value
  | .missing => s.omittable
  | .cutOff => False

theorem Fill.mem_names {slots : List Slot} {fields : List (String × Json)} (h : Fill slots fields)
    {f : String × Json} (hf : f ∈ fields) : f.1 ∈ slots.map Slot.name := by
  induction h with
  | nil => cases hf
  | written _ _ ih =>
    rcases List.mem_cons.1 hf with rfl | hf
    · exact List.mem_cons_self
    · exact List.mem_cons_of_mem _ (ih hf)
  | leftOut _ _ ih => exact List.mem_cons_of_mem _ (ih hf)

theorem named_eq_nil {name : String} {fields : List (String × Json)}
    (h : ∀ f ∈ fields, f.1 ≠ name) : named name fields = [] :=
  List.filter_eq_nil_iff.2 fun f hf => by simpa using h f hf

/-- A slot has one field, or none where it was left out. -/
theorem Fill.named_cases {slots : List Slot} {fields : List (String × Json)}
    (h : Fill slots fields) (hnames : (slots.map Slot.name).Nodup) {s : Slot} (hs : s ∈ slots) :
    (∃ value, s.writes value ∧ named s.name fields = [(s.name, value)])
      ∨ s.omittable ∧ named s.name fields = [] := by
  -- along the slots; as names differ, no later field has the name of the first slot
  induction h with
  | nil => cases hs
  | @written t slots fields value hvalue hrest ih =>
    rw [List.map_cons, List.nodup_cons] at hnames
    rcases List.mem_cons.1 hs with rfl | hs
    · refine .inl ⟨value, hvalue, ?_⟩
      rw [named, List.filter_cons_of_pos (by simp), ← named, named_eq_nil]
      exact fun f hf heq => hnames.1 (heq ▸ hrest.mem_names hf)
    · have hne : t.name ≠ s.name := fun heq => hnames.1 (heq ▸ List.mem_map_of_mem hs)
      rw [named, List.filter_cons_of_neg (by simpa using hne)]
      exact ih hnames.2 hs
  | @leftOut t slots fields homit hrest ih =>
    rw [List.map_cons, List.nodup_cons] at hnames
    rcases List.mem_cons.1 hs with rfl | hs
    · refine .inr ⟨homit, named_eq_nil ?_⟩
      exact fun f hf heq => hnames.1 (heq ▸ hrest.mem_names hf)
    · exact ih hnames.2 hs

/-- In a record the fields known are found alike, whatever the order and the unknown fields. -/
theorem WrittenAs.named_cases {slots : List Slot} {fields : List (String × Json)}
    (h : WrittenAs slots (record fields)) (hnames : (slots.map Slot.name).Nodup) {s : Slot}
    (hs : s ∈ slots) :
    (∃ value, s.writes value ∧ named s.name fields = [(s.name, value)])
      ∨ s.omittable ∧ named s.name fields = [] := by
  obtain ⟨_, known, unknown, heq, hperm, hfill, hunknown⟩ := h
  obtain rfl := record.inj heq
  have hknown : (named s.name fields).Perm (named s.name known) := by
    -- an unknown field has another name
    have hnone : named s.name unknown = [] :=
      named_eq_nil fun f hf heq => hunknown f hf (heq ▸ List.mem_map_of_mem hs)
    have hall := hperm.filter fun f => f.1 == s.name
    rwa [List.filter_append, show List.filter _ unknown = [] from hnone, List.append_nil] at hall
  rcases hfill.named_cases hnames hs with ⟨value, hvalue, hone⟩ | ⟨homit, hnone⟩
  · -- the order does not matter to a list of one field
    rw [hone, List.perm_singleton] at hknown
    exact .inl ⟨value, hvalue, hknown⟩
  · rw [hnone, List.perm_nil] at hknown
    exact .inr ⟨homit, hknown⟩

/-- The fields of such a record are found, each with what was written there. -/
theorem WrittenAs.exists_fields {slots : List Slot} {j : Json} (h : WrittenAs slots j)
    {names : List String} (heq : slots.map Slot.name = names) (hnames : names.Nodup) :
    ∃ field, structure? names j = some field
      ∧ slots.Forall fun s => s.Holds (field s.name) := by
  subst heq
  obtain ⟨fields, -, -, rfl, -⟩ := id h
  refine ⟨found fields, fields?_eq_found ?_, List.forall_iff_forall_mem.2 ?_⟩
  · intro n hn
    obtain ⟨s, hs, rfl⟩ := List.mem_map.1 hn
    rcases h.named_cases hnames hs with ⟨value, -, hone⟩ | ⟨-, hnone⟩
    · rw [hone]
      exact Nat.le_refl 1
    · rw [hnone]
      exact Nat.zero_le 1
  · intro s hs
    rw [found_eq]
    rcases h.named_cases hnames hs with ⟨value, hvalue, hone⟩ | ⟨homit, hnone⟩
    · rw [hone]
      exact hvalue
    · rw [hnone]
      exact homit

/-- What a decoder gives for such a record, from what it makes of the fields. -/
theorem WrittenAs.structure?_bind {slots : List Slot} {j : Json} (h : WrittenAs slots j)
    {names : List String} {read : (String → Field) → Option α} {a : α}
    (heq : slots.map Slot.name = names) (hnames : names.Nodup)
    (hread : ∀ field, (slots.Forall fun s => s.Holds (field s.name)) → read field = some a) :
    (structure? names j >>= read) = some a := by
  obtain ⟨field, hfield, hholds⟩ := h.exists_fields heq hnames
  rw [hfield]
  exact hread field hholds

/-- No such record is null. -/
theorem WrittenAs.ne_null {slots : List Slot} : ¬ WrittenAs slots null := by
  rintro ⟨_, _, _, h, -⟩
  cases h

theorem fill_all {slots : List Slot} {fields : List (String × Json)}
    (heq : fields.map Prod.fst = slots.map Slot.name)
    (h : (slots.zip fields).Forall fun p => p.1.writes p.2.2) : Fill slots fields := by
  induction slots generalizing fields with
  | nil =>
    obtain rfl := List.map_eq_nil_iff.1 heq
    exact .nil
  | cons s slots ih =>
    cases fields with
    | nil => cases heq
    | cons f fields =>
      obtain ⟨name, value⟩ := f
      rw [List.map_cons, List.map_cons, List.cons.injEq] at heq
      obtain ⟨rfl, heq⟩ := heq
      rw [List.zip_cons_cons, List.forall_cons] at h
      exact .written h.1 (ih heq h.2)

/-- The record of all fields, in order. -/
theorem writtenAs_record {slots : List Slot} {fields : List (String × Json)}
    (heq : fields.map Prod.fst = slots.map Slot.name)
    (h : (slots.zip fields).Forall fun p => p.1.writes p.2.2) :
    WrittenAs slots (record fields) :=
  ⟨fields, fields, [], rfl, by rw [List.append_nil], fill_all heq h, by simp⟩

namespace Slot.Holds

variable {writes : α → Json → Prop} {decode : Json → Option α} {name : String} {a d : α}
  {omittable : Prop} {f : Field}

/-- A field that must be there. -/
theorem required (hf : Slot.Holds ⟨name, writes a, False⟩ f) (h : Faithful writes decode) :
    f.required decode = some a := by
  cases f with
  | given value => exact h a value hf
  | missing => exact hf.elim
  | cutOff => exact hf.elim

/-- A field that is left out only where it is the default. -/
theorem orDefault (hf : Slot.Holds ⟨name, writes a, a = d⟩ f) (h : Faithful writes decode) :
    f.orDefault d decode = some a := by
  cases f with
  | given value => exact h a value hf
  | missing => exact congrArg some (Eq.symm hf)
  | cutOff => exact hf.elim

/-- A field that may be null, or left out where it is. -/
theorem optional {o : Option α} (hf : Slot.Holds ⟨name, OptionOf writes o, o = none⟩ f)
    (h : Faithful writes decode) (hnull : ∀ a, ¬ writes a null) :
    f.optional decode = some o := by
  cases f with
  | given value => exact h.option hnull o value hf
  | missing => exact congrArg some (Eq.symm hf)
  | cutOff => exact hf.elim

end Slot.Holds

end Json

end CardEffects
