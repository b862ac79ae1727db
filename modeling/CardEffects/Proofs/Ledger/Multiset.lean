/-
  CardEffects.Proofs.Ledger.Multiset

  A pool is a multiset of units, and nothing else.  What any operations make of a pool is what the
  same operations make of plain counts, one for each type: attaching adds up to the largest count,
  discarding subtracts down to none.  A pool that operations have led to holds no type without a
  unit, so the counts determine it.

    * `UnitCounts` — counts of units, and what operations make of them; a discard of any type is
      said without its loop, by the units of the types before.
    * `EnergyPool.Operation`, `EnergyPool.after` — operations on a pool, one after the other.
    * `EnergyPool.count_discardInTurn`, `EnergyPool.discardInTurn_fst` — what discarding type by
      type leaves, and what it reports.
    * `EnergyPool.TakesInOrder`, `EnergyPool.takesInOrder_discardAny` — the report of a discard of
      any type.
    * `EnergyPool.after_canonical` — the law.
-/
import CardEffects.Proofs.ExtraEnergy
import CardEffects.Proofs.Ledger.Pool
import CardEffects.Proofs.Upkeep.Combatant

namespace CardEffects

/-! ## Counts -/

/-- The units of each type, as plain numbers. -/
abbrev UnitCounts := Energy → Nat

namespace UnitCounts

/-- No units of any type. -/
def none : UnitCounts := fun _ => 0

/-- Units of one type more, up to the largest count. -/
def attach (f : UnitCounts) (e : Energy) (n : Nat) : UnitCounts := fun t =>
  if t = e then min (f t + n) Word.limit else f t

/-- Units of one type fewer, down to none. -/
def discard (f : UnitCounts) (e : Energy) (n : Nat) : UnitCounts := fun t =>
  if t = e then f t - n else f t

/-- The units of the types that a list names before `t`. -/
def before (f : UnitCounts) (l : List Energy) (t : Energy) : Nat :=
  ((l.takeWhile (· ≠ t)).map f).sum

/-- Of `n` units taken type by type, those that are of type `t`: what the types before leave to be
taken, as far as there are units. -/
def taken (f : UnitCounts) (n : Nat) (l : List Energy) (t : Energy) : Nat :=
  min (f t) (n - f.before l t)

/-- `n` units fewer, whatever their types, the first types first. -/
def discardAny (f : UnitCounts) (n : Nat) : UnitCounts := fun t =>
  f t - f.taken n Enumeration.all t

/-- The given units attached to none. -/
def ofUnits (units : List (Energy × Word)) : UnitCounts :=
  units.foldl (fun f u => f.attach u.1 u.2.toNat) none

/-! ### Types in turn -/

variable {f g : UnitCounts} {e t : Energy} {l : List Energy}

theorem before_cons_self : f.before (t :: l) t = 0 := by simp [before]

theorem before_cons_of_ne (h : e ≠ t) : f.before (e :: l) t = f e + f.before l t := by
  simp [before, h]

theorem before_congr (h : ∀ e ∈ l, f e = g e) : f.before l t = g.before l t := by
  refine congrArg List.sum (List.map_congr_left fun e he => h e ?_)
  exact (List.takeWhile_sublist _).subset he

/-- Types without units make no difference to those behind them. -/
theorem before_filter {q : Energy → Bool} (hq : ∀ e, q e = false → f e = 0) (ht : q t = true) :
    f.before (l.filter q) t = f.before l t := by
  induction l with
  | nil => rfl
  | cons e l ih =>
    cases he : q e with
    | true =>
      rw [List.filter_cons_of_pos he]
      by_cases het : e = t
      · subst het
        rw [before_cons_self, before_cons_self]
      · rw [before_cons_of_ne het, before_cons_of_ne het, ih]
    | false =>
      have het : e ≠ t := fun h => by rw [h, ht] at he; cases he
      rw [List.filter_cons_of_neg (by simp [he]), ih, before_cons_of_ne het, hq e he, Nat.zero_add]

/-- A type comes before another one with all its units, and with those before it. -/
theorem before_add_le (hl : l.Pairwise fun e t => Enumeration.position e < Enumeration.position t)
    (he : e ∈ l) (ht : t ∈ l) (h : Enumeration.position e < Enumeration.position t) :
    f.before l e + f e ≤ f.before l t := by
  induction l with
  | nil => cases he
  | cons a l ih =>
    obtain ⟨hhead, hl⟩ := List.pairwise_cons.1 hl
    have het : e ≠ t := fun heq => Nat.lt_irrefl _ (heq ▸ h)
    rcases List.mem_cons.1 he with rfl | he
    · rw [before_cons_self, before_cons_of_ne het]
      omega
    · -- the head comes before `e`, so it is neither of the two
      have hae : a ≠ e := fun heq => Nat.lt_irrefl _ (heq ▸ hhead e he)
      have hat : a ≠ t := fun heq => Nat.lt_asymm h (heq ▸ hhead e he)
      have htl : t ∈ l := (List.mem_cons.1 ht).resolve_left (Ne.symm hat)
      have hrest := ih hl he htl
      rw [before_cons_of_ne hae, before_cons_of_ne hat]
      omega

/-- Type by type as many units are taken as are asked for, or as there are. -/
theorem sum_taken (f : UnitCounts) (n : Nat) (hl : l.Nodup) :
    (l.map (f.taken n l)).sum = min n (l.map f).sum := by
  induction l generalizing n with
  | nil => simp
  | cons e l ih =>
    obtain ⟨he, hl⟩ := List.nodup_cons.1 hl
    -- what the first type cannot give is taken of the others
    have hrest : l.map (f.taken n (e :: l)) = l.map (f.taken (n - f e) l) := by
      refine List.map_congr_left fun t ht => ?_
      have het : e ≠ t := fun heq => he (heq ▸ ht)
      rw [taken, taken, before_cons_of_ne het, Nat.sub_sub]
    have hhead : f.taken n (e :: l) e = min (f e) n := by rw [taken, before_cons_self, Nat.sub_zero]
    rw [List.map_cons, List.sum_cons, hrest, hhead, ih _ hl, List.map_cons, List.sum_cons]
    omega

end UnitCounts

namespace EnergyPool

/-- The counts of a pool. -/
def counts (p : EnergyPool) : UnitCounts := fun e => (p.count e).toNat

/-- The pool that is the map with the given counts, and has no entry where there is no unit. -/
def ofCounts (f : UnitCounts) : EnergyPool :=
  ⟨.tabulate fun e => if f e = 0 then none else some (Word.clamp (f e))⟩

/-- A tidy pool is the map with its counts. -/
theorem eq_ofCounts {p : EnergyPool} (h : p.Tidy) : p = ofCounts p.counts := by
  obtain ⟨units⟩ := p
  refine congrArg EnergyPool.mk (EnumMap.ext fun e => ?_)
  rw [EnumMap.get?_tabulate]
  cases he : units.get? e with
  | none =>
    have hnone : counts ⟨units⟩ e = 0 := congrArg UInt32.toNat (count_of_get?_none he)
    rw [if_pos hnone]
  | some n =>
    have hn : counts ⟨units⟩ e = n.toNat := congrArg UInt32.toNat (count_of_get? he)
    have hpos := Word.toNat_pos fun hzero => h e (he.trans (congrArg some hzero))
    rw [if_neg (by omega), hn, Word.clamp_toNat]

/-- A tidy pool is empty when it has no units. -/
theorem isEmpty_iff_count {p : EnergyPool} (h : p.Tidy) :
    p.isEmpty = true ↔ ∀ e, p.count e = 0 := by
  unfold isEmpty
  rw [EnumMap.isEmpty_iff]
  refine forall_congr' fun e => ⟨count_of_get?_none, fun hzero => ?_⟩
  cases he : p.units.get? e with
  | none => rfl
  | some n =>
    rw [count_of_get? he] at hzero
    exact absurd (he.trans (congrArg some hzero)) (h e)

/-! ## Discarding in turn -/

/-- The counts that a discard of one type leaves. -/
theorem counts_discard (p : EnergyPool) (e : Energy) (n : Word) :
    (p.discard e n).2.counts = p.counts.discard e n.toNat := by
  funext t
  have hunits := count_discard p e t n
  rw [discard_fst] at hunits
  show ((p.discard e n).2.count t).toNat = if t = e then (p.count t).toNat - n.toNat
    else (p.count t).toNat
  by_cases h : t = e
  · subst h
    rw [if_pos rfl] at hunits ⊢
    omega
  · rw [if_neg (Ne.symm h)] at hunits
    rw [if_neg h]
    omega

/-- Where nothing is left to be taken, discarding type by type changes nothing. -/
theorem discardInTurn_zero (p : EnergyPool) (l : List Energy) :
    p.discardInTurn 0 l = ([], p) := by
  cases l with
  | nil => rfl
  | cons e l => rw [discardInTurn, if_pos rfl]

theorem discardInTurn_cons (p : EnergyPool) {n : Word} (hn : n ≠ 0) (e : Energy)
    (l : List Energy) :
    p.discardInTurn n (e :: l)
      = (if (p.discard e n).1 = 0 then
            ((p.discard e n).2.discardInTurn (Word.sub n (p.discard e n).1) l).1
          else (e, (p.discard e n).1)
            :: ((p.discard e n).2.discardInTurn (Word.sub n (p.discard e n).1) l).1,
        ((p.discard e n).2.discardInTurn (Word.sub n (p.discard e n).1) l).2) := by
  rw [discardInTurn, if_neg hn]

section InTurn

variable {l : List Energy}

/-- What is left of `n` behind the first type is what that type could not give; for the types
behind it the units before them are the same with one type less. -/
theorem taken_behind (p : EnergyPool) (n : Word) {e t : Energy} (he : e ∉ l) (ht : t ∈ l) :
    (p.discard e n).2.counts.taken (Word.sub n (p.discard e n).1).toNat l t
      = p.counts.taken n.toNat (e :: l) t := by
  have het : e ≠ t := fun heq => he (heq ▸ ht)
  have hsame : ∀ s ∈ l, (p.discard e n).2.counts s = p.counts s := by
    intro s hs
    have hse : s ≠ e := fun heq => he (heq ▸ hs)
    rw [counts_discard, UnitCounts.discard, if_neg hse]
  have hgiven : p.counts e = (p.count e).toNat := rfl
  have hmin : n.toNat - min (p.counts e) n.toNat - p.counts.before l t
      = n.toNat - (p.counts e + p.counts.before l t) := by omega
  rw [UnitCounts.taken, UnitCounts.taken, UnitCounts.before_congr hsame, hsame t ht,
    UnitCounts.before_cons_of_ne het, Word.toNat_sub, discard_fst, ← hgiven, hmin]

/-- Discarding type by type leaves of each type what is not taken of it. -/
theorem count_discardInTurn (hl : l.Nodup) (p : EnergyPool) (n : Word) (t : Energy) :
    (p.discardInTurn n l).2.counts t
      = if t ∈ l then p.counts t - p.counts.taken n.toNat l t else p.counts t := by
  -- along the types; those behind the first are discarded from what it leaves
  induction l generalizing p n with
  | nil => rfl
  | cons e l ih =>
    obtain ⟨he, hl⟩ := List.nodup_cons.1 hl
    by_cases hn : n = 0
    · subst hn
      rw [discardInTurn_zero]
      simp [UnitCounts.taken]
    · rw [discardInTurn_cons p hn]
      dsimp only
      rw [ih hl]
      by_cases ht : t ∈ l
      · have het : t ≠ e := fun heq => he (heq ▸ ht)
        rw [if_pos ht, if_pos (List.mem_cons_of_mem _ ht), taken_behind p n he ht, counts_discard,
          UnitCounts.discard, if_neg het]
      · rw [if_neg ht, counts_discard, UnitCounts.discard]
        by_cases het : t = e
        · subst het
          rw [if_pos rfl, if_pos List.mem_cons_self, UnitCounts.taken,
            UnitCounts.before_cons_self]
          omega
        · rw [if_neg het, if_neg fun hmem => (List.mem_cons.1 hmem).elim het ht]

/-- Discarding type by type reports what is taken, leaving out types of which nothing is. -/
theorem discardInTurn_fst (hl : l.Nodup) (p : EnergyPool) (n : Word) :
    (p.discardInTurn n l).1
      = (l.map fun t => (t, Word.clamp (p.counts.taken n.toNat l t))).filter fun u => u.2 ≠ 0 := by
  induction l generalizing p n with
  | nil => rfl
  | cons e l ih =>
    obtain ⟨he, hl⟩ := List.nodup_cons.1 hl
    by_cases hn : n = 0
    · subst hn
      rw [discardInTurn_zero]
      simp [UnitCounts.taken, show Word.clamp 0 = 0 from rfl]
    · have hrest : (l.map fun t => (t, Word.clamp (p.counts.taken n.toNat (e :: l) t)))
          = l.map fun t => (t, Word.clamp ((p.discard e n).2.counts.taken
              (Word.sub n (p.discard e n).1).toNat l t)) :=
        List.map_congr_left fun t ht => by rw [taken_behind p n he ht]
      have hhead : Word.clamp (p.counts.taken n.toNat (e :: l) e) = (p.discard e n).1 := by
        have hgiven : p.counts e = (p.count e).toNat := rfl
        rw [UnitCounts.taken, UnitCounts.before_cons_self, Nat.sub_zero, hgiven, ← discard_fst,
          Word.clamp_toNat]
      rw [discardInTurn_cons p hn, List.map_cons, hrest, hhead, List.filter_cons, ← ih hl]
      by_cases hnone : (p.discard e n).1 = 0
      · simp [hnone]
      · simp [hnone]

end InTurn

/-! ## Discarding any type -/

section Any

variable (p : EnergyPool) (n : Word)

/-- A type that is not present has no units. -/
theorem counts_of_not_contains {e : Energy} (h : p.units.contains e = false) : p.counts e = 0 := by
  have hnone : p.units.get? e = none := by simpa [EnumMap.contains] using h
  exact congrArg UInt32.toNat (count_of_get?_none hnone)

/-- What is taken of the types present is taken of all types. -/
theorem taken_keys {t : Energy} (ht : p.units.contains t = true) :
    p.counts.taken n.toNat p.units.keys t = p.counts.taken n.toNat Enumeration.all t := by
  have hpresent : ∀ e, p.units.contains e = false → p.counts e = 0 :=
    fun _ => p.counts_of_not_contains
  rw [UnitCounts.taken, UnitCounts.taken, EnumMap.keys, UnitCounts.before_filter hpresent ht]

/-- A discard of any type leaves what the same discard leaves of the counts. -/
theorem counts_discardAny : (p.discardAny n).2.counts = p.counts.discardAny n.toNat := by
  funext t
  have hkeys : p.units.keys.Nodup := Enumeration.nodup_all.filter _
  rw [discardAny, count_discardInTurn hkeys, UnitCounts.discardAny]
  cases ht : p.units.contains t with
  | true =>
    rw [if_pos (by simp [EnumMap.keys, ht]), taken_keys p n ht]
  | false =>
    have hnone := p.counts_of_not_contains ht
    rw [if_neg (by simp [EnumMap.keys, ht]), hnone, Nat.zero_sub]

/-- Types that are left out and would report nothing make no difference to a report. -/
private theorem filter_map_filter {α β : Type} {q : α → Bool} {r : β → Bool} {f g : α → β}
    (hin : ∀ a, q a = true → f a = g a) (hout : ∀ a, q a = false → r (g a) = false)
    (l : List α) : ((l.filter q).map f).filter r = (l.map g).filter r := by
  induction l with
  | nil => rfl
  | cons a l ih =>
    cases ha : q a with
    | true =>
      rw [List.filter_cons_of_pos ha, List.map_cons, List.map_cons, List.filter_cons,
        List.filter_cons, hin a ha, ih]
    | false =>
      rw [List.filter_cons_of_neg (by simp [ha]), List.map_cons,
        List.filter_cons_of_neg (by simp [hout a ha]), ih]

/-- A discard of any type reports what is taken, type by type. -/
theorem discardAny_fst :
    (p.discardAny n).1
      = (Enumeration.all.map fun t =>
          (t, Word.clamp (p.counts.taken n.toNat Enumeration.all t))).filter fun u => u.2 ≠ 0 := by
  have hkeys : p.units.keys.Nodup := Enumeration.nodup_all.filter _
  rw [discardAny, discardInTurn_fst hkeys]
  refine filter_map_filter (fun t ht => by rw [taken_keys p n ht]) (fun t ht => ?_) _
  rw [UnitCounts.taken, p.counts_of_not_contains ht, Nat.zero_min]
  rfl

/-- What a discard of `n` units of any type comes to: what it reports, and the pool it leaves. -/
structure TakesInOrder (out : List (Energy × Word) × EnergyPool) : Prop where
  /-- As many units are taken as are asked for, or as there are. -/
  total : Word.sum (out.1.map Prod.snd) = min n.toNat (unitsInAll p.counts)
  /-- The types stand in their order, each once. -/
  order : (out.1.map Prod.fst).Pairwise fun e t => Enumeration.position e < Enumeration.position t
  positive : ∀ u ∈ out.1, 0 < u.2.toNat
  /-- Of each type but the last, all units are taken. -/
  drained : ∀ u ∈ out.1.dropLast, u.2 = p.count u.1 ∧ out.2.count u.1 = 0
  /-- No type with units is passed over for a later one. -/
  inTurn : ∀ u ∈ out.1, ∀ t, Enumeration.position t < Enumeration.position u.1 → p.count t ≠ 0 →
    t ∈ out.1.dropLast.map Prod.fst

theorem taken_le_limit (t : Energy) : p.counts.taken n.toNat Enumeration.all t ≤ Word.limit :=
  Nat.le_trans (Nat.min_le_left _ _) (Word.toNat_le_limit (p.count t))

/-- A type stands in the report of a discard of any type with the units taken of it, if any
are. -/
theorem mem_discardAny_fst {u : Energy × Word} :
    u ∈ (p.discardAny n).1
      ↔ u.2.toNat = p.counts.taken n.toNat Enumeration.all u.1 ∧ 0 < u.2.toNat := by
  obtain ⟨t, k⟩ := u
  rw [discardAny_fst, List.mem_filter, List.mem_map]
  constructor
  · rintro ⟨⟨s, -, hs⟩, hk⟩
    obtain ⟨rfl, rfl⟩ := Prod.mk.inj hs
    refine ⟨?_, Word.toNat_pos (by simpa using hk)⟩
    rw [Word.toNat_clamp]
    exact Nat.min_eq_left (p.taken_le_limit n s)
  · rintro ⟨hk, hpos⟩
    refine ⟨⟨t, Enumeration.mem_all t, ?_⟩, ?_⟩
    · rw [← hk, Word.clamp_toNat]
    · have hne : k ≠ 0 := fun hzero => by rw [hzero, UInt32.toNat_zero] at hpos; omega
      simpa using hne

/-- The units reported are those taken of all types. -/
theorem sum_discardAny_fst :
    Word.sum ((p.discardAny n).1.map Prod.snd) = min n.toNat (unitsInAll p.counts) := by
  have hsum : ∀ l : List Energy, Word.sum (((l.map fun t =>
      (t, Word.clamp (p.counts.taken n.toNat Enumeration.all t))).filter fun u => u.2 ≠ 0).map
        Prod.snd) = (l.map (p.counts.taken n.toNat Enumeration.all)).sum := by
    intro l
    induction l with
    | nil => rfl
    | cons e l ih =>
      have hvalue : (Word.clamp (p.counts.taken n.toNat Enumeration.all e)).toNat
          = p.counts.taken n.toNat Enumeration.all e := by
        rw [Word.toNat_clamp]
        exact Nat.min_eq_left (p.taken_le_limit n e)
      rw [List.map_cons, List.map_cons, List.sum_cons, ← ih, List.filter_cons]
      split
      · rw [List.map_cons, Word.sum_cons, hvalue]
      next hnone =>
        have hzero : Word.clamp (p.counts.taken n.toNat Enumeration.all e) = 0 := by
          simpa using hnone
        rw [hzero, UInt32.toNat_zero] at hvalue
        omega
  rw [discardAny_fst, hsum, UnitCounts.sum_taken _ _ Enumeration.nodup_all]
  rfl

/-- Of a type before one of which units are taken, all units are. -/
theorem taken_of_position_lt {e t : Energy} (h : Enumeration.position e < Enumeration.position t)
    (ht : 0 < p.counts.taken n.toNat Enumeration.all t) :
    p.counts.taken n.toNat Enumeration.all e = p.counts e := by
  have hbefore := UnitCounts.before_add_le (f := p.counts) Enumeration.pairwise_position
    (Enumeration.mem_all e) (Enumeration.mem_all t) h
  unfold UnitCounts.taken at ht ⊢
  omega

theorem takesInOrder_discardAny : p.TakesInOrder n (p.discardAny n) := by
  have hmem := fun u => p.mem_discardAny_fst n (u := u)
  have horder : ((p.discardAny n).1.map Prod.fst).Pairwise
      fun e t => Enumeration.position e < Enumeration.position t := by
    rw [discardAny_fst]
    refine List.Pairwise.sublist (List.filter_sublist.map _) ?_
    rw [List.map_map]
    exact (List.map_id _).symm ▸ Enumeration.pairwise_position
  refine ⟨p.sum_discardAny_fst n, horder, fun u hu => ((hmem u).1 hu).2, ?_, ?_⟩
  all_goals rcases List.eq_nil_or_concat (p.discardAny n).1 with hnil | ⟨front, last, hlast⟩
  · rw [hnil]
    exact fun u hu => nomatch hu
  · -- every type but the last comes before the last one
    intro u hu
    rw [hlast, List.concat_eq_append, List.map_append, List.pairwise_append] at horder
    rw [hlast, List.concat_eq_append, List.dropLast_concat] at hu
    have hbefore := horder.2.2 u.1 (List.mem_map_of_mem hu) last.1 List.mem_cons_self
    obtain ⟨hlastTaken, hpos⟩ := (hmem last).1 (by simp [hlast])
    obtain ⟨hu, -⟩ := (hmem u).1 (by simp [hlast, hu])
    have hall := p.taken_of_position_lt n hbefore (by omega)
    have hleft := congrFun (p.counts_discardAny n) u.1
    rw [UnitCounts.discardAny, hall, Nat.sub_self] at hleft
    exact ⟨Word.ext (hu.trans hall), Word.ext hleft⟩
  · rw [hnil]
    exact fun u hu => nomatch hu
  · intro u hu t ht hsome
    obtain ⟨htaken, hpos⟩ := (hmem u).1 hu
    have hall := p.taken_of_position_lt n ht (by omega)
    have hin := (hmem (t, p.count t)).2 ⟨hall.symm, Word.toNat_pos hsome⟩
    rw [hlast, List.concat_eq_append] at hin hu
    rw [hlast, List.concat_eq_append, List.map_append, List.pairwise_append] at horder
    rw [hlast, List.concat_eq_append, List.dropLast_concat]
    -- `t` comes before `u`, so it is not the last
    rcases List.mem_append.1 hin with hfront | hend
    · exact List.mem_map_of_mem hfront
    · obtain rfl := List.mem_singleton.1 hend
      rcases List.mem_append.1 hu with hu | hu
      · have hafter := horder.2.2 u.1 (List.mem_map_of_mem hu) t List.mem_cons_self
        exact absurd ht (Nat.lt_asymm hafter)
      · obtain rfl := List.mem_singleton.1 hu
        exact absurd ht (Nat.lt_irrefl _)

end Any

/-! ## Operations -/

/-- A way to take energy out of a pool. -/
inductive Withdrawal where
  /-- Units of one type, as many as are asked for or as there are. -/
  | units (e : Energy) (n : Word)
  /-- Units of any type. -/
  | any (n : Word)
  | all
  deriving DecidableEq, Repr

/-- Takes energy out of a pool.  Gives the units taken, and the pool left. -/
def withdraw (p : EnergyPool) : Withdrawal → List (Energy × Word) × EnergyPool
  | .units e n => ([(e, (p.discard e n).1)], (p.discard e n).2)
  | .any n => p.discardAny n
  | .all => p.discardAll

/-- What can be done with a pool. -/
inductive Operation where
  | attachOne (e : Energy)
  | attach (e : Energy) (n : Word)
  | withdraw (w : Withdrawal)
  deriving DecidableEq, Repr

/-- The pool behind an operation. -/
def apply (p : EnergyPool) : Operation → EnergyPool
  | .attachOne e => p.attach e 1
  | .attach e n => p.attach e n
  | .withdraw w => (p.withdraw w).2

/-- The pool behind operations carried out one after the other. -/
def after (p : EnergyPool) (ops : List Operation) : EnergyPool := ops.foldl apply p

end EnergyPool

/-- The counts behind an operation. -/
def UnitCounts.apply (f : UnitCounts) : EnergyPool.Operation → UnitCounts
  | .attachOne e => f.attach e 1
  | .attach e n => f.attach e n.toNat
  | .withdraw (.units e n) => f.discard e n.toNat
  | .withdraw (.any n) => f.discardAny n.toNat
  | .withdraw .all => none

/-- The counts behind operations carried out one after the other. -/
def UnitCounts.after (f : UnitCounts) (ops : List EnergyPool.Operation) : UnitCounts :=
  ops.foldl apply f

namespace EnergyPool

/-! ### One operation -/

theorem counts_attach (p : EnergyPool) (e : Energy) (n : Word) :
    (p.attach e n).counts = p.counts.attach e n.toNat := by
  funext t
  show ((p.attach e n).count t).toNat = if t = e then min ((p.count t).toNat + n.toNat) Word.limit
    else (p.count t).toNat
  rw [count_attach]
  split
  next h => rw [h, Word.toNat_add]
  next => rfl

/-- An operation makes of the counts of a pool what it makes of any counts. -/
theorem counts_apply (p : EnergyPool) (op : Operation) :
    (p.apply op).counts = p.counts.apply op := by
  cases op with
  | attachOne e => exact p.counts_attach e 1
  | attach e n => exact p.counts_attach e n
  | withdraw w =>
    cases w with
    | units e n => exact p.counts_discard e n
    | any n => exact p.counts_discardAny n
    | all => exact funext fun e => congrArg UInt32.toNat (count_empty e)

theorem tidy_discardInTurn {p : EnergyPool} (h : p.Tidy) (n : Word) (l : List Energy) :
    (p.discardInTurn n l).2.Tidy := by
  induction l generalizing p n with
  | nil => exact h
  | cons e l ih =>
    rw [discardInTurn]
    split
    · exact h
    · exact ih (tidy_discard h e n) _

/-- No operation leaves a type without a unit behind. -/
theorem tidy_apply {p : EnergyPool} (h : p.Tidy) (op : Operation) : (p.apply op).Tidy := by
  cases op with
  | attachOne e => exact tidy_attach h e 1
  | attach e n => exact tidy_attach h e n
  | withdraw w =>
    cases w with
    | units e n => exact tidy_discard h e n
    | any n => exact tidy_discardInTurn h n _
    | all => exact tidy_empty

/-- The units that a discard in turn reports and those it leaves are the units there were. -/
theorem count_add_discardInTurn (p : EnergyPool) (n : Word) (l : List Energy) (t : Energy) :
    ((p.discardInTurn n l).2.count t).toNat + unitsOf (p.discardInTurn n l).1 t
      = (p.count t).toNat := by
  induction l generalizing p n with
  | nil => rfl
  | cons e l ih =>
    have hfirst := count_discard p e t n
    have hrest := ih (p.discard e n).2 (Word.sub n (p.discard e n).1)
    rw [discardInTurn]
    split
    · rfl
    · dsimp only
      split
      next hnone =>
        rw [hnone, UInt32.toNat_zero, ite_self] at hfirst
        rw [hnone] at hrest ⊢
        omega
      · rw [unitsOf_cons]
        dsimp only
        omega

/-- What is taken out of a pool is the difference between what was there and what is left. -/
theorem count_add_withdraw (p : EnergyPool) (w : Withdrawal) (t : Energy) :
    ((p.withdraw w).2.count t).toNat + unitsOf (p.withdraw w).1 t = (p.count t).toNat := by
  cases w with
  | units e n => simpa [withdraw] using count_discard p e t n
  | any n => exact p.count_add_discardInTurn n _ t
  | all => simp [withdraw, discardAll, unitsOf_entries]

/-! ### Many operations -/

theorem counts_after (p : EnergyPool) (ops : List Operation) :
    (p.after ops).counts = p.counts.after ops := by
  induction ops generalizing p with
  | nil => rfl
  | cons op ops ih =>
    show ((p.apply op).after ops).counts = (p.counts.apply op).after ops
    rw [ih, counts_apply]

theorem tidy_after {p : EnergyPool} (h : p.Tidy) (ops : List Operation) : (p.after ops).Tidy := by
  induction ops generalizing p with
  | nil => exact h
  | cons op ops ih => exact ih (tidy_apply h op)

/-- Attaching the given units is a matter of operations. -/
theorem ofUnits_eq_after (units : List (Energy × Word)) :
    ofUnits units = empty.after (units.map fun u => .attach u.1 u.2) := by
  rw [after, List.foldl_map]
  rfl

theorem counts_ofUnits (units : List (Energy × Word)) :
    (ofUnits units).counts = UnitCounts.ofUnits units := by
  have hnone : empty.counts = UnitCounts.none :=
    funext fun e => congrArg UInt32.toNat (count_empty e)
  rw [ofUnits_eq_after, counts_after, hnone]
  exact List.foldl_map

/-! ## The law -/

/-- A pool that operations have led to, from given units attached to nothing. -/
def Built (p : EnergyPool) : Prop := ∃ units ops, p = (ofUnits units).after ops

theorem Built.tidy {p : EnergyPool} (h : p.Built) : p.Tidy := by
  obtain ⟨units, ops, rfl⟩ := h
  rw [ofUnits_eq_after]
  exact tidy_after (tidy_after tidy_empty _) ops

/-- What a pool is like that operations have led to, `f` being what they have led counts to. -/
structure Canonical (p : EnergyPool) (f : UnitCounts) : Prop where
  /-- The pool is the map with those counts. -/
  map : p = ofCounts f
  counts : ∀ e, (p.count e).toNat = f e
  /-- No type is present without a unit. -/
  tidy : p.Tidy
  /-- Another pool with the same counts is the same pool. -/
  unique : ∀ q : EnergyPool, q.Built → (∀ e, q.count e = p.count e) → q = p
  isEmpty : p.isEmpty = true ↔ ∀ e, p.count e = 0
  /-- Whatever is taken out is reported: it is the difference between before and after. -/
  reports : ∀ w t, ((p.withdraw w).2.count t).toNat + unitsOf (p.withdraw w).1 t
    = (p.count t).toNat
  discard : ∀ e n, (p.discard e n).1.toNat = min n.toNat (p.count e).toNat
  discardAny : ∀ n, p.TakesInOrder n (p.discardAny n)

/-- **A pool is a multiset.**  Whatever units a pool is made of, and whatever is attached and
discarded then, it is the map with the counts that the same operations lead to, without an entry
for no units; and whatever is taken out of it is reported in full. -/
theorem after_canonical (units : List (Energy × Word)) (ops : List Operation) :
    ((ofUnits units).after ops).Canonical ((UnitCounts.ofUnits units).after ops) := by
  have hbuilt : ((ofUnits units).after ops).Built := ⟨units, ops, rfl⟩
  have hcounts : ((ofUnits units).after ops).counts = (UnitCounts.ofUnits units).after ops := by
    rw [counts_after, counts_ofUnits]
  have hmap := eq_ofCounts hbuilt.tidy
  exact {
    map := hcounts ▸ hmap
    counts := congrFun hcounts
    tidy := hbuilt.tidy
    unique := fun q hq hsame => by
      have hcount : q.counts = ((ofUnits units).after ops).counts :=
        funext fun e => congrArg UInt32.toNat (hsame e)
      rw [eq_ofCounts hq.tidy, hcount, ← hmap]
    isEmpty := isEmpty_iff_count hbuilt.tidy
    reports := count_add_withdraw _
    discard := fun e n => by rw [discard_fst, Nat.min_comm]
    discardAny := takesInOrder_discardAny _ }

end EnergyPool

end CardEffects
