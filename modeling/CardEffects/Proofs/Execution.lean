/-
  CardEffects.Proofs.Execution

  A run of effects, said without its loop.  Effects are carried out one after the other, up to
  the first whose outcome cancels the attack.  What they report is put together in that order;
  an effect behind the cancelling one leaves a record, and nothing else.

    * `Registry.outcomes`, `Registry.boardAfter` — what carrying out effects comes to when none
      of them is skipped.
    * `Registry.reached` — how many effects a run carries out.
    * `Registry.runFrom_eq` — a run takes in the outcomes of the effects it reaches, and skips
      the rest.
    * `Registry.run_folds` — every field of a resolution in closed form, for any handlers.
-/
import CardEffects.Proofs.Deed
import CardEffects.Proofs.Run

namespace CardEffects

/-! ## Taking in outcomes -/

namespace Resolution

/-- Takes in outcomes one by one, each with the effect that it is the outcome of. -/
def absorbAll (r : Resolution) (os : List (Outcome × Effect)) : Resolution :=
  os.foldl (fun r o => r.absorb o.1 o.2.describe) r

/-- A field to which every outcome adds a list has all those lists in the end. -/
theorem absorbAll_gathers {α : Type} (field : Resolution → List α)
    (part : Outcome → Effect → List α)
    (hpart : ∀ r o e, field (r.absorb o e.describe) = field r ++ part o e) (r : Resolution)
    (os : List (Outcome × Effect)) :
    field (r.absorbAll os) = field r ++ os.flatMap fun o => part o.1 o.2 := by
  induction os generalizing r with
  | nil => rw [List.flatMap_nil, List.append_nil]; rfl
  | cons o os ih =>
    show field ((r.absorb o.1 o.2.describe).absorbAll os) = _
    rw [ih, hpart, List.flatMap_cons, List.append_assoc]

/-- A field to which every outcome adds an amount has the sum of those amounts in the end, as
far as it fits: to saturate on the way is to saturate in the end. -/
theorem absorbAll_sums {field : Resolution → Word} {part : Outcome → Word}
    (hpart : ∀ r o d, field (r.absorb o d) = Word.add (field r) (part o)) (r : Resolution)
    (os : List (Outcome × Effect)) :
    (field (r.absorbAll os)).toNat
      = min ((field r).toNat + Word.sum (os.map fun o => part o.1)) Word.limit := by
  induction os generalizing r with
  | nil =>
    have hfits := Word.toNat_le_limit (field r)
    show (field r).toNat = min ((field r).toNat + 0) Word.limit
    omega
  | cons o os ih =>
    show (field ((r.absorb o.1 o.2.describe).absorbAll os)).toNat = _
    rw [ih, hpart, Word.toNat_add, List.map_cons, Word.sum_cons]
    omega

/-- The attack is cancelled once an outcome cancels it. -/
theorem negated_absorbAll (r : Resolution) (os : List (Outcome × Effect)) :
    (r.absorbAll os).negated = (r.negated || os.any fun o => o.1.negates) := by
  induction os generalizing r with
  | nil => rw [List.any_nil, Bool.or_false]; rfl
  | cons o os ih =>
    show ((r.absorb o.1 o.2.describe).absorbAll os).negated = _
    rw [ih, List.any_cons, ← Bool.or_assoc]
    rfl

/-- Outcomes do not touch the base, nor the damage dealt. -/
theorem absorbAll_keeps {α : Type} {field : Resolution → α}
    (hkeep : ∀ r o d, field (r.absorb o d) = field r) (r : Resolution)
    (os : List (Outcome × Effect)) : field (r.absorbAll os) = field r := by
  induction os generalizing r with
  | nil => rfl
  | cons o os ih =>
    show field ((r.absorb o.1 o.2.describe).absorbAll os) = _
    rw [ih, hkeep]

end Resolution

/-! ## Effects reached -/

namespace Registry

variable (reg : Registry) (s : Setting)

/-- The outcomes of effects carried out one after the other, none of them skipped. -/
def outcomes (b : Board) : List Effect → List Outcome
  | [] => []
  | e :: es => (reg.execute s b e).1 :: outcomes (reg.execute s b e).2 es

/-- The board after effects are carried out one after the other, none of them skipped. -/
def boardAfter (b : Board) (es : List Effect) : Board :=
  es.foldl (fun b e => (reg.execute s b e).2) b

/-- The place of the first effect whose outcome cancels the attack. -/
def cancelledAt? (b : Board) (es : List Effect) : Option Nat :=
  (reg.outcomes s b es).findIdx? Outcome.negates

/-- How many effects a run carries out: those up to the first that cancels the attack, or all
when none does. -/
def reached (b : Board) (es : List Effect) : Nat :=
  match reg.cancelledAt? s b es with
  | some j => j + 1
  | none => es.length

/-- The outcomes of the effects reached. -/
def outcomesReached (b : Board) (es : List Effect) : List Outcome :=
  reg.outcomes s b (es.take (reg.reached s b es))

variable (b : Board)

@[simp] theorem length_outcomes (es : List Effect) :
    (reg.outcomes s b es).length = es.length := by
  induction es generalizing b with
  | nil => rfl
  | cons e es ih => rw [outcomes, List.length_cons, ih, List.length_cons]

/-- Each effect is carried out on the board that those before it left. -/
theorem getElem?_outcomes (es : List Effect) {i : Nat} {e : Effect} (h : es[i]? = some e) :
    (reg.outcomes s b es)[i]? = some (reg.execute s (reg.boardAfter s b (es.take i)) e).1
      ∧ reg.boardAfter s b (es.take (i + 1))
        = (reg.execute s (reg.boardAfter s b (es.take i)) e).2 := by
  induction es generalizing b i with
  | nil => cases h
  | cons e' es ih =>
    cases i with
    | zero =>
      obtain rfl := Option.some.inj h
      exact ⟨rfl, rfl⟩
    | succ i => exact ih (reg.execute s b e').2 h

theorem cancelledAt?_cons (e : Effect) (es : List Effect) :
    reg.cancelledAt? s b (e :: es)
      = if (reg.execute s b e).1.negates then some 0
        else (reg.cancelledAt? s (reg.execute s b e).2 es).map (· + 1) := by
  rw [cancelledAt?, outcomes, List.findIdx?_cons]
  rfl

theorem reached_cons (e : Effect) (es : List Effect) :
    reg.reached s b (e :: es)
      = if (reg.execute s b e).1.negates then 1
        else reg.reached s (reg.execute s b e).2 es + 1 := by
  rw [reached, cancelledAt?_cons]
  split
  next j hj =>
    split at hj
    next h => rw [if_pos h, ← Option.some.inj hj]
    next h =>
      obtain ⟨i, hi, rfl⟩ := Option.map_eq_some_iff.1 hj
      rw [if_neg h, reached, hi]
  next hnone =>
    split at hnone
    · cases hnone
    next h =>
      rw [if_neg h, reached, Option.map_eq_none_iff.1 hnone, List.length_cons]

theorem reached_le (es : List Effect) : reg.reached s b es ≤ es.length := by
  induction es generalizing b with
  | nil => exact Nat.le_refl 0
  | cons e es ih =>
    have := ih (reg.execute s b e).2
    rw [reached_cons, List.length_cons]
    split <;> omega

/-- A run of the effects reached reaches them all. -/
theorem reached_take (es : List Effect) :
    reg.reached s b (es.take (reg.reached s b es)) = reg.reached s b es := by
  induction es generalizing b with
  | nil => rfl
  | cons e es ih =>
    rw [reached_cons]
    by_cases h : (reg.execute s b e).1.negates
    · rw [if_pos h, List.take_succ_cons, reached_cons, if_pos h]
    · rw [if_neg h, List.take_succ_cons, reached_cons, if_neg h, ih]

/-- Among the effects reached one cancels the attack when any of the effects does. -/
theorem any_negates_outcomesReached (es : List Effect) :
    (reg.outcomesReached s b es).any Outcome.negates = (reg.cancelledAt? s b es).isSome := by
  unfold outcomesReached
  induction es generalizing b with
  | nil => rfl
  | cons e es ih =>
    rw [reached_cons, cancelledAt?_cons]
    by_cases h : (reg.execute s b e).1.negates
    · rw [if_pos h, if_pos h, List.take_succ_cons, outcomes, List.any_cons, h]
      rfl
    · rw [if_neg h, if_neg h, List.take_succ_cons, outcomes, List.any_cons, ih,
        Bool.eq_false_iff.2 h, Option.isSome_map, Bool.false_or]

/-! ## The loop -/

theorem step_of_going {r : Resolution} (e : Effect) (h : r.negated = false) :
    reg.step s r b e
      = (r.absorb (reg.execute s b e).1 e.describe, (reg.execute s b e).2) := by
  rw [step, if_neg (by simp [h])]

/-- A run takes in the outcomes of the effects it reaches; of the others it keeps a record. -/
theorem runFrom_eq {r : Resolution} (es : List Effect) (hr : r.negated = false) :
    reg.runFrom s r b es
      = ({ r.absorbAll ((reg.outcomesReached s b es).zip es) with
            effects := (r.absorbAll ((reg.outcomesReached s b es).zip es)).effects
              ++ (es.drop (reg.reached s b es)).map fun e => ⟨e.kind, .skipped, e.describe⟩ },
          reg.boardAfter s b (es.take (reg.reached s b es))) := by
  -- along the effects, as long as the attack is not cancelled
  induction es generalizing r b with
  | nil => rw [runFrom_nil, List.drop_nil, List.map_nil, List.append_nil]; rfl
  | cons e es ih =>
    rw [runFrom_cons, step_of_going reg s b e hr, outcomesReached, reached_cons]
    have hnegated : (r.absorb (reg.execute s b e).1 e.describe).negated
        = (reg.execute s b e).1.negates := by
      show (r.negated || (reg.execute s b e).1.negates) = _
      rw [hr, Bool.false_or]
    by_cases h : (reg.execute s b e).1.negates
    · -- cancelled here: the rest is skipped
      rw [if_pos h, runFrom_of_negated reg s _ es (hnegated.trans h)]
      rfl
    · have hgoing := hnegated.trans (Bool.eq_false_iff.2 h)
      rw [if_neg h, ih _ hgoing]
      rfl

/-- An effect that is reached is not reported as skipped, whatever handler it meets. -/
theorem status_of_mem_outcomes {es : List Effect} {o : Outcome}
    (h : o ∈ reg.outcomes s b es) : o.status ≠ .skipped := by
  induction es generalizing b with
  | nil => cases h
  | cons e es ih =>
    rcases List.mem_cons.1 h with rfl | h
    · exact (reg.deed_execute s b e).status
    · exact ih _ h

/-! ## What a run reports -/

theorem length_outcomesReached (es : List Effect) :
    (reg.outcomesReached s b es).length = reg.reached s b es := by
  rw [outcomesReached, length_outcomes, List.length_take]
  exact Nat.min_eq_left (reg.reached_le s b es)

private theorem map_fst_reached (es : List Effect) :
    ((reg.outcomesReached s b es).zip es).map Prod.fst = reg.outcomesReached s b es :=
  List.map_fst_zip (by rw [length_outcomesReached]; exact reg.reached_le s b es)

/-- A field that gathers a list from each outcome has those of the effects reached. -/
theorem gathers_run {α : Type} (field : Resolution → List α) {part : Outcome → List α}
    (hpart : ∀ r o d, field (r.absorb o d) = field r ++ part o) (base : Word)
    (hstart : field (.start base) = [])
    (hskip : ∀ r records, field { r with effects := records } = field r) (es : List Effect) :
    field (reg.run s b base es).1 = (reg.outcomesReached s b es).flatMap part := by
  rw [run, runFrom_eq reg s b es rfl, hskip,
    Resolution.absorbAll_gathers field (fun o _ => part o) fun r o e => hpart r o e.describe,
    hstart, List.nil_append, ← List.flatMap_map Prod.fst part, map_fst_reached]

/-- A field that adds up an amount from each outcome has the sum for the effects reached, as far
as it fits. -/
theorem sums_run (field : Resolution → Word) {part : Outcome → Word}
    (hpart : ∀ r o d, field (r.absorb o d) = Word.add (field r) (part o)) (base : Word)
    (hstart : field (.start base) = 0)
    (hskip : ∀ r records, field { r with effects := records } = field r) (es : List Effect) :
    (field (reg.run s b base es).1).toNat
      = min (Word.sum ((reg.outcomesReached s b es).map part)) Word.limit := by
  have hmap : ((reg.outcomesReached s b es).zip es).map (fun o => part o.1)
      = (reg.outcomesReached s b es).map part :=
    (List.map_map (g := part) (f := Prod.fst)).symm.trans (by rw [map_fst_reached])
  rw [run, runFrom_eq reg s b es rfl, hskip, Resolution.absorbAll_sums hpart, hstart, hmap,
    UInt32.toNat_zero, Nat.zero_add]

/-- A field that no outcome touches is as it was at the start. -/
theorem keeps_run {α : Type} (field : Resolution → α)
    (hkeep : ∀ r o d, field (r.absorb o d) = field r)
    (hskip : ∀ r records, field { r with effects := records } = field r) (base : Word)
    (es : List Effect) : field (reg.run s b base es).1 = field (.start base) := by
  rw [run, runFrom_eq reg s b es rfl, hskip, Resolution.absorbAll_keeps hkeep]

/-- Each effect reached has the record of its outcome, and each behind them that of an effect
skipped. -/
theorem effects_run (base : Word) (es : List Effect) :
    (reg.run s b base es).1.effects
      = List.zipWith (fun o e => ⟨o.kind, o.status, e.describe⟩) (reg.outcomesReached s b es) es
        ++ (es.drop (reg.reached s b es)).map fun e => ⟨e.kind, .skipped, e.describe⟩ := by
  rw [run, runFrom_eq reg s b es rfl]
  dsimp only
  rw [Resolution.absorbAll_gathers Resolution.effects
    (fun o e => [⟨o.kind, o.status, e.describe⟩]) fun _ _ _ => rfl]
  rw [← List.map_eq_flatMap, List.map_zip_eq_zipWith]
  rfl

/-- The records of effects skipped are those behind the effects reached. -/
theorem skipped_run (base : Word) (es : List Effect) (i : Nat) (record : EffectRecord)
    (h : (reg.run s b base es).1.effects[i]? = some record) :
    record.status = .skipped ↔ reg.reached s b es ≤ i := by
  have hreached := reg.reached_le s b es
  rw [effects_run, List.getElem?_append, List.length_zipWith, length_outcomesReached,
    Nat.min_eq_left hreached] at h
  split at h
  next hi =>
    -- the record of an outcome, which does not say skipped
    rw [List.getElem?_zipWith] at h
    split at h
    next o e ho he =>
      obtain rfl := Option.some.inj h
      have hstatus : o.status ≠ .skipped :=
        reg.status_of_mem_outcomes s b (List.mem_of_getElem? ho)
      exact ⟨fun h => absurd h hstatus, fun h => absurd hi (Nat.not_lt.2 h)⟩
    next => cases h
  next hi =>
    obtain ⟨e, -, rfl⟩ := List.mem_map.1 (List.mem_of_getElem? h)
    exact ⟨fun _ => Nat.not_lt.1 hi, fun _ => rfl⟩

theorem negated_run (base : Word) (es : List Effect) :
    (reg.run s b base es).1.negated = (reg.cancelledAt? s b es).isSome := by
  have hany : ((reg.outcomesReached s b es).zip es).any (fun o => o.1.negates)
      = (reg.outcomesReached s b es).any Outcome.negates := by
    rw [← map_fst_reached reg s b es, List.any_map, map_fst_reached]
    rfl
  rw [run, runFrom_eq reg s b es rfl]
  dsimp only
  rw [Resolution.negated_absorbAll, hany, any_negates_outcomesReached]
  rfl

/-! ## The fold law -/

/-- The resolution and the board at the end of a run, in closed form.  The effects reached are
the first `reached` ones; `outcomesReached` are their outcomes. -/
structure Folds (base : Word) (es : List Effect) (out : Resolution × Board) : Prop where
  /-- The board is that of the effects reached, carried out one after the other. -/
  board : out.2 = reg.boardAfter s b (es.take (reg.reached s b es))
  /-- A run of the effects reached alone leaves the same board. -/
  alone : out.2 = (reg.run s b base (es.take (reg.reached s b es))).2
  /-- Each effect has its record, in order; behind those reached the effects are skipped. -/
  effects : out.1.effects
    = List.zipWith (fun o e => ⟨o.kind, o.status, e.describe⟩) (reg.outcomesReached s b es) es
      ++ (es.drop (reg.reached s b es)).map fun e => ⟨e.kind, .skipped, e.describe⟩
  described : out.1.effects.map EffectRecord.description = es.map Effect.describe
  skipped : ∀ i record, out.1.effects[i]? = some record →
    (record.status = .skipped ↔ reg.reached s b es ≤ i)
  flips : out.1.flips = (reg.outcomesReached s b es).flatMap Outcome.flips
  conditionChanges : out.1.conditionChanges
    = (reg.outcomesReached s b es).flatMap Outcome.conditionChanges
  energyChanges : out.1.energyChanges
    = (reg.outcomesReached s b es).flatMap Outcome.energyChanges
  pending : out.1.pending = (reg.outcomesReached s b es).flatMap Outcome.pending
  trace : out.1.trace = (reg.outcomesReached s b es).flatMap fun o =>
    o.notes.map fun note => o.kind.id ++ ": " ++ note
  bonus : out.1.bonus.toNat
    = min (Word.sum ((reg.outcomesReached s b es).map Outcome.bonus)) Word.limit
  healed : out.1.healed.toNat
    = min (Word.sum ((reg.outcomesReached s b es).map Outcome.healed)) Word.limit
  negated : out.1.negated = true ↔ ∃ j, reg.cancelledAt? s b es = some j
  total : out.1.total.toNat
    = if out.1.negated then 0 else min (base.toNat + out.1.bonus.toNat) Word.limit
  base : out.1.base = base
  undealt : out.1.dealt = none ∧ out.1.knockedOut = false

/-- Every effect leaves a record with its description, skipped or not. -/
theorem described_runFrom (r : Resolution) (es : List Effect) :
    (reg.runFrom s r b es).1.effects.map EffectRecord.description
      = r.effects.map EffectRecord.description ++ es.map Effect.describe := by
  induction es generalizing r b with
  | nil => rw [runFrom_nil, List.map_nil, List.append_nil]
  | cons e es ih =>
    have hstep : (reg.step s r b e).1.effects.map EffectRecord.description
        = r.effects.map EffectRecord.description ++ [e.describe] := by
      unfold step
      split
      · exact List.map_append
      · exact List.map_append
    rw [runFrom_cons, ih, hstep, List.append_assoc]
    rfl

/-- **The fold law.**  Whatever handlers are in place, a run carries out effects up to the first
whose outcome cancels the attack, and what it reports is what their outcomes report. -/
theorem run_folds (base : Word) (es : List Effect) :
    reg.Folds s b base es (reg.run s b base es) where
  board := by
    rw [run, runFrom_eq reg s b es rfl]
  alone := by
    rw [run, run, runFrom_eq reg s b es rfl, runFrom_eq reg s b _ rfl, reached_take,
      List.take_take, Nat.min_self]
  effects := reg.effects_run s b base es
  described := reg.described_runFrom s b (.start base) es
  skipped := reg.skipped_run s b base es
  flips := reg.gathers_run s b _ (fun _ _ _ => rfl) base rfl (fun _ _ => rfl) es
  conditionChanges := reg.gathers_run s b _ (fun _ _ _ => rfl) base rfl (fun _ _ => rfl) es
  energyChanges := reg.gathers_run s b _ (fun _ _ _ => rfl) base rfl (fun _ _ => rfl) es
  pending := reg.gathers_run s b _ (fun _ _ _ => rfl) base rfl (fun _ _ => rfl) es
  trace := reg.gathers_run s b _ (fun _ _ _ => rfl) base rfl (fun _ _ => rfl) es
  bonus := reg.sums_run s b _ (fun _ _ _ => rfl) base rfl (fun _ _ => rfl) es
  healed := reg.sums_run s b _ (fun _ _ _ => rfl) base rfl (fun _ _ => rfl) es
  negated := by
    rw [negated_run, Option.isSome_iff_exists]
  total := by
    have htotal : (reg.run s b base es).1.total = (reg.run s b base es).1.damage :=
      reg.total_runFrom s b es (total_start base)
    have hbase : (reg.run s b base es).1.base = base :=
      reg.keeps_run s b Resolution.base (fun _ _ _ => rfl) (fun _ _ => rfl) base es
    rw [htotal, Resolution.damage, hbase]
    split
    · rfl
    · exact Word.toNat_add _ _
  base := reg.keeps_run s b Resolution.base (fun _ _ _ => rfl) (fun _ _ => rfl) base es
  undealt := ⟨reg.keeps_run s b Resolution.dealt (fun _ _ _ => rfl) (fun _ _ => rfl) base es,
    reg.keeps_run s b Resolution.knockedOut (fun _ _ _ => rfl) (fun _ _ => rfl) base es⟩

end Registry

end CardEffects
