/-
  CardEffects.Proofs.Handlers

  Runs with handlers taken away or moved.  A handler in the place of another kind does nothing
  with what it gets, nor does an empty place.  So a run, whatever handlers are in place, does
  what the effects that still have their own handler do by themselves, with all handlers in
  place; each of the others that is reached leaves a record, and nothing else.

    * `Registry.execute_of_handles`, `Registry.execute_of_not_handles` — the two cases of an
      effect.
    * `Effect.status_apply` — an effect carried out by its own handler is never reported as not
      implemented.
    * `Resolution.figures` — what a resolution reports, without its records and its trace.
    * `Registry.step_of_handles`, `Registry.step_of_not_handles` — one effect in two runs side by
      side, the second of which leaves out the effects without a handler.
    * `Registry.Aligned`, `Registry.aligned_runFrom` — the records of the two runs, and the runs.
    * `Registry.kinds_spec` — the kinds that have a handler.
    * `Registry.run_filters` — what a run comes to, whatever handlers are in place.
-/
import CardEffects.Proofs.Execution

namespace CardEffects

/-! ## Effects with and without a handler -/

namespace Registry

variable (reg : Registry) (s : Setting)

/-- The kind that is reported for an effect that nothing carries out: that of the handler in its
place, or its own when the place is empty. -/
def answering (e : Effect) : EffectKind := (reg.get? e.kind).getD e.kind

theorem handles_iff (e : Effect) : reg.handles e = true ↔ reg.get? e.kind = some e.kind := by
  rw [handles, beq_iff_eq]

theorem execute_of_handles {e : Effect} (h : reg.handles e = true) (b : Board) :
    reg.execute s b e = e.apply s b := by
  have hplace := (reg.handles_iff e).1 h
  rw [execute, hplace]
  exact if_pos rfl

theorem execute_of_not_handles {e : Effect} (h : reg.handles e = false) (b : Board) :
    reg.execute s b e = (.notImplemented (reg.answering e), b) := by
  have hplace : reg.get? e.kind ≠ some e.kind := by
    intro hown
    rw [(reg.handles_iff e).2 hown] at h
    cases h
  unfold execute answering
  cases hget : reg.get? e.kind with
  | none => rfl
  | some handler =>
    have hother : handler ≠ e.kind := by
      rintro rfl
      exact hplace hget
    exact if_neg hother

end Registry

/-! ## Statuses -/

namespace Application

variable (s : Setting) (b : Board) (kind : EffectKind)

theorem status_inflict (c : Condition) (target : ConditionTarget) :
    (inflict s b kind c target).1.status ≠ .notImplemented := by
  unfold inflict
  split
  · exact nofun
  next m _ =>
    dsimp only
    cases (m.inflict c s.turn).1 with
    | applied => exact nofun
    | alreadyPresent => exact nofun

theorem status_inflictRandom (target : ConditionTarget) :
    (inflictRandom s b target).1.status ≠ .notImplemented := by
  unfold inflictRandom
  split
  · exact nofun
  · split
    · exact nofun
    · exact nofun

theorem status_heal (target : HealTarget) (amount : Option Word) :
    (heal b kind target amount).1.status ≠ .notImplemented := by
  unfold heal
  dsimp only
  split
  · exact nofun
  · exact nofun

theorem status_attach (energy : Energy) (units : Word) (target : EnergyTarget) :
    (attach b kind energy units target).1.status ≠ .notImplemented := by
  unfold attach
  split
  · exact nofun
  · split
    · exact nofun
    · exact nofun

theorem status_discard (d : EnergyDiscard) :
    (discard b kind d).1.status ≠ .notImplemented := by
  unfold discard
  split
  · exact nofun
  · dsimp only
    split
    · exact nofun
    · exact nofun

theorem status_ofBonus (bonus : Word) (notes : List String) :
    (Outcome.ofBonus kind bonus notes).status ≠ .notImplemented := by
  unfold Outcome.ofBonus
  dsimp only
  split
  · exact nofun
  · exact nofun

theorem status_conditionalDamage (bonus : Word) (c : DamageCondition) :
    (conditionalDamage s b bonus c).status ≠ .notImplemented := by
  unfold conditionalDamage
  split
  · exact status_ofBonus _ bonus _
  · exact nofun

theorem status_consequence (note : String) (c : FlipConsequence) :
    (consequence s b note c).1.status ≠ .notImplemented := by
  cases c with
  | bonusDamage amount => exact nofun
  | attackFails => exact nofun
  | condition c target => exact status_inflict s b .coinFlipConditional c target
  | heal amount => exact status_heal b .coinFlipConditional .this (some amount)
  | discard d => exact status_discard b .coinFlipConditional d

theorem status_coinFlipConditional (coins : Word) (wanted : CoinFace) (c : FlipConsequence) :
    (coinFlipConditional s b coins wanted c).1.status ≠ .notImplemented := by
  unfold coinFlipConditional
  dsimp only
  split
  · exact status_consequence s _ _ c
  · exact nofun

end Application

open Application in
/-- An effect carried out by its own handler is never reported as not implemented. -/
theorem Effect.status_apply (s : Setting) (b : Board) (e : Effect) :
    (e.apply s b).1.status ≠ .notImplemented := by
  cases e with
  | coinFlipDamage coins perHeads => exact status_ofBonus .coinFlipDamage _ []
  | coinFlipEnergy coins perHeads energy target =>
    exact status_attach (b.flip s coins).2 .coinFlipEnergy _ _ target
  | coinFlipConditional coins wanted c => exact status_coinFlipConditional s b coins wanted c
  | conditionApply c target => exact status_inflict s b .conditionApply c target
  | conditionApplyRandom target => exact status_inflictRandom s b target
  | damageBonus amount => exact status_ofBonus .damageBonus amount _
  | energyScalingDamage each energy source => exact status_ofBonus .energyScalingDamage _ _
  | conditionalDamage bonus c => exact status_conditionalDamage s b bonus c
  | benchScalingDamage each side filter => exact status_ofBonus .benchScalingDamage _ _
  | heal amount target => exact status_heal b .heal target (some amount)
  | healFull target => exact status_heal b .healFull target none
  | energyAttach energy n target => exact status_attach b .energyAttach _ n target
  | energyDiscard d => exact status_discard b .energyDiscard d
  | searchOrDraw flow => exact nofun
  | unparsed text => exact nofun

/-! ## What a resolution reports -/

namespace Resolution

/-- A resolution without its records and its trace. -/
def figures (r : Resolution) : Resolution := { r with effects := [], trace := [] }

variable {r r' : Resolution}

/-- Whatever the figures hold is the same in two resolutions with the same figures. -/
theorem eq_of_figures {α : Type} (field : Resolution → α)
    (hfield : ∀ r, field r.figures = field r) (h : r.figures = r'.figures) :
    field r = field r' := by
  rw [← hfield r, h, hfield r']

/-- An outcome adds to the figures what it would add to them anywhere. -/
theorem figures_absorb_congr (h : r.figures = r'.figures) (o : Outcome) (d d' : String) :
    (r.absorb o d).figures = (r'.absorb o d').figures := by
  have hr : (r.absorb o d).figures = (r.figures.absorb o d).figures := rfl
  have hr' : (r'.absorb o d').figures = (r'.figures.absorb o d).figures := rfl
  rw [hr, hr', h]

/-- An effect that nothing carries out adds nothing to the figures. -/
theorem figures_absorb_notImplemented (h : r.total = r.damage) (k : EffectKind) (d : String) :
    (r.absorb (.notImplemented k) d).figures = r.figures := by
  unfold damage at h
  simp only [figures, absorb, retotalled, damage, Outcome.notImplemented, Word.add_zero,
    Bool.or_false, List.append_nil, h]

end Resolution

/-! ## Two runs side by side -/

namespace Registry

variable (reg : Registry) (s : Setting)

/-- The records of effects, and beside them the records of those that have their own handler. -/
structure Aligned (es : List Effect) (records own : List EffectRecord) : Prop where
  length : records.length = es.length
  handled : ((es.zip records).filter fun p => reg.handles p.1).map Prod.snd = own

/-- The record that an effect gets. -/
def recordOf (r : Resolution) (b : Board) (e : Effect) : EffectRecord :=
  if r.negated then ⟨e.kind, .skipped, e.describe⟩
  else ⟨(reg.execute s b e).1.kind, (reg.execute s b e).1.status, e.describe⟩

theorem effects_step (r : Resolution) (b : Board) (e : Effect) :
    (reg.step s r b e).1.effects = r.effects ++ [reg.recordOf s r b e] := by
  unfold step recordOf
  split
  · rfl
  · rfl

theorem total_step {r : Resolution} (h : r.total = r.damage) (b : Board) (e : Effect) :
    (reg.step s r b e).1.total = (reg.step s r b e).1.damage := by
  unfold step
  split
  · exact h
  · rfl

/-- An effect without its own handler adds a record, and nothing else. -/
theorem step_of_not_handles {r : Resolution} (h : r.total = r.damage) {e : Effect}
    (he : reg.handles e = false) (b : Board) :
    (reg.step s r b e).1.figures = r.figures ∧ (reg.step s r b e).2 = b := by
  unfold step
  split
  · exact ⟨rfl, rfl⟩
  · rw [reg.execute_of_not_handles s he]
    exact ⟨Resolution.figures_absorb_notImplemented h _ _, rfl⟩

/-- An effect with its own handler does the same, and has the same record, whatever other
handlers are in place. -/
theorem step_of_handles {r r' : Resolution} (h : r.figures = r'.figures) {e : Effect}
    (he : reg.handles e = true) (b : Board) :
    (reg.step s r b e).1.figures = (standard.step s r' b e).1.figures
      ∧ (reg.step s r b e).2 = (standard.step s r' b e).2
      ∧ reg.recordOf s r b e = standard.recordOf s r' b e := by
  have hnegated := Resolution.eq_of_figures Resolution.negated (fun _ => rfl) h
  unfold step recordOf
  rw [execute_standard, reg.execute_of_handles s he, hnegated]
  split
  · exact ⟨h, rfl, rfl⟩
  · exact ⟨Resolution.figures_absorb_congr h _ _ _, rfl, rfl⟩

/-- A run, and beside it the run of the effects that have their own handler, with all handlers in
place: they report the same figures and leave the same board. -/
theorem aligned_runFrom {r r' : Resolution} (hr : r.total = r.damage)
    (h : r.figures = r'.figures) (b : Board) (es : List Effect) :
    (reg.runFrom s r b es).1.figures
        = (standard.runFrom s r' b (es.filter reg.handles)).1.figures
      ∧ (reg.runFrom s r b es).2 = (standard.runFrom s r' b (es.filter reg.handles)).2
      ∧ ∃ records own, reg.Aligned es records own
        ∧ (reg.runFrom s r b es).1.effects = r.effects ++ records
        ∧ (standard.runFrom s r' b (es.filter reg.handles)).1.effects = r'.effects ++ own := by
  -- along the effects; the second run stands still where the first meets no handler
  induction es generalizing r r' b with
  | nil =>
    exact ⟨h, rfl, [], [], ⟨rfl, rfl⟩, (List.append_nil _).symm, (List.append_nil _).symm⟩
  | cons e es ih =>
    have htotal := reg.total_step s hr b e
    rw [runFrom_cons]
    cases he : reg.handles e with
    | false =>
      obtain ⟨hfigures, hboard⟩ := reg.step_of_not_handles s hr he b
      rw [List.filter_cons_of_neg (by simp [he])]
      obtain ⟨hsame, hsameBoard, records, own, haligned, heffects, hown⟩ :=
        ih htotal (hfigures.trans h) (reg.step s r b e).2
      rw [hboard] at hsame hsameBoard heffects hown ⊢
      refine ⟨hsame, hsameBoard, reg.recordOf s r b e :: records, own, ⟨?_, ?_⟩, ?_, hown⟩
      · rw [List.length_cons, List.length_cons, haligned.length]
      · rw [List.zip_cons_cons, List.filter_cons_of_neg (by simp [he])]
        exact haligned.handled
      · rw [heffects, effects_step, List.append_assoc]
        rfl
    | true =>
      obtain ⟨hfigures, hboard, hrecord⟩ := reg.step_of_handles s h he b
      rw [List.filter_cons_of_pos he, runFrom_cons, ← hboard]
      obtain ⟨hsame, hsameBoard, records, own, haligned, heffects, hown⟩ :=
        ih htotal hfigures (reg.step s r b e).2
      refine ⟨hsame, hsameBoard, reg.recordOf s r b e :: records, reg.recordOf s r b e :: own,
        ⟨?_, ?_⟩, ?_, ?_⟩
      · rw [List.length_cons, List.length_cons, haligned.length]
      · rw [List.zip_cons_cons, List.filter_cons_of_pos (by simpa using he), List.map_cons,
          haligned.handled]
      · rw [heffects, effects_step, List.append_assoc]
        rfl
      · rw [hown, effects_step, ← hrecord, List.append_assoc]
        rfl

/-! ## Records of effects without a handler -/

/-- An effect is reported as not implemented exactly when it is reached and does not have its own
handler; the report is in the name of the handler in its place. -/
theorem notImplemented_run (b : Board) (base : Word) {es : List Effect} {i : Nat} {e : Effect}
    (he : es[i]? = some e) :
    ∃ record, (reg.run s b base es).1.effects[i]? = some record
      ∧ record.description = e.describe
      ∧ (record.status = .notImplemented ↔ i < reg.reached s b es ∧ reg.handles e = false)
      ∧ (record.status = .notImplemented → record.kind = reg.answering e) := by
  have hreached := reg.reached_le s b es
  rw [effects_run, List.getElem?_append, List.length_zipWith, length_outcomesReached,
    Nat.min_eq_left hreached]
  by_cases hi : i < reg.reached s b es
  · -- the outcome of the effect on the board that it meets
    have htake : (es.take (reg.reached s b es))[i]? = some e := by
      rw [List.getElem?_take_of_lt hi, he]
    obtain ⟨ho, -⟩ := reg.getElem?_outcomes s b _ htake
    rw [if_pos hi, List.getElem?_zipWith, outcomesReached, ho, he]
    refine ⟨_, rfl, rfl, ?_⟩
    cases hhandles : reg.handles e with
    | false =>
      rw [reg.execute_of_not_handles s hhandles]
      exact ⟨⟨fun _ => ⟨hi, rfl⟩, fun _ => rfl⟩, fun _ => rfl⟩
    | true =>
      have hstatus := e.status_apply s
        (reg.boardAfter s b ((es.take (reg.reached s b es)).take i))
      rw [reg.execute_of_handles s hhandles]
      exact ⟨⟨fun h => absurd h hstatus, fun h => absurd h.2 (by decide)⟩,
        fun h => absurd h hstatus⟩
  · -- behind the effects reached there are records of skipped effects only
    have hplace : reg.reached s b es + (i - reg.reached s b es) = i := by omega
    rw [if_neg hi, List.getElem?_map, List.getElem?_drop, hplace, he]
    exact ⟨_, rfl, rfl, ⟨fun h => EffectStatus.noConfusion h, fun h => absurd h.1 hi⟩,
      fun h => EffectStatus.noConfusion h⟩

/-! ## Kinds with a handler -/

/-- The kinds that have a handler are listed in their order, each once. -/
theorem kinds_spec :
    reg.kinds.Sublist Enumeration.all ∧ reg.kinds.Nodup
      ∧ ∀ k, k ∈ reg.kinds ↔ (reg.get? k).isSome = true := by
  have hsublist : reg.kinds.Sublist Enumeration.all := List.filter_sublist
  exact ⟨hsublist, hsublist.nodup Enumeration.nodup_all, fun k => EnumMap.mem_keys⟩

/-! ## The law -/

/-- What a run of effects comes to, `own` being the run of those effects that have their own
handler, with all handlers in place. -/
structure Filters (b : Board) (es : List Effect) (out own : Resolution × Board) : Prop where
  /-- Both sides and the coins end up alike. -/
  board : out.2 = own.2
  base : out.1.base = own.1.base
  bonus : out.1.bonus = own.1.bonus
  total : out.1.total = own.1.total
  negated : out.1.negated = own.1.negated
  flips : out.1.flips = own.1.flips
  conditionChanges : out.1.conditionChanges = own.1.conditionChanges
  energyChanges : out.1.energyChanges = own.1.energyChanges
  healed : out.1.healed = own.1.healed
  pending : out.1.pending = own.1.pending
  /-- Each effect has one record. -/
  records : out.1.effects.length = es.length
  /-- The records of effects that have their own handler are those of the other run. -/
  handled : ((es.zip out.1.effects).filter fun p => reg.handles p.1).map Prod.snd
    = own.1.effects
  /-- Of the others each one that is reached is not implemented, and no effect else; the record
  is of the effect's kind when no handler is there, and otherwise of the handler's. -/
  notImplemented : ∀ i e, es[i]? = some e → ∃ record, out.1.effects[i]? = some record
    ∧ record.description = e.describe
    ∧ (record.status = .notImplemented ↔ i < reg.reached s b es ∧ reg.handles e = false)
    ∧ (record.status = .notImplemented → record.kind = reg.answering e)
  /-- The kinds that have a handler are listed in their order, each once. -/
  kinds : reg.kinds.Sublist Enumeration.all ∧ reg.kinds.Nodup
    ∧ ∀ k, k ∈ reg.kinds ↔ (reg.get? k).isSome = true

/-- **To take handlers away or to move them is to filter effects.**  Whatever handlers are in
place, a run does what the run of the effects that have their own handler does with all handlers
in place; each other effect that is reached is reported as not implemented. -/
theorem run_filters (b : Board) (base : Word) (es : List Effect) :
    reg.Filters s b es (reg.run s b base es) (standard.run s b base (es.filter reg.handles)) := by
  have hstart : (Resolution.start base).figures = (Resolution.start base).figures := rfl
  obtain ⟨hfigures, hboard, records, own, haligned, heffects, hown⟩ :=
    reg.aligned_runFrom s (total_start base) hstart b es
  have hrecords : (reg.run s b base es).1.effects = records := heffects
  have hownRecords : (standard.run s b base (es.filter reg.handles)).1.effects = own := hown
  exact {
    board := hboard
    base := Resolution.eq_of_figures _ (fun _ => rfl) hfigures
    bonus := Resolution.eq_of_figures _ (fun _ => rfl) hfigures
    total := Resolution.eq_of_figures _ (fun _ => rfl) hfigures
    negated := Resolution.eq_of_figures _ (fun _ => rfl) hfigures
    flips := Resolution.eq_of_figures _ (fun _ => rfl) hfigures
    conditionChanges := Resolution.eq_of_figures _ (fun _ => rfl) hfigures
    energyChanges := Resolution.eq_of_figures _ (fun _ => rfl) hfigures
    healed := Resolution.eq_of_figures _ (fun _ => rfl) hfigures
    pending := Resolution.eq_of_figures _ (fun _ => rfl) hfigures
    records := by rw [hrecords, haligned.length]
    handled := by rw [hrecords, hownRecords, haligned.handled]
    notImplemented := fun _ _ he => reg.notImplemented_run s b base he
    kinds := reg.kinds_spec }

end Registry

end CardEffects
