/-
  CardEffects.Proofs.ExtraEnergy

  Energy beyond the cost of an attack.  A cost can be paid in many ways, for a colorless symbol
  takes a unit of any type.  What counts as beyond the cost is what the best of them leaves: of
  one type, as many units as any payment leaves; of all types together, what every payment leaves.
  That is so as long as the units of all types fit one count.  Beyond, the total has wrapped
  around, and energy of other types that could pay for colorless symbols is overlooked: then less
  counts as extra than the best payment leaves, and never more.

    * `unitsInAll`, `unitsOfOthers` — units of all types together, and of all types but one.
    * `Payment` — a way to pay a cost from a pool, and `Payment.left`, what it leaves.
    * `EnergyPool.Affords` — a pool that can pay, and `EnergyPool.mostLeft`, the best it can do.
    * `EnergyPool.exists_taking`, `EnergyPool.isGreatest_mostLeft` — some payment does so.
    * `EnergyPool.toNat_leftOver`, `EnergyPool.mostLeft_eq` — what is worked out, and what is best,
      by the energy that other types can spare.
    * `Board.extraEnergy_best` — what a bonus for extra energy asks for.
-/
import CardEffects.Application.Damage
import Mathlib.Algebra.Order.BigOperators.Group.List
import Mathlib.Algebra.Order.Ring.Nat
import Mathlib.Order.Bounds.Basic

namespace CardEffects

/-! ## Units of all types -/

/-- The units of all types together, given those of each. -/
def unitsInAll (f : Energy → Nat) : Nat := ((Enumeration.all : List Energy).map f).sum

/-- The units of all types but one. -/
def unitsOfOthers (f : Energy → Nat) (k : Energy) : Nat :=
  (((Enumeration.all : List Energy).erase k).map f).sum

theorem unitsInAll_eq (f : Energy → Nat) (k : Energy) :
    unitsInAll f = f k + unitsOfOthers f k :=
  (List.sum_map_erase f (Enumeration.mem_all k)).symm

theorem unitsInAll_add (f g : Energy → Nat) :
    unitsInAll (fun e => f e + g e) = unitsInAll f + unitsInAll g :=
  List.sum_map_add

theorem unitsOfOthers_le {f g : Energy → Nat} (h : ∀ e, f e ≤ g e) (k : Energy) :
    unitsOfOthers f k ≤ unitsOfOthers g k :=
  List.sum_le_sum fun e _ => h e

theorem unitsOfOthers_congr {f g : Energy → Nat} {k : Energy} (h : ∀ e, e ≠ k → f e = g e) :
    unitsOfOthers f k = unitsOfOthers g k := by
  refine congrArg List.sum (List.map_congr_left fun e he => h e ?_)
  exact ((Enumeration.nodup_all.mem_erase_iff).1 he).1

/-- Between bounds for each type, every number of units between the bounds in all can be had. -/
theorem exists_between {l : List Energy} (hl : l.Nodup) {lo hi : Energy → Nat}
    (h : ∀ e, lo e ≤ hi e) {n : Nat} (hlo : (l.map lo).sum ≤ n) (hhi : n ≤ (l.map hi).sum) :
    ∃ f : Energy → Nat, (∀ e, lo e ≤ f e ∧ f e ≤ hi e) ∧ (l.map f).sum = n := by
  induction l generalizing n with
  | nil =>
    refine ⟨lo, fun e => ⟨Nat.le_refl _, h e⟩, ?_⟩
    simp only [List.map_nil, List.sum_nil] at hhi ⊢
    omega
  | cons e l ih =>
    obtain ⟨he, hl⟩ := List.nodup_cons.1 hl
    simp only [List.map_cons, List.sum_cons] at hlo hhi
    have hsum : (l.map lo).sum ≤ (l.map hi).sum := List.sum_le_sum fun t _ => h t
    have hbounds := h e
    -- of the first type no more is taken than the others cannot give
    obtain ⟨x, hx⟩ : ∃ x, x = max (lo e) (n - (l.map hi).sum) := ⟨_, rfl⟩
    obtain ⟨f, hf, hrest⟩ := ih hl (n := n - x) (by omega) (by omega)
    refine ⟨fun t => if t = e then x else f t, fun t => ?_, ?_⟩
    · show lo t ≤ (if t = e then x else f t) ∧ (if t = e then x else f t) ≤ hi t
      by_cases ht : t = e
      · rw [if_pos ht, ht]
        omega
      · rw [if_neg ht]
        exact hf t
    · have hsame : l.map (fun t => if t = e then x else f t) = l.map f :=
        List.map_congr_left fun t ht => if_neg fun (hte : t = e) => he (hte ▸ ht)
      rw [List.map_cons, List.sum_cons, if_pos rfl, hsame, hrest]
      omega

/-! ## Pools and costs -/

namespace EnergyPool

/-- The size of a pool is what it holds of each type. -/
theorem size_eq (p : EnergyPool) : p.size = unitsInAll fun e => (p.count e).toNat := by
  have hsum : ∀ l : List Energy, Word.sum (l.filterMap p.units.get?)
      = (l.map fun e => (p.count e).toNat).sum := by
    intro l
    induction l with
    | nil => rfl
    | cons e l ih =>
      rw [List.map_cons, List.sum_cons, ← ih]
      cases he : p.units.get? e with
      | none => simp [count, he]
      | some n => simp [count, he]
  exact hsum _

/-- A pool holds some units of one type, and those of the others. -/
theorem size_eq_add (p : EnergyPool) (k : Energy) :
    p.size = (p.count k).toNat + unitsOfOthers (fun e => (p.count e).toNat) k :=
  p.size_eq.trans (unitsInAll_eq _ k)

/-- The total is the size of a pool, as far as it fits a count. -/
theorem toNat_total (p : EnergyPool) : p.total.toNat = p.size % UInt32.size :=
  Word.toNat_sumWrapping _

theorem toNat_total_le (p : EnergyPool) : p.total.toNat ≤ p.size := by
  rw [toNat_total]
  exact Nat.mod_le _ _

theorem toNat_total_eq_iff (p : EnergyPool) : p.total.toNat = p.size ↔ p.size ≤ Word.limit := by
  constructor
  · intro h
    rw [← h]
    exact Word.toNat_le_limit _
  · intro h
    rw [toNat_total]
    exact Nat.mod_eq_of_lt (Nat.lt_succ_of_le h)

end EnergyPool

namespace Attack

/-- Every symbol of a cost is colorless, or asks for one type. -/
theorem length_cost (a : Attack) :
    a.cost.length
      = a.cost.count .colorless + unitsInAll fun e => a.cost.count (.typed e) := by
  obtain ⟨name, cost, damage, effect⟩ := a
  show cost.length = cost.count .colorless + unitsInAll fun e => cost.count (.typed e)
  induction cost with
  | nil => rfl
  | cons symbol cost ih =>
    simp only [List.length_cons, List.count_cons, unitsInAll_add, ih]
    cases symbol with
    | colorless =>
      have hone : unitsInAll (fun e => if CostSymbol.colorless == .typed e then 1 else 0) = 0 := by
        decide
      rw [hone, if_pos (by decide)]
      omega
    | typed k =>
      have hone : unitsInAll (fun e => if CostSymbol.typed k == .typed e then 1 else 0) = 1 := by
        cases k <;> decide
      rw [hone, if_neg (by simp)]
      omega

/-- So a cost is its colorless symbols, those of one type, and those of the others. -/
theorem length_cost_eq_add (a : Attack) (k : Energy) :
    a.cost.length = a.cost.count .colorless
      + (a.cost.count (.typed k) + unitsOfOthers (fun e => a.cost.count (.typed e)) k) := by
  rw [← unitsInAll_eq (fun e => a.cost.count (.typed e)) k]
  exact a.length_cost

variable {a : Attack} (h : a.cost.length ≤ Word.limit)
include h

theorem toNat_costTotal : a.costTotal.toNat = a.cost.length := Word.toNat_truncate_of_le h

theorem toNat_colorlessCost : a.colorlessCost.toNat = a.cost.count .colorless :=
  Word.toNat_truncate_of_le (Nat.le_trans List.count_le_length h)

theorem toNat_costOf (e : Energy) : (a.costOf e).toNat = a.cost.count (.typed e) :=
  Word.toNat_truncate_of_le (Nat.le_trans List.count_le_length h)

end Attack

/-! ## Payments -/

/-- A way to pay the cost of an attack from a pool: the units taken of each type. -/
structure Payment (p : EnergyPool) (a : Attack) where
  taken : Energy → Nat
  /-- A symbol of a type is paid with that type. -/
  typed : ∀ e, a.cost.count (.typed e) ≤ taken e
  /-- Only units that are attached can be taken. -/
  attached : ∀ e, taken e ≤ (p.count e).toNat
  /-- Each symbol is paid with one unit. -/
  exact : unitsInAll taken = a.cost.length

/-- The units a payment leaves, of one type or of all. -/
def Payment.left {p : EnergyPool} {a : Attack} (x : Payment p a) : Option Energy → Nat
  | some e => (p.count e).toNat - x.taken e
  | none => unitsInAll fun e => (p.count e).toNat - x.taken e

/-- A pool can pay for an attack: it has the units that typed symbols ask for, and enough for all
symbols. -/
structure EnergyPool.Affords (p : EnergyPool) (a : Attack) : Prop where
  typed : ∀ e, a.cost.count (.typed e) ≤ (p.count e).toNat
  all : a.cost.length ≤ p.size

/-- The most that can be left when the cost of an attack is paid: of all types what is not paid,
and of one type no more than its own symbols leave either. -/
def EnergyPool.mostLeft (p : EnergyPool) (a : Attack) : Option Energy → Nat
  | some k => min ((p.count k).toNat - a.cost.count (.typed k)) (p.size - a.cost.length)
  | none => p.size - a.cost.length

namespace Payment

variable {p : EnergyPool} {a : Attack} (x : Payment p a)

/-- What is paid and what is left are all units. -/
theorem left_none : x.left none + a.cost.length = p.size := by
  have hsplit : (fun e => (p.count e).toNat)
      = fun e => ((p.count e).toNat - x.taken e) + x.taken e := by
    funext e
    have := x.attached e
    omega
  rw [p.size_eq, hsplit, unitsInAll_add, x.exact]
  rfl

/-- No payment leaves more. -/
theorem left_le (energy : Option Energy) : x.left energy ≤ p.mostLeft a energy := by
  cases energy with
  | none =>
    have hall := x.left_none
    show x.left none ≤ p.size - a.cost.length
    omega
  | some k =>
    have htyped := x.typed k
    have hattached := x.attached k
    have hothers := unitsOfOthers_le x.attached k
    have hsize := p.size_eq_add k
    have hexact := x.exact
    rw [unitsInAll_eq _ k] at hexact
    show (p.count k).toNat - x.taken k ≤ min _ _
    omega

end Payment

namespace EnergyPool

variable {p : EnergyPool} {a : Attack}

/-- Some payment takes a given number of units of one type, when the other types can make up the
rest of the cost with no less than their own symbols ask for. -/
theorem exists_taking (h : p.Affords a) {k : Energy} {n : Nat}
    (htyped : a.cost.count (.typed k) ≤ n) (hattached : n ≤ (p.count k).toNat)
    (hleast : n + unitsOfOthers (fun e => a.cost.count (.typed e)) k ≤ a.cost.length)
    (hmost : a.cost.length ≤ n + unitsOfOthers (fun e => (p.count e).toNat) k) :
    ∃ x : Payment p a, x.taken k = n := by
  -- of `k` just `n` units, of the others anything between their symbols and what is attached
  let lo : Energy → Nat := fun e => if e = k then n else a.cost.count (.typed e)
  let hi : Energy → Nat := fun e => if e = k then n else (p.count e).toNat
  have hlok : lo k = n := if_pos rfl
  have hhik : hi k = n := if_pos rfl
  have hle : ∀ e, lo e ≤ hi e := by
    intro e
    by_cases he : e = k
    · rw [he, hlok, hhik]
    · simpa only [lo, hi, if_neg he] using h.typed e
  have hlo : unitsInAll lo = n + unitsOfOthers (fun e => a.cost.count (.typed e)) k := by
    rw [unitsInAll_eq lo k, hlok, unitsOfOthers_congr fun e he => if_neg he]
  have hhi : unitsInAll hi = n + unitsOfOthers (fun e => (p.count e).toNat) k := by
    rw [unitsInAll_eq hi k, hhik, unitsOfOthers_congr fun e he => if_neg he]
  obtain ⟨f, hf, hsum⟩ : ∃ f : Energy → Nat, (∀ e, lo e ≤ f e ∧ f e ≤ hi e)
      ∧ unitsInAll f = a.cost.length :=
    exists_between Enumeration.nodup_all hle (Nat.le_trans (Nat.le_of_eq hlo) hleast)
      (Nat.le_trans hmost (Nat.le_of_eq hhi.symm))
  have hbounds : ∀ e, a.cost.count (.typed e) ≤ f e ∧ f e ≤ (p.count e).toNat := by
    intro e
    have hfe := hf e
    by_cases he : e = k
    · subst he
      omega
    · simpa only [lo, hi, if_neg he] using hfe
  refine ⟨⟨f, fun e => (hbounds e).1, fun e => (hbounds e).2, hsum⟩, ?_⟩
  have hfk := hf k
  show f k = n
  omega

/-- Some payment leaves that much of a type: the one that takes of it what is not left. -/
theorem exists_left_eq (h : p.Affords a) (k : Energy) :
    ∃ x : Payment p a, x.left (some k) = p.mostLeft a (some k) := by
  have htyped := h.typed k
  have hpays := h.all
  have hothers := unitsOfOthers_le h.typed k
  have hsize := p.size_eq_add k
  have hcost := a.length_cost_eq_add k
  obtain ⟨n, hn⟩ : ∃ n, n = p.mostLeft a (some k) := ⟨_, rfl⟩
  have hmost : n = min ((p.count k).toNat - a.cost.count (.typed k)) (p.size - a.cost.length) := hn
  obtain ⟨x, hx⟩ : ∃ x : Payment p a, x.taken k = (p.count k).toNat - n :=
    exists_taking h (by omega) (by omega) (by omega) (by omega)
  refine ⟨x, ?_⟩
  rw [← hn]
  show (p.count k).toNat - x.taken k = n
  omega

/-- The most that can be left is what the best payment leaves. -/
theorem isGreatest_mostLeft (h : p.Affords a) (energy : Option Energy) :
    IsGreatest (Set.range fun x : Payment p a => x.left energy) (p.mostLeft a energy) := by
  refine ⟨?_, by rintro n ⟨x, rfl⟩; exact x.left_le energy⟩
  cases energy with
  | some k => exact exists_left_eq h k
  | none =>
    -- every payment leaves the same in all, and there is one
    obtain ⟨x, -⟩ := exists_left_eq h .grass
    have hall := x.left_none
    refine ⟨x, ?_⟩
    show x.left none = p.size - a.cost.length
    omega

/-! ## What is worked out -/

/-- What the other types can spare for colorless symbols when there are `n` units of all types
together: they pay for their own symbols first. -/
def spare (p : EnergyPool) (a : Attack) (k : Energy) (n : Nat) : Nat :=
  n - (p.count k).toNat - (a.cost.length - a.cost.count .colorless - a.cost.count (.typed k))

/-- What is worked out for a type: its own symbols are paid with it, and of the colorless ones
those that other types cannot pay, by the total of the pool. -/
theorem toNat_leftOver (h : a.cost.length ≤ Word.limit) (k : Energy) :
    (p.leftOver a k).toNat = (p.count k).toNat - a.cost.count (.typed k)
      - (a.cost.count .colorless - p.spare a k p.total.toNat) := by
  simp only [leftOver, spare, Word.toNat_sub, Attack.toNat_costTotal h,
    Attack.toNat_colorlessCost h, Attack.toNat_costOf h]

theorem toNat_extra_none (h : a.cost.length ≤ Word.limit) :
    (p.extra (some a) none).toNat = p.total.toNat - a.cost.length := by
  simp only [extra, Word.toNat_sub, Attack.toNat_costTotal h]

/-- The most that can be left is worked out in the same way from the size of the pool.  No
subtraction that stops at zero hides a debt. -/
theorem mostLeft_eq (h : p.Affords a) (k : Energy) :
    p.mostLeft a (some k) = (p.count k).toNat - a.cost.count (.typed k)
      - (a.cost.count .colorless - p.spare a k p.size) := by
  have htyped := h.typed k
  have hpays := h.all
  have hothers := unitsOfOthers_le h.typed k
  have hsize := p.size_eq_add k
  have hcost := a.length_cost_eq_add k
  unfold mostLeft spare
  dsimp only
  omega

/-- Where all units fit one count, the best is found. -/
theorem toNat_extra (h : p.Affords a) (hfits : p.size ≤ Word.limit) (energy : Option Energy) :
    (p.extra (some a) energy).toNat = p.mostLeft a energy := by
  have hlength := Nat.le_trans h.all hfits
  have htotal := p.toNat_total_eq_iff.2 hfits
  cases energy with
  | some k =>
    show (p.leftOver a k).toNat = _
    rw [toNat_leftOver hlength, mostLeft_eq h, htotal]
  | none =>
    rw [toNat_extra_none hlength, htotal]
    rfl

/-- Whatever the total, no more is found than the best payment leaves. -/
theorem toNat_extra_le (h : p.Affords a) (hlength : a.cost.length ≤ Word.limit)
    (energy : Option Energy) : (p.extra (some a) energy).toNat ≤ p.mostLeft a energy := by
  have htotal := p.toNat_total_le
  cases energy with
  | some k =>
    show (p.leftOver a k).toNat ≤ _
    rw [toNat_leftOver hlength, mostLeft_eq h]
    unfold spare
    omega
  | none =>
    rw [toNat_extra_none hlength]
    show _ ≤ p.size - a.cost.length
    omega

/-- Of all types together the best is found only where all units fit one count. -/
theorem toNat_extra_none_eq_iff (h : p.Affords a) (hlength : a.cost.length ≤ Word.limit) :
    (p.extra (some a) none).toNat = p.mostLeft a none ↔ p.size ≤ Word.limit := by
  refine ⟨fun heq => ?_, fun hfits => toNat_extra h hfits none⟩
  have hpays := h.all
  have htotal := p.total.toNat_le_limit
  rw [toNat_extra_none hlength] at heq
  replace heq : p.total.toNat - a.cost.length = p.size - a.cost.length := heq
  -- some of more units than a count holds are left, so both differences are positive
  by_contra hover
  omega

/-- Of one type the best is found only where nothing of it can be left, or where the overlooked
units pay for no colorless symbol. -/
theorem toNat_leftOver_eq_iff (h : p.Affords a) (hlength : a.cost.length ≤ Word.limit)
    (k : Energy) :
    (p.leftOver a k).toNat = p.mostLeft a (some k)
      ↔ (p.count k).toNat = a.cost.count (.typed k)
        ∨ min (a.cost.count .colorless) (p.spare a k p.total.toNat)
          = min (a.cost.count .colorless) (p.spare a k p.size) := by
  have htyped := h.typed k
  have hothers := unitsOfOthers_le h.typed k
  have hsize := p.size_eq_add k
  have hcost := a.length_cost_eq_add k
  have htotal := p.toNat_total_eq_iff
  have hspare : p.spare a k p.size = p.size - (p.count k).toNat
      - (a.cost.length - a.cost.count .colorless - a.cost.count (.typed k)) := rfl
  rw [toNat_leftOver hlength, mostLeft_eq h]
  rcases Nat.lt_or_ge Word.limit p.size with hover | hfits
  · -- with more units than a count holds, more than the colorless symbols ask for is left
    have hmore : a.cost.count .colorless
        < (p.count k).toNat - a.cost.count (.typed k) + p.spare a k p.size := by omega
    generalize p.spare a k p.total.toNat = found
    omega
  · rw [htotal.2 hfits]
    exact ⟨fun _ => .inr rfl, fun _ => rfl⟩

end EnergyPool

/-! ## Bonuses for extra energy -/

namespace Board

/-- Extra energy is the best that the acting Pokémon has over all ways to pay for the attack. -/
structure BestExtra (s : Setting) (b : Board) (a : Attack) : Prop where
  /-- Of one type, or of all, as many units count as some payment leaves, and no payment leaves
  more. -/
  greatest : ∀ energy, IsGreatest (Set.range fun x : Payment b.attacker.energy a => x.left energy)
    (b.attacker.energy.extra s.attack energy).toNat
  /-- Of all types together, what is left of all units. -/
  inAll : (b.attacker.energy.extra s.attack none).toNat = b.attacker.energy.size - a.cost.length
  /-- A bonus is given when some payment leaves what it asks for. -/
  met : ∀ energy atLeast, (DamageCondition.selfExtraEnergy energy atLeast).holds s b = true
    ↔ ∃ x : Payment b.attacker.energy a, atLeast.toNat ≤ x.left energy

/-- Extra energy is no more than some payment leaves, and it is known when it is less than the
best. -/
structure BoundedExtra (s : Setting) (b : Board) (a : Attack) : Prop where
  /-- Of one type, or of all, some payment leaves as much. -/
  within : ∀ energy, ∃ x : Payment b.attacker.energy a,
    (b.attacker.energy.extra s.attack energy).toNat ≤ x.left energy
  /-- Where a bonus is given, some payment leaves what it asks for. -/
  met : ∀ energy atLeast, (DamageCondition.selfExtraEnergy energy atLeast).holds s b = true →
    ∃ x : Payment b.attacker.energy a, atLeast.toNat ≤ x.left energy
  /-- Of all types together, it is the best exactly if all units fit one count. -/
  inAll : IsGreatest (Set.range fun x : Payment b.attacker.energy a => x.left none)
      (b.attacker.energy.extra s.attack none).toNat
    ↔ b.attacker.energy.size ≤ Word.limit
  /-- Of one type, it is the best exactly if nothing of the type can be left, or if other types
  are found to pay for as many colorless symbols as they can. -/
  ofType : ∀ k, IsGreatest (Set.range fun x : Payment b.attacker.energy a => x.left (some k))
      (b.attacker.energy.extra s.attack (some k)).toNat
    ↔ (b.attacker.energy.count k).toNat = a.cost.count (.typed k)
      ∨ min (a.cost.count .colorless)
          (b.attacker.energy.spare a k b.attacker.energy.total.toNat)
        = min (a.cost.count .colorless) (b.attacker.energy.spare a k b.attacker.energy.size)

variable {s : Setting} {b : Board} {a : Attack}

theorem holds_selfExtraEnergy (s : Setting) (b : Board) (energy : Option Energy) (atLeast : Word) :
    (DamageCondition.selfExtraEnergy energy atLeast).holds s b = true
      ↔ atLeast.toNat ≤ (b.attacker.energy.extra s.attack energy).toNat :=
  decide_eq_true_iff.trans UInt32.le_iff_toNat_le

theorem bestExtra_of_size_le (ha : s.attack = some a) (hpays : b.attacker.energy.Affords a)
    (hfits : b.attacker.energy.size ≤ Word.limit) : b.BestExtra s a := by
  have hextra := EnergyPool.toNat_extra hpays hfits
  rw [← ha] at hextra
  have hbest : ∀ energy, IsGreatest
      (Set.range fun x : Payment b.attacker.energy a => x.left energy)
      (b.attacker.energy.extra s.attack energy).toNat := by
    intro energy
    rw [hextra]
    exact EnergyPool.isGreatest_mostLeft hpays energy
  refine ⟨hbest, hextra none, fun energy atLeast => ?_⟩
  rw [holds_selfExtraEnergy]
  obtain ⟨⟨x, hx⟩, hmost⟩ := hbest energy
  constructor
  · exact fun hle => ⟨x, Nat.le_trans hle (Nat.le_of_eq hx.symm)⟩
  · rintro ⟨y, hy⟩
    exact Nat.le_trans hy (hmost ⟨y, rfl⟩)

theorem boundedExtra_of_affords (ha : s.attack = some a) (hpays : b.attacker.energy.Affords a)
    (hlength : a.cost.length ≤ Word.limit) : b.BoundedExtra s a := by
  have hbest := EnergyPool.isGreatest_mostLeft hpays
  have hwithin : ∀ energy, ∃ x : Payment b.attacker.energy a,
      (b.attacker.energy.extra s.attack energy).toNat ≤ x.left energy := by
    intro energy
    obtain ⟨⟨x, hx⟩, -⟩ := hbest energy
    rw [ha]
    exact ⟨x, Nat.le_trans (EnergyPool.toNat_extra_le hpays hlength energy) (Nat.le_of_eq hx.symm)⟩
  -- a set of numbers has one greatest
  have hiff : ∀ energy, IsGreatest
      (Set.range fun x : Payment b.attacker.energy a => x.left energy)
      (b.attacker.energy.extra s.attack energy).toNat
        ↔ (b.attacker.energy.extra (some a) energy).toNat
          = b.attacker.energy.mostLeft a energy := by
    intro energy
    rw [ha]
    exact ⟨fun hgreatest => hgreatest.unique (hbest energy), fun heq => heq ▸ hbest energy⟩
  refine ⟨hwithin, fun energy atLeast hmet => ?_, ?_, fun k => ?_⟩
  · rw [holds_selfExtraEnergy] at hmet
    obtain ⟨x, hx⟩ := hwithin energy
    exact ⟨x, Nat.le_trans hmet hx⟩
  · rw [hiff]
    exact EnergyPool.toNat_extra_none_eq_iff hpays hlength
  · rw [hiff]
    exact EnergyPool.toNat_leftOver_eq_iff hpays hlength k

/-- An attack that asks for two water and one of any type. -/
def hydroPump : Attack :=
  ⟨"Hydro Pump", [.typed .water, .typed .water, .colorless], 80, ""⟩

/-- A board where the acting Pokémon has four water and one grass. -/
def hydroBoard : Board where
  attacker := { Combatant.new "Blastoise" .water 150 with
    energy := .ofUnits [(.water, 4), (.grass, 1)] }
  defender := none
  coins := .ofSeed 0

theorem affords_hydroPump : hydroBoard.attacker.energy.Affords hydroPump :=
  ⟨fun e => by cases e <;> decide, by decide⟩

/-- An attack that asks for one of any type. -/
def ember : Attack := ⟨"Ember", [.colorless], 30, ""⟩

/-- A board where the acting Pokémon has all the fire that fits a count, and two water. -/
def brimmingBoard : Board where
  attacker := { Combatant.new "Charmander" .fire 100 with
    energy := .ofUnits [(.fire, 4294967295), (.water, 2)] }
  defender := none
  coins := .ofSeed 0

theorem affords_ember : brimmingBoard.attacker.energy.Affords ember :=
  ⟨fun e => by cases e <;> decide, by decide⟩

/-- Ember paid with water. -/
def emberFromWater : Payment brimmingBoard.attacker.energy ember where
  taken
    | .water => 1
    | _ => 0
  typed e := by cases e <;> decide
  attached e := by cases e <;> decide
  exact := by decide

end Board

end CardEffects
