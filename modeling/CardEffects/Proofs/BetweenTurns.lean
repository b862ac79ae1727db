/-
  CardEffects.Proofs.BetweenTurns

  The check between turns, whatever the rules, the Pokémon and the coins.  Each condition in force
  is checked once, in order, against what the checks before it left: its damage is cut to the hit
  points still there, and it goes away when its rule says so, or when the next coin does.

    * `ConditionRules.damageOf` — what conditions deal by their rules, before it is cut.
    * `ConditionRules.getElem?_checkEach` — each log is that of one check, made behind those
      before it.
    * `ConditionRules.hp_checkEach`, `sum_checkEach`, `get?_checkEach`, `gives_checkEach` — hit
      points, logged damage, conditions and coins behind several checks.
    * `ConditionRules.Checked`, `ConditionRules.checked_betweenTurns` — the check of a Pokémon.
    * `ConditionRules.throughTurns` — the checks of several turns.
    * `ConditionRules.betweenTurns_checks` — the check, and many of them where no condition goes
      away by itself.
-/
import CardEffects.BetweenTurns
import CardEffects.Proofs.Replay.Flips
import Mathlib.Data.List.Nodup

namespace CardEffects

/-- The damage that logs report in all. -/
def loggedDamage (logs : List CheckLog) : Nat := Word.sum (logs.map CheckLog.damage)

/-- What a log says about the removal is what the rule says: a condition stays, goes, or goes on
heads of the coin in the log. -/
def Removal.Settles (l : CheckLog) : Removal → Prop
  | never => l.roll = none ∧ l.removed = false
  | afterOneTurn => l.roll = none ∧ l.removed = true
  | coinFlip => l.roll = some l.removed

namespace ConditionRules

variable (t : ConditionRules) (turn : Word)

/-- The damage that conditions deal by their rules. -/
def damageOf (cs : List Condition) : Nat := Word.sum (cs.map fun c => (t.rule c).damage)

@[simp] theorem damageOf_nil : t.damageOf [] = 0 := rfl

@[simp] theorem damageOf_cons (c : Condition) (cs : List Condition) :
    t.damageOf (c :: cs) = (t.rule c).damage.toNat + t.damageOf cs := rfl

/-! ## One check -/

section One

variable (m : Combatant) (coins : Coins) (c : Condition)

theorem checkOne_fst : (t.checkOne turn m coins c).1.condition = c
    ∧ (t.checkOne turn m coins c).1.turn = turn := ⟨rfl, rfl⟩

/-- The damage is that of the rule, as far as there are hit points. -/
theorem damage_checkOne :
    (t.checkOne turn m coins c).1.damage.toNat = min (t.rule c).damage.toNat m.hp.toNat :=
  Word.toNat_least _ _

/-- Only hit points and conditions change. -/
theorem snd_checkOne :
    (t.checkOne turn m coins c).2.1
      = { m with
          hp := Word.sub m.hp (Word.least (t.rule c).damage m.hp)
          conditions := if (t.checkOne turn m coins c).1.removed then (m.conditions.remove c).2
            else m.conditions } := by
  unfold checkOne
  dsimp only
  split <;> rfl

theorem hp_checkOne :
    (t.checkOne turn m coins c).2.1.hp.toNat = m.hp.toNat - (t.rule c).damage.toNat := by
  rw [snd_checkOne]
  simp only [Word.toNat_sub, Word.toNat_least]
  omega

theorem knockedOut_checkOne :
    (t.checkOne turn m coins c).1.knockedOut = true
      ↔ m.hp.toNat - (t.rule c).damage.toNat = 0 := by
  rw [← t.hp_checkOne turn m coins c]
  show ((t.checkOne turn m coins c).2.1.hp == 0) = true ↔ _
  rw [beq_iff_eq, ← UInt32.toNat_inj]
  rfl

theorem settles_checkOne : (t.rule c).removal.Settles (t.checkOne turn m coins c).1 := by
  unfold checkOne
  dsimp only
  cases (t.rule c).removal with
  | never => exact ⟨rfl, rfl⟩
  | afterOneTurn => exact ⟨rfl, rfl⟩
  | coinFlip => rfl

/-- A coin is taken exactly when one is logged. -/
theorem gives_checkOne :
    coins.Gives (t.checkOne turn m coins c).1.roll.toList (t.checkOne turn m coins c).2.2 := by
  unfold checkOne
  dsimp only
  cases (t.rule c).removal with
  | never => exact coins.gives_nil
  | afterOneTurn => exact coins.gives_nil
  | coinFlip => exact coins.gives_face

/-- A condition that is removed is in force no more; all others stay as they are. -/
theorem get?_checkOne (d : Condition) :
    (t.checkOne turn m coins c).2.1.conditions.get? d
      = if c = d ∧ (t.checkOne turn m coins c).1.removed = true then none
        else m.conditions.get? d := by
  rw [snd_checkOne]
  dsimp only
  cases (t.checkOne turn m coins c).1.removed with
  | false => simp
  | true =>
    simp only [if_true, and_true]
    unfold Conditions.remove
    split
    · show (m.conditions.active.erase c).get? d = _
      rw [EnumMap.get?_erase]
      simp only [eq_comm]
      rfl
    next hc =>
      -- a condition that is not in force has no entry to lose
      split
      next hcd =>
        subst hcd
        exact Option.not_isSome_iff_eq_none.1 hc
      next => rfl

end One

/-! ## Several checks -/

variable (m : Combatant) (coins : Coins)

theorem checkEach_cons (c : Condition) (cs : List Condition) :
    t.checkEach turn m coins (c :: cs)
      = ((t.checkOne turn m coins c).1
            :: (t.checkEach turn (t.checkOne turn m coins c).2.1
                (t.checkOne turn m coins c).2.2 cs).1,
          (t.checkEach turn (t.checkOne turn m coins c).2.1
            (t.checkOne turn m coins c).2.2 cs).2) := rfl

/-- The log at a place is that of the condition there, checked behind those before it. -/
theorem getElem?_checkEach (cs : List Condition) (i : Nat) :
    (t.checkEach turn m coins cs).1[i]?
      = cs[i]?.map fun c =>
          (t.checkOne turn (t.checkEach turn m coins (cs.take i)).2.1
            (t.checkEach turn m coins (cs.take i)).2.2 c).1 := by
  -- along the conditions; the first check leaves what the others start from
  induction cs generalizing m coins i with
  | nil => rfl
  | cons c cs ih =>
    rw [checkEach_cons]
    cases i with
    | zero => rfl
    | succ i => exact ih _ _ i

theorem condition_checkEach (cs : List Condition) :
    (t.checkEach turn m coins cs).1.map CheckLog.condition = cs := by
  induction cs generalizing m coins with
  | nil => rfl
  | cons c cs ih => rw [checkEach_cons, List.map_cons, ih, (t.checkOne_fst turn m coins c).1]

theorem turn_checkEach (cs : List Condition) :
    ∀ l ∈ (t.checkEach turn m coins cs).1, l.turn = turn := by
  induction cs generalizing m coins with
  | nil => exact fun l hl => nomatch hl
  | cons c cs ih =>
    rw [checkEach_cons]
    exact List.forall_mem_cons.2 ⟨(t.checkOne_fst turn m coins c).2, ih _ _⟩

/-- The logs of the first checks are the first logs. -/
theorem take_checkEach (cs : List Condition) (i : Nat) :
    (t.checkEach turn m coins (cs.take i)).1 = (t.checkEach turn m coins cs).1.take i := by
  induction cs generalizing m coins i with
  | nil => rw [List.take_nil, checkEach, List.take_nil]
  | cons c cs ih =>
    cases i with
    | zero => rfl
    | succ i => rw [List.take_succ_cons, checkEach_cons, checkEach_cons, List.take_succ_cons, ih]

/-- The damage of the rules is taken as far as there are hit points. -/
theorem hp_checkEach (cs : List Condition) :
    (t.checkEach turn m coins cs).2.1.hp.toNat = m.hp.toNat - t.damageOf cs := by
  induction cs generalizing m coins with
  | nil => rfl
  | cons c cs ih =>
    have hfirst := t.hp_checkOne turn m coins c
    have hrest := ih (t.checkOne turn m coins c).2.1 (t.checkOne turn m coins c).2.2
    rw [checkEach_cons, damageOf_cons]
    dsimp only
    omega

/-- The damage that is logged is the hit points that are lost. -/
theorem sum_checkEach (cs : List Condition) :
    (t.checkEach turn m coins cs).2.1.hp.toNat + loggedDamage (t.checkEach turn m coins cs).1
      = m.hp.toNat := by
  induction cs generalizing m coins with
  | nil => rfl
  | cons c cs ih =>
    have hdamage := t.damage_checkOne turn m coins c
    have hfirst := t.hp_checkOne turn m coins c
    have hrest := ih (t.checkOne turn m coins c).2.1 (t.checkOne turn m coins c).2.2
    unfold loggedDamage at hrest ⊢
    rw [checkEach_cons, List.map_cons, Word.sum_cons]
    dsimp only
    omega

theorem settles_checkEach (cs : List Condition) :
    ∀ l ∈ (t.checkEach turn m coins cs).1, (t.rule l.condition).removal.Settles l := by
  induction cs generalizing m coins with
  | nil => exact fun l hl => nomatch hl
  | cons c cs ih =>
    rw [checkEach_cons]
    exact List.forall_mem_cons.2 ⟨t.settles_checkOne turn m coins c, ih _ _⟩

/-- The coins logged are those taken, in order. -/
theorem gives_checkEach (cs : List Condition) :
    coins.Gives ((t.checkEach turn m coins cs).1.filterMap CheckLog.roll)
      (t.checkEach turn m coins cs).2.2 := by
  induction cs generalizing m coins with
  | nil => exact coins.gives_nil
  | cons c cs ih =>
    have hfirst := t.gives_checkOne turn m coins c
    have hboth := hfirst.append (ih (t.checkOne turn m coins c).2.1 _)
    rw [checkEach_cons, List.filterMap_cons]
    cases hroll : (t.checkOne turn m coins c).1.roll with
    | none =>
      rw [hroll] at hboth
      exact hboth
    | some face =>
      rw [hroll] at hboth
      exact hboth

/-- A condition is in force behind the checks when it was before, and no check removed it. -/
theorem get?_checkEach (cs : List Condition) (d : Condition) :
    (t.checkEach turn m coins cs).2.1.conditions.get? d
      = if ∃ l ∈ (t.checkEach turn m coins cs).1, l.condition = d ∧ l.removed = true then none
        else m.conditions.get? d := by
  induction cs generalizing m coins with
  | nil => simp [checkEach]
  | cons c cs ih =>
    rw [checkEach_cons]
    dsimp only
    rw [ih, get?_checkOne]
    simp only [List.mem_cons, exists_eq_or_imp, (t.checkOne_fst turn m coins c).1]
    -- removed by the first check, by a later one, or by none
    by_cases hfirst : c = d ∧ (t.checkOne turn m coins c).1.removed = true
    · rw [if_pos hfirst, if_pos (Or.inl hfirst), ite_self]
    · simp only [hfirst, if_false, false_or]

theorem rest_checkEach (cs : List Condition) :
    (t.checkEach turn m coins cs).2.1
      = { m with
          hp := (t.checkEach turn m coins cs).2.1.hp
          conditions := (t.checkEach turn m coins cs).2.1.conditions } := by
  induction cs generalizing m coins with
  | nil => rfl
  | cons c cs ih =>
    rw [checkEach_cons]
    dsimp only
    rw [ih, snd_checkOne]

/-! ## The check of a Pokémon -/

/-- What the check between turns comes to: its logs, and the Pokémon and the coins behind it. -/
structure Checked (out : List CheckLog × Combatant × Coins) : Prop where
  /-- There is one log for each condition in force, in the order of the conditions. -/
  conditions : out.1.map CheckLog.condition
    = (Enumeration.all : List Condition).filter m.conditions.contains
  turn : ∀ l ∈ out.1, l.turn = turn
  /-- A log has the damage of its rule, cut to the hit points that the logs before it left. -/
  damage : ∀ i l, out.1[i]? = some l → l.damage.toNat
    = min (t.rule l.condition).damage.toNat (m.hp.toNat - loggedDamage (out.1.take i))
  /-- The damage in the logs is what is lost. -/
  lost : out.2.1.hp.toNat + loggedDamage out.1 = m.hp.toNat
  hp : out.2.1.hp.toNat
    = m.hp.toNat - min m.hp.toNat
        (t.damageOf ((Enumeration.all : List Condition).filter m.conditions.contains))
  /-- A log says knocked out exactly when no hit points are left by then. -/
  knockedOut : ∀ i l, out.1[i]? = some l →
    (l.knockedOut = true ↔ m.hp.toNat - loggedDamage (out.1.take (i + 1)) = 0)
  /-- Behind a log that says so all others do, and report no damage. -/
  staysOut : ∀ (i j : Nat) (l l' : CheckLog), i < j → out.1[i]? = some l → out.1[j]? = some l' →
    l.knockedOut = true → l'.knockedOut = true ∧ l'.damage = 0
  /-- In force afterwards is what was in force and was not removed by its check, as it was. -/
  remaining : ∀ c entry, out.2.1.conditions.get? c = some entry
    ↔ m.conditions.get? c = some entry ∧ ∃ l ∈ out.1, l.condition = c ∧ l.removed = false
  removal : ∀ l ∈ out.1, (t.rule l.condition).removal.Settles l
  /-- The coins in the logs are the next ones of the source, and no other is taken. -/
  rolls : coins.Gives (out.1.filterMap CheckLog.roll) out.2.2
  rest : out.2.1 = { m with hp := out.2.1.hp, conditions := out.2.1.conditions }

section Places

variable {t turn m coins} {cs : List Condition}

/-- What the logs before a place leave of the hit points. -/
theorem hp_take (i : Nat) :
    (t.checkEach turn m coins (cs.take i)).2.1.hp.toNat
      = m.hp.toNat - loggedDamage ((t.checkEach turn m coins cs).1.take i) := by
  have hsum := t.sum_checkEach turn m coins (cs.take i)
  rw [take_checkEach] at hsum
  omega

variable {i : Nat} {l : CheckLog} (h : (t.checkEach turn m coins cs).1[i]? = some l)

include h

/-- A log is that of a check made behind the logs before it. -/
theorem exists_checkOne : ∃ m' coins', l = (t.checkOne turn m' coins' l.condition).1
    ∧ m'.hp.toNat = m.hp.toNat - loggedDamage ((t.checkEach turn m coins cs).1.take i) := by
  rw [getElem?_checkEach] at h
  obtain ⟨c, -, rfl⟩ := Option.map_eq_some_iff.1 h
  exact ⟨_, _, by rw [(t.checkOne_fst turn _ _ c).1], hp_take i⟩

theorem damage_of_log : l.damage.toNat
    = min (t.rule l.condition).damage.toNat
        (m.hp.toNat - loggedDamage ((t.checkEach turn m coins cs).1.take i)) := by
  obtain ⟨m', coins', hl, hhp⟩ := exists_checkOne h
  have hdamage := t.damage_checkOne turn m' coins' l.condition
  rw [← hl, hhp] at hdamage
  exact hdamage

theorem loggedDamage_take_succ :
    loggedDamage ((t.checkEach turn m coins cs).1.take (i + 1))
      = loggedDamage ((t.checkEach turn m coins cs).1.take i) + l.damage.toNat := by
  rw [List.take_add_one, h]
  simp [loggedDamage]

theorem knockedOut_of_log : l.knockedOut = true
    ↔ m.hp.toNat - loggedDamage ((t.checkEach turn m coins cs).1.take (i + 1)) = 0 := by
  obtain ⟨m', coins', hl, hhp⟩ := exists_checkOne h
  have hout := t.knockedOut_checkOne turn m' coins' l.condition
  have hdamage := damage_of_log h
  rw [← hl, hhp] at hout
  rw [hout, loggedDamage_take_succ h]
  omega

end Places

theorem loggedDamage_take_le (logs : List CheckLog) {i j : Nat} (h : i ≤ j) :
    loggedDamage (logs.take i) ≤ loggedDamage (logs.take j) := by
  obtain ⟨k, rfl⟩ := Nat.exists_eq_add_of_le h
  rw [List.take_add]
  simp [loggedDamage]

/-- Behind a log that says knocked out there are no hit points left to lose. -/
theorem staysOut_of_log {cs : List Condition} {i j : Nat} {l l' : CheckLog} (hij : i < j)
    (hl : (t.checkEach turn m coins cs).1[i]? = some l)
    (hl' : (t.checkEach turn m coins cs).1[j]? = some l') (hout : l.knockedOut = true) :
    l'.knockedOut = true ∧ l'.damage = 0 := by
  have hbefore : i + 1 ≤ j := hij
  have hle := loggedDamage_take_le (t.checkEach turn m coins cs).1 hbefore
  have hdamage := damage_of_log hl'
  have hsum := loggedDamage_take_succ hl'
  have hgone := (knockedOut_of_log hl).1 hout
  -- nothing was left behind `l`, so nothing is left before `l'`
  refine ⟨(knockedOut_of_log hl').2 (by omega), Word.ext ?_⟩
  rw [UInt32.toNat_zero]
  omega

/-- In force behind the check is what was in force and is not removed by the log it has. -/
theorem remaining_betweenTurns (c : Condition) (entry : ConditionEntry) :
    (t.betweenTurns turn m coins).2.1.conditions.get? c = some entry
      ↔ m.conditions.get? c = some entry
        ∧ ∃ l ∈ (t.betweenTurns turn m coins).1, l.condition = c ∧ l.removed = false := by
  have hget : (t.betweenTurns turn m coins).2.1.conditions.get? c = _ :=
    t.get?_checkEach turn m coins m.conditions.kinds c
  have hlogs : (t.betweenTurns turn m coins).1.map CheckLog.condition = m.conditions.kinds :=
    t.condition_checkEach turn m coins m.conditions.kinds
  have hnodup : ((t.betweenTurns turn m coins).1.map CheckLog.condition).Nodup := by
    rw [hlogs]
    exact Enumeration.nodup_all.filter _
  rw [hget]
  constructor
  · intro h
    split at h
    · cases h
    next hkept =>
      -- a condition in force has a log, and it does not say removed
      have hin : c ∈ (t.betweenTurns turn m coins).1.map CheckLog.condition := by
        rw [hlogs]
        exact EnumMap.mem_keys.2 (Option.isSome_of_eq_some h)
      obtain ⟨l, hl, rfl⟩ := List.mem_map.1 hin
      refine ⟨h, l, hl, rfl, Bool.eq_false_iff.2 fun hremoved => ?_⟩
      exact hkept ⟨l, hl, rfl, hremoved⟩
  · rintro ⟨h, l, hl, rfl, hstays⟩
    rw [if_neg, h]
    -- there is no other log of the same condition
    rintro ⟨l', hl', hsame, hremoved⟩
    obtain rfl := List.inj_on_of_nodup_map hnodup hl' hl hsame
    rw [hstays] at hremoved
    cases hremoved

/-- The check between turns comes to that, whatever the rules. -/
theorem checked_betweenTurns : t.Checked turn m coins (t.betweenTurns turn m coins) where
  conditions := t.condition_checkEach turn m coins _
  turn := t.turn_checkEach turn m coins _
  damage := fun _ _ => damage_of_log
  lost := t.sum_checkEach turn m coins _
  hp := by
    have hhp : (t.betweenTurns turn m coins).2.1.hp.toNat
        = m.hp.toNat - t.damageOf ((Enumeration.all : List Condition).filter
            m.conditions.contains) := t.hp_checkEach turn m coins _
    omega
  knockedOut := fun _ _ => knockedOut_of_log
  staysOut := fun _ _ _ _ => t.staysOut_of_log turn m coins
  remaining := t.remaining_betweenTurns turn m coins
  removal := t.settles_checkEach turn m coins _
  rolls := t.gives_checkEach turn m coins _
  rest := t.rest_checkEach turn m coins _

/-! ## Many turns -/

/-- The Pokémon and the coins behind the checks of several turns. -/
def throughTurns (m : Combatant) (coins : Coins) : List Word → Combatant × Coins
  | [] => (m, coins)
  | turn :: turns =>
    throughTurns (t.betweenTurns turn m coins).2.1 (t.betweenTurns turn m coins).2.2 turns

/-- The rules let no condition of a Pokémon go away by itself. -/
def Lasting : Prop := ∀ c, m.conditions.contains c = true → (t.rule c).removal = .never

variable {t m}

/-- Where no condition goes away by itself, a check only takes hit points. -/
theorem snd_betweenTurns_of_lasting (h : t.Lasting m) :
    (t.betweenTurns turn m coins).2
      = ({ m with hp := (t.betweenTurns turn m coins).2.1.hp }, coins) := by
  have hchecked := t.checked_betweenTurns turn m coins
  have hsettled : ∀ l ∈ (t.betweenTurns turn m coins).1, l.roll = none ∧ l.removed = false := by
    intro l hl
    have hin : l.condition ∈ (t.betweenTurns turn m coins).1.map CheckLog.condition :=
      List.mem_map_of_mem hl
    rw [hchecked.conditions] at hin
    have hsettles := hchecked.removal l hl
    rw [h l.condition (List.mem_filter.1 hin).2] at hsettles
    exact hsettles
  -- so no coin is taken, and no condition is removed
  have hcoins : (t.betweenTurns turn m coins).2.2 = coins := by
    have hrolls := hchecked.rolls
    rw [List.filterMap_eq_nil_iff.2 fun l hl => (hsettled l hl).1] at hrolls
    exact (congrArg Prod.snd hrolls).symm
  have hconditions : (t.betweenTurns turn m coins).2.1.conditions = m.conditions := by
    have hget : ∀ c, (t.betweenTurns turn m coins).2.1.conditions.get? c
        = m.conditions.get? c := by
      intro c
      refine (t.get?_checkEach turn m coins m.conditions.kinds c).trans (if_neg ?_)
      rintro ⟨l, hl, -, hremoved⟩
      rw [(hsettled l hl).2] at hremoved
      cases hremoved
    exact congrArg Conditions.mk (EnumMap.ext hget)
  have hrest := hchecked.rest
  rw [hconditions] at hrest
  exact Prod.ext hrest hcoins

/-- Through many turns the damage adds up, until no hit points are left. -/
theorem throughTurns_of_lasting (h : t.Lasting m) (turns : List Word) :
    ∃ hp : Word, t.throughTurns m coins turns = ({ m with hp }, coins)
      ∧ hp.toNat = m.hp.toNat - min m.hp.toNat (turns.length * t.damageOf m.conditions.kinds) := by
  induction turns generalizing m with
  | nil => exact ⟨m.hp, rfl, by simp⟩
  | cons turn turns ih =>
    have hfirst := snd_betweenTurns_of_lasting turn coins h
    have hhp := (t.checked_betweenTurns turn m coins).hp
    rw [throughTurns, hfirst]
    -- the conditions are the same, so the checks of the other turns deal as much
    obtain ⟨hp, hrun, hleft⟩ :=
      ih (m := { m with hp := (t.betweenTurns turn m coins).2.1.hp }) h
    refine ⟨hp, hrun, ?_⟩
    rw [List.length_cons, Nat.succ_mul]
    change hp.toNat = (t.betweenTurns turn m coins).2.1.hp.toNat
      - min (t.betweenTurns turn m coins).2.1.hp.toNat
          (turns.length * t.damageOf m.conditions.kinds) at hleft
    change (t.betweenTurns turn m coins).2.1.hp.toNat
      = m.hp.toNat - min m.hp.toNat (t.damageOf m.conditions.kinds) at hhp
    omega

variable (t m)

/-- **The check between turns.**  Whatever the rules, valid or not, and whatever the Pokémon and
the coins, each condition in force is checked once, in order: it deals its damage as far as there
are hit points, and it goes away as its rule says, on heads of the next coin where the rule asks
for one.  Nothing else changes.  Where no condition goes away by itself, any number of checks take
hit points only, as many times the damage of all conditions, and no coin. -/
theorem betweenTurns_checks :
    (∀ turn, t.Checked turn m coins (t.betweenTurns turn m coins))
      ∧ (t.Lasting m → ∀ turns : List Word, ∃ hp : Word,
          t.throughTurns m coins turns = ({ m with hp }, coins)
            ∧ hp.toNat = m.hp.toNat - min m.hp.toNat (turns.length
                * t.damageOf ((Enumeration.all : List Condition).filter
                    m.conditions.contains))) :=
  ⟨fun turn => t.checked_betweenTurns turn m coins,
    fun h turns => throughTurns_of_lasting coins h turns⟩

/-! ### Burned and poisoned for three turns -/

/-- A Pokémon with two conditions that last. -/
def scorched : Combatant :=
  (((Combatant.new "Chansey" .psychic 100).inflict .burned 1).2.inflict .poisoned 1).2

theorem lasting_scorched : standard.Lasting scorched := by
  intro c
  cases c <;> decide

/-- Thirty hit points go each turn, and after three turns ten are left. -/
theorem checks_scorched :
    standard.throughTurns scorched (.ofSeed 0) [1, 2, 3]
      = ({ scorched with hp := 10 }, .ofSeed 0) := by
  obtain ⟨hp, hrun, hleft⟩ :=
    (betweenTurns_checks standard scorched (.ofSeed 0)).2 lasting_scorched [1, 2, 3]
  have hten : hp = 10 := Word.ext (hleft.trans (by decide))
  rw [hrun, hten]

end ConditionRules

end CardEffects
