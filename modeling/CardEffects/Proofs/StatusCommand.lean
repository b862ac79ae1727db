/-
  CardEffects.Proofs.StatusCommand

  The command that shows one condition at work.  It makes checks until the Pokémon is knocked out,
  is rid of the condition, or has had as many as were asked for.  How many that are is known
  beforehand: from the hit points and the damage where the condition stays, and from the coins
  where it goes away on heads.

    * `ConditionRules.logsThrough` — the logs of the checks of several turns.
    * `CommandLine.watch_checks` — what is printed, once it is known which check is the last.
    * `CommandLine.lastingChecks` — the number of checks of a condition that stays.
    * `CommandLine.StatusRun`, `CommandLine.status_run` — what the command prints on a condition.
-/
import CardEffects.CommandLine
import CardEffects.Proofs.BetweenTurns
import CardEffects.Proofs.Config.Validity
import Mathlib.Algebra.Order.Floor.Div

namespace CardEffects

/-! ## Checks of one condition -/

theorem Conditions.isEmpty_iff {s : Conditions} : s.isEmpty = true ↔ s.kinds = [] := by
  simp only [isEmpty, EnumMap.isEmpty_iff, List.eq_nil_iff_forall_not_mem, kinds, EnumMap.mem_keys,
    Option.not_isSome_iff_eq_none]

namespace ConditionRules

/-- The turns of `r` checks, the first of them on the given turn. -/
def turnsFrom (turn r : Nat) : List Word := (List.range' turn r).map Word.clamp

@[simp] theorem length_turnsFrom (turn r : Nat) : (turnsFrom turn r).length = r := by
  simp [turnsFrom]

theorem turnsFrom_succ (turn r : Nat) :
    turnsFrom turn (r + 1) = Word.clamp turn :: turnsFrom (turn + 1) r := rfl

theorem turnsFrom_concat (turn r : Nat) :
    turnsFrom turn (r + 1) = turnsFrom turn r ++ [Word.clamp (turn + r)] := by
  rw [turnsFrom, List.range'_1_concat, List.map_append]
  rfl

variable (t : ConditionRules)

/-- The logs of the checks of several turns. -/
def logsThrough (m : Combatant) (coins : Coins) : List Word → List CheckLog
  | [] => []
  | turn :: turns =>
    (t.betweenTurns turn m coins).1
      ++ logsThrough (t.betweenTurns turn m coins).2.1 (t.betweenTurns turn m coins).2.2 turns

theorem throughTurns_append (m : Combatant) (coins : Coins) (turns turns' : List Word) :
    t.throughTurns m coins (turns ++ turns')
      = t.throughTurns (t.throughTurns m coins turns).1 (t.throughTurns m coins turns).2
          turns' := by
  induction turns generalizing m coins with
  | nil => rfl
  | cons turn turns ih => exact ih _ _

/-- Checks leave the maximum of the hit points as it is. -/
theorem maxHp_throughTurns (m : Combatant) (coins : Coins) (turns : List Word) :
    (t.throughTurns m coins turns).1.maxHp = m.maxHp := by
  induction turns generalizing m coins with
  | nil => rfl
  | cons turn turns ih =>
    have hrest := (t.checked_betweenTurns turn m coins).rest
    rw [throughTurns, ih, hrest]

variable {t} {m : Combatant} {c : Condition} (h : m.conditions.kinds = [c])

include h

/-- The check of a Pokémon with one condition is the check of that condition. -/
theorem betweenTurns_of_kinds (turn : Word) (coins : Coins) :
    t.betweenTurns turn m coins
      = ([(t.checkOne turn m coins c).1], (t.checkOne turn m coins c).2) := by
  rw [betweenTurns, h]
  rfl

/-- It leaves that condition or none. -/
theorem kinds_checkOne (turn : Word) (coins : Coins) :
    (t.checkOne turn m coins c).2.1.conditions.kinds
      = if (t.checkOne turn m coins c).1.removed then [] else [c] := by
  cases hremoved : (t.checkOne turn m coins c).1.removed with
  | false =>
    rw [snd_checkOne, hremoved]
    exact h
  | true =>
    -- what is removed is the only entry there was
    have hnone (d : Condition) : (t.checkOne turn m coins c).2.1.conditions.get? d = none := by
      rw [get?_checkOne]
      by_cases hd : c = d
      · exact if_pos ⟨hd, hremoved⟩
      · have hmissing : d ∉ m.conditions.kinds := by
          rw [h, List.mem_singleton]
          exact fun hdc => hd hdc.symm
        rw [if_neg fun hboth => hd hboth.1]
        exact Option.not_isSome_iff_eq_none.1 fun hd' => hmissing (EnumMap.mem_keys.2 hd')
    exact Conditions.isEmpty_iff.1 (EnumMap.isEmpty_iff.2 hnone)

omit h

/-! ### On the flip of a coin -/

theorem removed_checkOne_of_coinFlip (hflip : (t.rule c).removal = .coinFlip) (turn : Word)
    (m : Combatant) (coins : Coins) : (t.checkOne turn m coins c).1.removed = coins.face 0 := by
  show ((t.rule c).removal.decide coins).2.1 = coins.face 0
  rw [hflip]
  rfl

theorem coins_checkOne_of_coinFlip (hflip : (t.rule c).removal = .coinFlip) (turn : Word)
    (m : Combatant) (coins : Coins) : (t.checkOne turn m coins c).2.2 = coins.advance 1 := by
  show ((t.rule c).removal.decide coins).2.2 = coins.advance 1
  rw [hflip]
  rfl

theorem hp_checkOne_of_damage_eq_zero (hnone : (t.rule c).damage = 0) (turn : Word)
    (m : Combatant) (coins : Coins) : (t.checkOne turn m coins c).2.1.hp = m.hp := by
  apply Word.ext
  rw [hp_checkOne, hnone, UInt32.toNat_zero, Nat.sub_zero]

section Harmless

variable (hflip : (t.rule c).removal = .coinFlip) (hnone : (t.rule c).damage = 0)

include hflip hnone

/-- Where there is no damage, tails leave everything as it was. -/
theorem snd_checkOne_of_tails (turn : Word) (m : Combatant) {coins : Coins}
    (htails : coins.face 0 = false) :
    (t.checkOne turn m coins c).2 = (m, coins.advance 1) := by
  have hremoved := removed_checkOne_of_coinFlip hflip turn m coins
  have hhp := hp_checkOne_of_damage_eq_zero hnone turn m coins
  have hm : (t.checkOne turn m coins c).2.1 = m := by
    rw [snd_checkOne, hremoved, htails] at hhp ⊢
    exact congrArg (fun hp => { m with hp }) hhp
  exact Prod.ext hm (coins_checkOne_of_coinFlip hflip turn m coins)

/-- So do any number of tails. -/
theorem throughTurns_of_tails {m : Combatant} (h : m.conditions.kinds = [c]) {coins : Coins}
    {turn r : Nat} (htails : ∀ i < r, coins.face i = false) :
    t.throughTurns m coins (turnsFrom turn r) = (m, coins.advance r) := by
  -- along the checks; the coins left behind the first are one further
  induction r generalizing coins turn with
  | zero => rfl
  | succ r ih =>
    have hfirst := snd_checkOne_of_tails hflip hnone (Word.clamp turn) m (htails 0 r.succ_pos)
    have hrest : ∀ i < r, (coins.advance 1).face i = false := by
      intro i hi
      rw [Coins.face_advance]
      exact htails (1 + i) (by omega)
    rw [turnsFrom_succ, throughTurns, betweenTurns_of_kinds h, hfirst, ih hrest,
      Coins.advance_advance, Nat.add_comm]

/-- Heads behind them end the condition. -/
theorem throughTurns_of_heads {m : Combatant} (h : m.conditions.kinds = [c]) {coins : Coins}
    {turn r : Nat} (htails : ∀ i < r, coins.face i = false) (hheads : coins.face r = true) :
    (t.throughTurns m coins (turnsFrom turn (r + 1))).1.conditions.kinds = []
    ∧ (t.throughTurns m coins (turnsFrom turn (r + 1))).1.hp = m.hp := by
  rw [turnsFrom_concat, throughTurns_append, throughTurns_of_tails hflip hnone h htails,
    throughTurns, throughTurns, betweenTurns_of_kinds h]
  refine ⟨?_, hp_checkOne_of_damage_eq_zero hnone (Word.clamp (turn + r)) m (coins.advance r)⟩
  dsimp only
  rw [kinds_checkOne h, removed_checkOne_of_coinFlip hflip, Coins.face_advance, Nat.add_zero,
    hheads, if_pos rfl]

end Harmless

end ConditionRules

/-! ### The first heads -/

namespace Coins

variable {coins : Coins} {n i : Nat}

theorem getElem_flips (h : i < (coins.flips n).1.length) : (coins.flips n).1[i] = coins.face i := by
  simp [flips]

/-- Before the first heads there are tails. -/
theorem face_of_lt_idxOf (h : i < (coins.flips n).1.idxOf true) : coins.face i = false := by
  have hlength : i < (coins.flips n).1.length := h.trans_le List.idxOf_le_length
  have htails : ((coins.flips n).1[i] == true) = false := List.not_of_lt_findIdx h
  rwa [beq_true, getElem_flips hlength] at htails

theorem face_idxOf (h : (coins.flips n).1.idxOf true < n) :
    coins.face ((coins.flips n).1.idxOf true) = true := by
  have hlength : (coins.flips n).1.idxOf true < (coins.flips n).1.length := by
    rwa [length_flips]
  rw [← getElem_flips hlength]
  exact List.getElem_idxOf hlength

theorem mem_flips_iff : true ∈ (coins.flips n).1 ↔ (coins.flips n).1.idxOf true < n := by
  rw [← List.idxOf_lt_length_iff, length_flips]

end Coins

namespace CommandLine

open ConditionRules

/-! ## The last check -/

/-- What is said of a Pokémon behind a check; nothing, if there are to be more. -/
def verdict (m : Combatant) : List String :=
  if m.isKnockedOut then ["knocked out"]
  else if m.conditions.isEmpty then ["no conditions left"]
  else []

variable {t : ConditionRules} {c : Condition}

section Watch

variable {m : Combatant} (h : m.conditions.kinds = [c])

include h

/-- One check, and the others unless there is something to say. -/
theorem watch_succ (coins : Coins) (turn n : Nat) :
    watch t m coins turn (n + 1)
      = let out := t.checkOne (Word.clamp turn) m coins c
        if verdict out.2.1 = [] then
          (out.1.describe :: (watch t out.2.1 out.2.2 (turn + 1) n).1,
            (watch t out.2.1 out.2.2 (turn + 1) n).2)
        else (out.1.describe :: verdict out.2.1, out.2.1) := by
  have hlog : (t.checkOne (Word.clamp turn) m coins c).1.knockedOut
      = (t.checkOne (Word.clamp turn) m coins c).2.1.isKnockedOut := rfl
  rw [watch, betweenTurns_of_kinds h]
  generalize t.checkOne (Word.clamp turn) m coins c = out at hlog ⊢
  obtain ⟨log, m', coins'⟩ := out
  dsimp only at hlog
  simp only [verdict, List.any_cons, List.any_nil, Bool.or_false, hlog]
  by_cases hout : m'.isKnockedOut = true
  · simp [hout]
  · by_cases hempty : m'.conditions.isEmpty = true
    · simp [hout, hempty]
    · simp [hout, hempty]

/-- A check behind which there is nothing to say leaves the condition in force. -/
theorem kinds_of_verdict_nil {coins : Coins} {turn : Word}
    (hv : verdict (t.checkOne turn m coins c).2.1 = []) :
    (t.checkOne turn m coins c).2.1.conditions.kinds = [c] := by
  have hkinds := kinds_checkOne (t := t) h turn coins
  cases hremoved : (t.checkOne turn m coins c).1.removed with
  | false => rw [hkinds, hremoved, if_neg Bool.false_ne_true]
  | true =>
    -- without a condition there is something to say
    rw [hremoved, if_pos rfl] at hkinds
    rw [verdict, Conditions.isEmpty_iff.2 hkinds] at hv
    split at hv <;> cases hv

end Watch

/-- **The last check.**  When there is nothing to say behind any of `r` checks but the last, and the
last is the one asked for or says something, these are the checks that are made. -/
theorem watch_checks {m : Combatant} (h : m.conditions.kinds = [c]) {coins : Coins}
    {turn r n : Nat} (hle : r ≤ n)
    (hgo : ∀ i, i + 1 < r →
      verdict (t.throughTurns m coins (turnsFrom turn (i + 1))).1 = [])
    (hend : r < n → 0 < r ∧ verdict (t.throughTurns m coins (turnsFrom turn r)).1 ≠ []) :
    (t.logsThrough m coins (turnsFrom turn r)).map CheckLog.turn = turnsFrom turn r
    ∧ watch t m coins turn n
      = ((t.logsThrough m coins (turnsFrom turn r)).map CheckLog.describe
            ++ (if r = 0 then [] else verdict (t.throughTurns m coins (turnsFrom turn r)).1),
          (t.throughTurns m coins (turnsFrom turn r)).1) := by
  -- along the checks; as long as there is nothing to say, the one condition is still in force
  induction r generalizing m coins turn n with
  | zero =>
    have hn : n = 0 := by
      by_contra hn
      exact absurd (hend (by omega)).1 (by omega)
    subst hn
    exact ⟨rfl, rfl⟩
  | succ r ih =>
    obtain ⟨n, rfl⟩ : ∃ k, n = k + 1 := ⟨n - 1, by omega⟩
    have hsingle := betweenTurns_of_kinds (t := t) h (Word.clamp turn) coins
    rw [turnsFrom_succ, throughTurns, logsThrough, hsingle, watch_succ h]
    simp only [turnsFrom_succ, throughTurns, hsingle] at hgo hend
    dsimp only
    cases r with
    | zero =>
      -- the last check
      refine ⟨rfl, ?_⟩
      split
      next hv =>
        have hn : n = 0 := by
          by_contra hn
          exact (hend (by omega)).2 hv
        subst hn
        rw [turnsFrom]
        simp [watch, throughTurns, logsThrough, hv]
      next hv =>
        simp [throughTurns, logsThrough, turnsFrom]
    | succ r =>
      have hv : verdict (t.checkOne (Word.clamp turn) m coins c).2.1 = [] := hgo 0 (by omega)
      have hkinds := kinds_of_verdict_nil h hv
      obtain ⟨hturns, hwatch⟩ := ih hkinds (Nat.le_of_succ_le_succ hle)
        (fun i hi => hgo (i + 1) (Nat.succ_lt_succ hi))
        (fun hlt => ⟨Nat.succ_pos r, (hend (Nat.succ_lt_succ hlt)).2⟩)
      refine ⟨congrArg (Word.clamp turn :: ·) hturns, ?_⟩
      rw [if_pos hv, hwatch]
      simp

/-! ## The command -/

/-- The Pokémon that the command makes its checks on. -/
def afflicted (c : Condition) (hp : Word) : Combatant :=
  ((Combatant.new "Target" .psychic hp).inflict c 0).2

theorem kinds_afflicted (c : Condition) (hp : Word) : (afflicted c hp).conditions.kinds = [c] := by
  cases c <;> rfl

/-- The Pokémon behind `r` checks. -/
def behind (t : ConditionRules) (c : Condition) (hp : Word) (seed : UInt64) (r : Nat) : Combatant :=
  (t.throughTurns (afflicted c hp) (.ofSeed seed) (turnsFrom 1 r)).1

/-- The logs of `r` checks. -/
def logs (t : ConditionRules) (c : Condition) (hp : Word) (seed : UInt64) (r : Nat) :
    List CheckLog :=
  t.logsThrough (afflicted c hp) (.ofSeed seed) (turnsFrom 1 r)

/-- A run of the command that makes `r` checks: it prints the seed, one line for each check, what
is said in the end, and the hit points left. -/
structure StatusRun (t : ConditionRules) (c : Condition) (hp : Word) (seed : UInt64) (r : Nat)
    (said : List String) (left : Nat) (out : Except Failure String) : Prop where
  /-- Each check has one log. -/
  turns : (logs t c hp seed r).map CheckLog.turn = turnsFrom 1 r
  left_eq : (behind t c hp seed r).hp.toNat = left
  output : out = .ok (unlines
    (["seed " ++ Term.number seed.toNat] ++ (logs t c hp seed r).map CheckLog.describe ++ said
      ++ ["hp " ++ Term.number left ++ "/" ++ Term.number hp.toNat]))

/-- With valid settings and a word for a condition, the lines on that condition are printed. -/
theorem run_status (s : Surroundings) {config : Config} (hvalid : config.Valid) {word : String}
    (hword : Condition.ofWord? word.toList = some c) (n hp : Word) (seed : Option UInt64) :
    (Command.status word n hp seed).run s config
      = .ok (unlines (statusLines config.conditionRules c n hp (seed.getD s.seed))) := by
  have hengine : Engine.ofValid config = .ok (.ofConfig config) :=
    Engine.ofValid_eq_ok_iff.2 ⟨hvalid, rfl⟩
  rw [Command.run, hword, hengine]
  rfl

variable {hp n : Word} {seed : UInt64} {out : Except Failure String}

/-- When there is nothing to say behind any of `r` checks but the last, and the last is the one
asked for or says something, the command makes `r` checks. -/
theorem statusRun_of_checks (hout : out = .ok (unlines (statusLines t c n hp seed))) {r : Nat}
    (hle : r ≤ n.toNat) (hgo : ∀ i, i + 1 < r → verdict (behind t c hp seed (i + 1)) = [])
    (hend : r < n.toNat → 0 < r ∧ verdict (behind t c hp seed r) ≠ []) :
    StatusRun t c hp seed r (if r = 0 then [] else verdict (behind t c hp seed r))
      (behind t c hp seed r).hp.toNat out := by
  obtain ⟨hturns, hwatch⟩ := watch_checks (kinds_afflicted c hp) hle hgo hend
  have hmax : (behind t c hp seed r).maxHp.toNat = hp.toNat :=
    congrArg UInt32.toNat (t.maxHp_throughTurns _ _ _)
  have hlines : statusLines t c n hp seed
      = ["seed " ++ Term.number seed.toNat]
        ++ (watch t (afflicted c hp) (.ofSeed seed) 1 n.toNat).1
        ++ ["hp " ++ Term.number (watch t (afflicted c hp) (.ofSeed seed) 1 n.toNat).2.hp.toNat
          ++ "/"
          ++ Term.number (watch t (afflicted c hp) (.ofSeed seed) 1 n.toNat).2.maxHp.toNat] := rfl
  refine ⟨hturns, rfl, ?_⟩
  rw [hout, hlines, hwatch, ← List.append_assoc, ← hmax]
  rfl

/-! ### A condition that stays -/

theorem verdict_of_kinds {m : Combatant} (h : m.conditions.kinds = [c]) :
    verdict m = if m.hp = 0 then ["knocked out"] else [] := by
  have hsome : m.conditions.isEmpty = false := by
    rw [Bool.eq_false_iff, Ne, Conditions.isEmpty_iff, h]
    exact List.cons_ne_nil c []
  simp [verdict, Combatant.isKnockedOut, hsome]

theorem verdict_of_cured {m : Combatant} (h : m.conditions.kinds = []) :
    verdict m = if m.hp = 0 then ["knocked out"] else ["no conditions left"] := by
  simp [verdict, Combatant.isKnockedOut, Conditions.isEmpty_iff.2 h]

section Stays

variable (hstays : (t.rule c).removal = .never)

include hstays

theorem lasting_afflicted (hp : Word) : t.Lasting (afflicted c hp) := by
  intro d hd
  have hmem : d ∈ (afflicted c hp).conditions.kinds := EnumMap.mem_keys.2 hd
  rw [kinds_afflicted, List.mem_singleton] at hmem
  rw [hmem, hstays]

/-- Behind `r` checks the condition is in force, and they have taken hit points only. -/
theorem behind_of_never (hp : Word) (seed : UInt64) (r : Nat) :
    (behind t c hp seed r).conditions.kinds = [c]
    ∧ (behind t c hp seed r).hp.toNat
      = hp.toNat - min hp.toNat (r * (t.rule c).damage.toNat) := by
  obtain ⟨left, hrun, hleft⟩ :=
    throughTurns_of_lasting (.ofSeed seed) (lasting_afflicted hstays hp) (turnsFrom 1 r)
  rw [kinds_afflicted, length_turnsFrom] at hleft
  rw [behind, hrun]
  exact ⟨kinds_afflicted c hp, hleft⟩

end Stays

/-- The number of checks of a condition that stays and deals `d` each time, `n` at most. -/
def lastingChecks (n hp d : Nat) : Nat :=
  if hp = 0 then min n 1 else if d = 0 then n else min n (max 1 (hp ⌈/⌉ d))

theorem lastingChecks_le (n hp d : Nat) : lastingChecks n hp d ≤ n := by
  unfold lastingChecks
  split_ifs
  · exact Nat.min_le_left n 1
  · exact Nat.le_refl n
  · exact Nat.min_le_left n _

/-- Before the last check there are hit points left. -/
theorem lt_of_lt_lastingChecks {n hp d i : Nat} (h : i + 1 < lastingChecks n hp d) :
    (i + 1) * d < hp := by
  unfold lastingChecks at h
  split_ifs at h with hhp hd
  · omega
  · rw [hd, Nat.mul_zero]
    omega
  · -- one check is no bound here, as `i + 1` is at least one
    have hceil : i + 1 < hp ⌈/⌉ d := by omega
    rw [← Nat.not_le, ceilDiv_le_iff_le_mul (Nat.pos_of_ne_zero hd), Nat.not_le] at hceil
    rwa [Nat.mul_comm]

/-- When there are fewer checks than were asked for, the last leaves no hit points. -/
theorem le_of_lastingChecks_lt {n hp d : Nat} (h : lastingChecks n hp d < n) :
    0 < lastingChecks n hp d ∧ hp ≤ lastingChecks n hp d * d := by
  unfold lastingChecks at h ⊢
  split_ifs at h ⊢ with hhp hd
  · omega
  · omega
  · -- there are fewer than `n`, so the bound is the other one
    have hmin : min n (max 1 (hp ⌈/⌉ d)) = max 1 (hp ⌈/⌉ d) := by omega
    have hceil : hp ⌈/⌉ d ≤ max 1 (hp ⌈/⌉ d) := Nat.le_max_right _ _
    rw [ceilDiv_le_iff_le_mul (Nat.pos_of_ne_zero hd)] at hceil
    rw [hmin, Nat.mul_comm]
    exact ⟨by omega, hceil⟩

/-- One of `r` checks leaves no hit points when the last does. -/
theorem exists_le_iff {hp d r : Nat} :
    (∃ i < r, hp ≤ (i + 1) * d) ↔ 0 < r ∧ hp ≤ r * d := by
  constructor
  · rintro ⟨i, hi, hle⟩
    exact ⟨by omega, hle.trans (Nat.mul_le_mul_right d hi)⟩
  · rintro ⟨hpos, hle⟩
    refine ⟨r - 1, by omega, ?_⟩
    rwa [Nat.sub_add_cancel hpos]

/-- A condition that stays is checked until no hit points are left. -/
theorem statusRun_of_never (hstays : (t.rule c).removal = .never)
    (hout : out = .ok (unlines (statusLines t c n hp seed))) :
    StatusRun t c hp seed (lastingChecks n.toNat hp.toNat (t.rule c).damage.toNat)
      (if ∃ i < lastingChecks n.toNat hp.toNat (t.rule c).damage.toNat,
          (behind t c hp seed (i + 1)).hp = 0 then ["knocked out"] else [])
      (hp.toNat - min hp.toNat (lastingChecks n.toNat hp.toNat (t.rule c).damage.toNat
        * (t.rule c).damage.toNat)) out := by
  generalize hr : lastingChecks n.toNat hp.toNat (t.rule c).damage.toNat = r
  have hbehind := behind_of_never hstays hp seed
  have hout_iff (i : Nat) : (behind t c hp seed i).hp = 0
      ↔ hp.toNat ≤ i * (t.rule c).damage.toNat := by
    rw [← UInt32.toNat_inj, (hbehind i).2, UInt32.toNat_zero]
    omega
  have hverdict (i : Nat) : verdict (behind t c hp seed i)
      = if hp.toNat ≤ i * (t.rule c).damage.toNat then ["knocked out"] else [] := by
    rw [verdict_of_kinds (hbehind i).1]
    simp only [hout_iff]
  -- hit points only get fewer, so some check leaves none when the last does
  have hsaid : (if r = 0 then [] else verdict (behind t c hp seed r))
      = if ∃ i < r, (behind t c hp seed (i + 1)).hp = 0 then ["knocked out"] else [] := by
    simp only [hverdict, hout_iff, exists_le_iff]
    by_cases hzero : r = 0
    · simp [hzero]
    · simp [hzero, Nat.pos_of_ne_zero hzero]
  rw [← hsaid, ← (hbehind r).2]
  subst hr
  refine statusRun_of_checks hout (lastingChecks_le _ _ _) (fun i hi => ?_) (fun hlt => ?_)
  · rw [hverdict, if_neg (Nat.not_le.2 (lt_of_lt_lastingChecks hi))]
  · obtain ⟨hpos, hle⟩ := le_of_lastingChecks_lt hlt
    rw [hverdict, if_pos hle]
    exact ⟨hpos, List.cons_ne_nil _ _⟩

/-! ### A condition that goes away -/

/-- Behind one check is what the check of the condition leaves. -/
theorem behind_one : behind t c hp seed 1
    = (t.checkOne (Word.clamp 1) (afflicted c hp) (.ofSeed seed) c).2.1 := by
  have hcheck := betweenTurns_of_kinds (t := t) (kinds_afflicted c hp) (Word.clamp 1) (.ofSeed seed)
  exact congrArg (fun out => out.2.1) hcheck

/-- A condition that goes away after a turn is checked once. -/
theorem statusRun_of_afterOneTurn (hgoes : (t.rule c).removal = .afterOneTurn)
    (hout : out = .ok (unlines (statusLines t c n hp seed))) :
    StatusRun t c hp seed (min n.toNat 1)
      (if n = 0 then []
        else if hp.toNat ≤ (t.rule c).damage.toNat then ["knocked out"] else ["no conditions left"])
      (hp.toNat - min hp.toNat (min n.toNat 1 * (t.rule c).damage.toNat)) out := by
  have hremoved :
      (t.checkOne (Word.clamp 1) (afflicted c hp) (.ofSeed seed) c).1.removed = true := by
    have hsettles := t.settles_checkOne (Word.clamp 1) (afflicted c hp) (.ofSeed seed) c
    rw [hgoes] at hsettles
    exact hsettles.2
  have hkinds : (behind t c hp seed 1).conditions.kinds = [] := by
    rw [behind_one, kinds_checkOne (kinds_afflicted c hp), if_pos hremoved]
  have hhp : (behind t c hp seed 1).hp.toNat = hp.toNat - (t.rule c).damage.toNat := by
    rw [behind_one]
    exact t.hp_checkOne _ _ _ c
  have hverdict : verdict (behind t c hp seed 1)
      = if hp.toNat ≤ (t.rule c).damage.toNat then ["knocked out"] else ["no conditions left"] := by
    have hzero : (behind t c hp seed 1).hp = 0 ↔ hp.toNat ≤ (t.rule c).damage.toNat := by
      rw [← UInt32.toNat_inj, hhp, UInt32.toNat_zero]
      omega
    rw [verdict_of_cured hkinds]
    simp only [hzero]
  by_cases hn : n = 0
  · subst hn
    have hleft : hp.toNat - min hp.toNat (min (0 : Word).toNat 1 * (t.rule c).damage.toNat)
        = hp.toNat := by simp
    rw [hleft]
    exact statusRun_of_checks (r := 0) hout (Nat.le_refl 0) (fun i hi => absurd hi (by omega))
      (fun hlt => absurd hlt (by decide))
  · have hpos := Word.toNat_pos hn
    have hone : min n.toNat 1 = 1 := by omega
    have hleft : hp.toNat - min hp.toNat (1 * (t.rule c).damage.toNat)
        = (behind t c hp seed 1).hp.toNat := by omega
    have hsaid : verdict (behind t c hp seed 1) ≠ [] := by
      rw [hverdict]
      split <;> exact List.cons_ne_nil _ _
    have hrun := statusRun_of_checks (r := 1) hout hpos (fun i hi => absurd hi (by omega))
      (fun _ => ⟨by decide, hsaid⟩)
    rw [if_neg Nat.one_ne_zero, hverdict] at hrun
    rw [hone, if_neg hn, hleft]
    exact hrun

/-- A condition that deals no damage and goes away on heads is checked up to the first heads. -/
theorem statusRun_of_coinFlip (hflip : (t.rule c).removal = .coinFlip)
    (hnone : (t.rule c).damage = 0) (hpos : hp ≠ 0)
    (hout : out = .ok (unlines (statusLines t c n hp seed))) :
    StatusRun t c hp seed (min n.toNat (((Coins.ofSeed seed).flips n.toNat).1.idxOf true + 1))
      (if true ∈ ((Coins.ofSeed seed).flips n.toNat).1 then ["no conditions left"] else [])
      hp.toNat out := by
  simp only [Coins.mem_flips_iff]
  generalize hk : ((Coins.ofSeed seed).flips n.toNat).1.idxOf true = k
  have htails {r : Nat} (hr : r ≤ k) (i : Nat) (hi : i < r) : (Coins.ofSeed seed).face i = false :=
    Coins.face_of_lt_idxOf (hk ▸ Nat.lt_of_lt_of_le hi hr)
  -- nothing to say behind tails
  have hbehind {r : Nat} (hr : r ≤ k) : behind t c hp seed r = afflicted c hp :=
    congrArg Prod.fst (throughTurns_of_tails hflip hnone (kinds_afflicted c hp) (htails hr))
  have hquiet {r : Nat} (hr : r ≤ k) : verdict (behind t c hp seed r) = [] := by
    rw [hbehind hr, verdict_of_kinds (kinds_afflicted c hp)]
    exact if_neg hpos
  by_cases hheads : k < n.toNat
  · -- heads within the first `n` coins
    have hmin : min n.toNat (k + 1) = k + 1 := by omega
    have hface : (Coins.ofSeed seed).face k = true := by
      subst hk
      exact Coins.face_idxOf hheads
    have hended : (behind t c hp seed (k + 1)).conditions.kinds = []
        ∧ (behind t c hp seed (k + 1)).hp = hp :=
      throughTurns_of_heads hflip hnone (kinds_afflicted c hp) (htails (Nat.le_refl k)) hface
    have hverdict : verdict (behind t c hp seed (k + 1)) = ["no conditions left"] := by
      rw [verdict_of_cured hended.1, hended.2]
      exact if_neg hpos
    have hrun := statusRun_of_checks (r := k + 1) hout hheads (fun i hi => hquiet (by omega))
      (fun _ => ⟨k.succ_pos, hverdict ▸ List.cons_ne_nil _ _⟩)
    rw [hverdict, hended.2] at hrun
    rw [hmin, if_pos hheads]
    exact hrun
  · -- tails all along
    have hmin : min n.toNat (k + 1) = n.toNat := by omega
    have hall : n.toNat ≤ k := Nat.le_of_not_lt hheads
    have hrun := statusRun_of_checks (r := n.toNat) hout (Nat.le_refl _)
      (fun i hi => hquiet (by omega)) (fun hlt => absurd hlt (Nat.lt_irrefl _))
    rw [hquiet hall, ite_self, hbehind hall] at hrun
    rw [hmin, if_neg hheads]
    exact hrun

/-- **The command on one condition.**  With valid settings and a word for a condition, the number of
checks is known from the rule of that condition.  One that stays and deals `d` is checked until no
hit points of `hp` are left: `⌈hp / d⌉` times, once at least, and `n` times at most; without damage
`n` times, unless there are no hit points to begin with.  One that goes away after a turn is
checked once.  One that goes away on heads, and does no damage, is checked up to the first heads.
Each check has its line, and the last line tells the hit points left. -/
theorem status_run (s : Surroundings) {config : Config} (hvalid : config.Valid) {word : String}
    {c : Condition} (hword : Condition.ofWord? word.toList = some c) (n hp : Word)
    (named : Option UInt64) :
    let t := config.conditionRules
    let d := (t.rule c).damage.toNat
    let seed := named.getD s.seed
    let out := (Command.status word n hp named).run s config
    ((t.rule c).removal = .never →
      StatusRun t c hp seed (lastingChecks n.toNat hp.toNat d)
        (if ∃ i < lastingChecks n.toNat hp.toNat d, (behind t c hp seed (i + 1)).hp = 0 then
          ["knocked out"] else [])
        (hp.toNat - min hp.toNat (lastingChecks n.toNat hp.toNat d * d)) out)
    ∧ ((t.rule c).removal = .afterOneTurn →
      StatusRun t c hp seed (min n.toNat 1)
        (if n = 0 then [] else if hp.toNat ≤ d then ["knocked out"] else ["no conditions left"])
        (hp.toNat - min hp.toNat (min n.toNat 1 * d)) out)
    ∧ ((t.rule c).removal = .coinFlip → (t.rule c).damage = 0 → hp ≠ 0 →
      StatusRun t c hp seed (min n.toNat (((Coins.ofSeed seed).flips n.toNat).1.idxOf true + 1))
        (if true ∈ ((Coins.ofSeed seed).flips n.toNat).1 then ["no conditions left"] else [])
        hp.toNat out) := by
  have hout := run_status s hvalid hword n hp named
  exact ⟨fun hstays => statusRun_of_never hstays hout,
    fun hgoes => statusRun_of_afterOneTurn hgoes hout,
    fun hflip hnone hpos => statusRun_of_coinFlip hflip hnone hpos hout⟩

/-! ### Burned, paralyzed and asleep by the rules of the game -/

/-- Surroundings without files. -/
def bare : Surroundings := ⟨fun _ => none, 1, 0⟩

/-- With seed 42 and 100 hit points, a burn is checked five times, paralysis once, and sleep four
times, the fourth coin being the first heads. -/
theorem status_run_standard :
    StatusRun .standard .burned 100 42 5 ["knocked out"] 0
      ((Command.status "burned" 10 100 (some 42)).run bare .standard)
    ∧ StatusRun .standard .paralyzed 100 42 1 ["no conditions left"] 100
      ((Command.status "paralysis" 10 100 (some 42)).run bare .standard)
    ∧ StatusRun .standard .asleep 100 42 4 ["no conditions left"] 100
      ((Command.status "sleep" 10 100 (some 42)).run bare .standard) := by
  have hgone : (behind .standard .burned 100 42 5).hp = 0 :=
    Word.ext (behind_of_never rfl 100 42 5).2
  have hburned : ∃ i < lastingChecks 10 100 20, (behind .standard .burned 100 42 (i + 1)).hp = 0 :=
    ⟨4, by decide, hgone⟩
  have hasleep : ((Coins.ofSeed 42).flips 10).1.idxOf true = 3 := by decide +kernel
  have hheads : true ∈ ((Coins.ofSeed 42).flips 10).1 := Coins.mem_flips_iff.2 (by omega)
  refine ⟨?_, ?_, ?_⟩
  · have hrun : StatusRun .standard .burned 100 42 (lastingChecks 10 100 20)
        (if ∃ i < lastingChecks 10 100 20, (behind .standard .burned 100 42 (i + 1)).hp = 0 then
          ["knocked out"] else [])
        (100 - min 100 (lastingChecks 10 100 20 * 20))
        ((Command.status "burned" 10 100 (some 42)).run bare .standard) :=
      (status_run bare Config.valid_standard rfl 10 100 (some 42)).1 rfl
    rw [if_pos hburned] at hrun
    exact hrun
  · exact (status_run bare Config.valid_standard rfl 10 100 (some 42)).2.1 rfl
  · have hrun : StatusRun .standard .asleep 100 42
        (min 10 (((Coins.ofSeed 42).flips 10).1.idxOf true + 1))
        (if true ∈ ((Coins.ofSeed 42).flips 10).1 then ["no conditions left"] else []) 100
        ((Command.status "sleep" 10 100 (some 42)).run bare .standard) :=
      (status_run bare Config.valid_standard rfl 10 100 (some 42)).2.2 rfl rfl (by decide)
    rw [hasleep, if_pos hheads] at hrun
    exact hrun

end CommandLine

end CardEffects
