/-
  CardEffects.Proofs.Replay.Session

  Replaying a session from what its resolutions record.  The calls of a session share one source
  of coins; the Pokémon they are for may be others each time.  Where nothing picks at random, the
  coins taken are the flips recorded, in that order, with one exception: a confused attacker that
  flips heads before it attacks leaves no record of that coin.  So the flips recorded are the
  coins taken only as long as no such coin is heads.

    * `Engine.session` — the calls of a session, with the board that each met.
    * `Engine.unrecorded` — the coin a call takes without recording it, if it does.
    * `Engine.gives_call` — the coins that one call takes.
    * `Engine.session_gives` — the coins of a whole session, and when its records are enough.
    * `Engine.recorded_misses_confusion_heads` — a session whose record lacks a coin.
-/
import CardEffects.Proofs.Attack
import CardEffects.Proofs.Replay.Flips
import Mathlib.Data.List.Basic

namespace CardEffects

/-! ## Sessions -/

/-- A call for the engine, with the Pokémon it is for. -/
structure Request where
  attacker : Combatant
  defender : Option Combatant
  turn : Word
  call : Call

/-- What came of a request. -/
structure Reply where
  board : Board
  call : Call
  answer : Except EngineError Resolution

/-- The text that a call carries out, if there is one. -/
def Call.text? : Call → Option String
  | .text t _ => some t
  | .attack card index => card.attacks[index]?.map Attack.effect
  | .ability card index => card.abilities[index]?.map Ability.effect

namespace Reply

/-- The flips that the answer records, in order. -/
def recorded (x : Reply) : List Bool :=
  match x.answer with
  | .ok r => r.recorded
  | .error _ => []

/-- No effect that was carried out and did something may pick at random. -/
def Drawless (x : Reply) : Prop :=
  ∀ r text, x.answer = .ok r → x.call.text? = some text → r.Drawless (Plan.ofText text).kept

end Reply

namespace Engine

/-- The requests of a session, answered one after the other with one source of coins. -/
def session (g : Engine) (coins : Coins) : List Request → List Reply × Coins
  | [] => ([], coins)
  | q :: qs =>
    let b : Board := ⟨q.attacker, q.defender, coins⟩
    match g.call q.turn b q.call with
    | .ok (r, b') =>
      let (rest, coins) := g.session b'.coins qs
      (⟨b, q.call, .ok r⟩ :: rest, coins)
    | .error e =>
      let (rest, coins) := g.session coins qs
      (⟨b, q.call, .error e⟩ :: rest, coins)

/-- Confusion makes the attacker flip a coin, and it comes up heads; nothing else keeps it from
attacking. -/
def PassesConfusion (g : Engine) (b : Board) : Prop :=
  g.blockers b = [] ∧ g.ChecksConfusion b ∧ b.coins.face 0 = true

instance (g : Engine) (b : Board) : Decidable (g.PassesConfusion b) :=
  inferInstanceAs (Decidable (_ ∧ _ ∧ _))

/-- The coin that a call takes without a record of it: the heads of a confused attacker. -/
def unrecorded (g : Engine) (b : Board) : Call → List Bool
  | .attack card index =>
    if (card.attacks[index]?).isSome ∧ g.PassesConfusion b then [true] else []
  | .text _ _ => []
  | .ability _ _ => []

theorem unrecorded_of_passes {g : Engine} {b : Board} {card : Card} {index : Nat} {a : Attack}
    (ha : card.attacks[index]? = some a) (h : g.PassesConfusion b) :
    g.unrecorded b (.attack card index) = [true] :=
  if_pos ⟨by rw [ha]; rfl, h⟩

theorem unrecorded_of_not_passes {g : Engine} {b : Board} {card : Card} {index : Nat}
    (h : ¬ g.PassesConfusion b) : g.unrecorded b (.attack card index) = [] :=
  if_neg fun hall => h hall.2

/-! ## Texts -/

variable (g : Engine) (turn : Word) (b : Board)

theorem dealDamage_replays (c : Config) (r : Resolution) :
    (dealDamage c r b).1.flips = r.flips ∧ (dealDamage c r b).1.effects = r.effects
      ∧ (dealDamage c r b).2.coins = b.coins := by
  unfold dealDamage
  split
  · exact ⟨rfl, rfl, rfl⟩
  · split <;> exact ⟨rfl, rfl, rfl⟩

/-- A text takes the flips that it records; dealing damage takes none. -/
theorem gives_run (attack : Option Attack) (text : String) (base : Word)
    (h : (g.run turn attack b text base).1.Drawless (Plan.ofText text).kept) :
    b.coins.Gives (g.run turn attack b text base).1.recorded
      (g.run turn attack b text base).2.coins := by
  rw [run_eq] at h ⊢
  dsimp only at h ⊢
  obtain ⟨hflips, heffects, hcoins⟩ := dealDamage_replays
    (g.registry.run { config := g.config, turn, attack } b base (Plan.ofText text).kept).2
    g.config _
  rw [Resolution.Drawless, heffects] at h
  rw [Resolution.recorded, hflips, hcoins]
  exact g.registry.gives_run _ b base _ h

/-! ## Attacks -/

/-- An attack takes the flips that it records, behind the coin it does not record. -/
theorem gives_attack {card : Card} {index : Nat} {a : Attack} (ha : card.attacks[index]? = some a)
    (h : (g.attack turn b a).1.Drawless (Plan.ofText a.effect).kept) :
    b.coins.Gives (g.unrecorded b (.attack card index) ++ (g.attack turn b a).1.recorded)
      (g.attack turn b a).2.coins := by
  have hcourse := g.course_attack turn b a
  have hface := b.coins.gives_face
  generalize g.attack turn b a = out at h hcourse
  cases hcourse with
  | blocked c cs hblockers =>
    rw [unrecorded_of_not_passes fun hpass => by rw [hpass.1] at hblockers; cases hblockers]
    exact b.coins.gives_nil
  | failed hblockers hchecks htails =>
    -- tails is recorded
    rw [unrecorded_of_not_passes fun hpass => by rw [hpass.2.2] at htails; cases htails]
    rw [htails] at hface
    exact hface
  | passed hblockers hchecks hheads =>
    rw [unrecorded_of_passes ha ⟨hblockers, hchecks, hheads⟩]
    rw [hheads] at hface
    exact hface.append
      (g.gives_run turn { b with coins := b.coins.advance 1 } (some a) a.effect a.damage h)
  | unchecked hblockers hchecks =>
    rw [unrecorded_of_not_passes fun hpass => hchecks hpass.2.1]
    exact g.gives_run turn b (some a) a.effect a.damage h

/-- A call takes the flips that it records, behind the coin it does not record. -/
theorem gives_call {call : Call} {r : Resolution} {b' : Board}
    (hcall : g.call turn b call = .ok (r, b'))
    (h : ∀ text, call.text? = some text → r.Drawless (Plan.ofText text).kept) :
    b.coins.Gives (g.unrecorded b call ++ r.recorded) b'.coins := by
  cases call with
  | text text base =>
    have hrun : g.run turn none b text base = (r, b') := Except.ok.inj hcall
    have hgives := g.gives_run turn b none text base
    rw [hrun] at hgives
    exact hgives (h text rfl)
  | attack card index =>
    obtain ⟨a, ha, hattack⟩ := attack_of_resolveAttack hcall
    have hgives := g.gives_attack turn b ha
    rw [hattack] at hgives
    exact hgives (h a.effect (by rw [Call.text?, ha]; rfl))
  | ability card index =>
    obtain ⟨a, ha, hrun⟩ := run_of_resolveAbility hcall
    have hgives := g.gives_run turn b none a.effect 0
    rw [hrun] at hgives
    exact hgives (h a.effect (by rw [Call.text?, ha]; rfl))

/-- A call that is refused takes no coin. -/
theorem unrecorded_of_error {call : Call} {e : EngineError}
    (hcall : g.call turn b call = .error e) : g.unrecorded b call = [] := by
  cases call with
  | text text base => cases hcall
  | ability card index => rfl
  | attack card index =>
    cases ha : card.attacks[index]? with
    | none => exact if_neg fun hall => by rw [ha] at hall; cases hall.1
    | some a =>
      rw [Engine.call, resolveAttack, ha] at hcall
      cases hcall

/-! ## The replay law -/

/-- All flips that the records of a session show, in order. -/
def recordedIn (xs : List Reply) : List Bool := xs.flatMap Reply.recorded

/-- The coins that a session takes: the flips of its records, each behind the coin that its call
left unrecorded. -/
def taken (xs : List Reply) : List Bool :=
  xs.flatMap fun x => g.unrecorded x.board x.call ++ x.recorded

theorem gives_taken (coins : Coins) (qs : List Request)
    (h : ∀ x ∈ (g.session coins qs).1, x.Drawless) :
    coins.Gives (g.taken (g.session coins qs).1) (g.session coins qs).2 := by
  induction qs generalizing coins with
  | nil => exact coins.gives_nil
  | cons q qs ih =>
    unfold session at h ⊢
    dsimp only at h ⊢
    split at h
    next r b' hcall =>
      have hfirst := g.gives_call q.turn _ hcall fun text htext =>
        h _ List.mem_cons_self r text rfl htext
      exact hfirst.append (ih b'.coins fun x hx => h x (List.mem_cons_of_mem _ hx))
    next e hcall =>
      have hnone := g.unrecorded_of_error q.turn _ hcall
      have hrest := ih coins fun x hx => h x (List.mem_cons_of_mem _ hx)
      show coins.Gives ((g.unrecorded _ q.call ++ []) ++ g.taken _) _
      rw [hnone]
      exact hrest

theorem length_recordedIn_le (xs : List Reply) :
    (recordedIn xs).length ≤ (g.taken xs).length := by
  induction xs with
  | nil => exact Nat.le_refl 0
  | cons x xs ih =>
    rw [recordedIn, taken, List.flatMap_cons, List.flatMap_cons, List.length_append,
      List.length_append, List.length_append]
    exact Nat.add_le_add (Nat.le_add_left _ _) ih

/-- The records show as many flips as coins are taken when no coin is left unrecorded. -/
theorem length_taken_eq_iff (xs : List Reply) :
    (g.taken xs).length = (recordedIn xs).length
      ↔ ∀ x ∈ xs, g.unrecorded x.board x.call = [] := by
  induction xs with
  | nil => exact ⟨fun _ _ hx => (nomatch hx), fun _ => rfl⟩
  | cons x xs ih =>
    have hle := g.length_recordedIn_le xs
    have htaken : (g.taken (x :: xs)).length
        = (g.unrecorded x.board x.call).length + x.recorded.length + (g.taken xs).length := by
      rw [taken, List.flatMap_cons, List.length_append, List.length_append]
      rfl
    have hrecorded : (recordedIn (x :: xs)).length
        = x.recorded.length + (recordedIn xs).length := by
      rw [recordedIn, List.flatMap_cons, List.length_append]
      rfl
    rw [List.forall_mem_cons, ← ih, ← List.length_eq_zero_iff, htaken, hrecorded]
    omega

theorem taken_of_recorded {xs : List Reply} (h : ∀ x ∈ xs, g.unrecorded x.board x.call = []) :
    g.taken xs = recordedIn xs :=
  List.flatMap_congr fun x hx => by rw [h x hx, List.nil_append]

/-- The records of a session are the coins that it takes exactly if no coin is left
unrecorded: else there are too few of them. -/
theorem gives_recordedIn_iff {coins coins' : Coins} {xs : List Reply}
    (htaken : coins.Gives (g.taken xs) coins') :
    coins.Gives (recordedIn xs) coins' ↔ ∀ x ∈ xs, g.unrecorded x.board x.call = [] := by
  constructor
  · intro hrecorded
    exact (g.length_taken_eq_iff xs).1 (htaken.length_eq hrecorded)
  · intro hnone
    rw [← g.taken_of_recorded hnone]
    exact htaken

/-- **Replay.**  A session in which nothing picks at random takes the flips that it records, in
that order, with the coins left unrecorded put back in their places: flipping as many coins of
the same source gives the same flips, and leaves it as the session does.  So the records alone
replay the session exactly if no confused attacker flipped heads. -/
theorem session_gives (coins : Coins) (qs : List Request)
    (h : ∀ x ∈ (g.session coins qs).1, x.Drawless) :
    coins.Gives (g.taken (g.session coins qs).1) (g.session coins qs).2
      ∧ (coins.Gives (recordedIn (g.session coins qs).1) (g.session coins qs).2
        ↔ ∀ x ∈ (g.session coins qs).1, g.unrecorded x.board x.call = []) :=
  ⟨g.gives_taken coins qs h, g.gives_recordedIn_iff (g.gives_taken coins qs h)⟩

/-! ### A confused attacker that flips heads -/

/-- A card with an attack without text. -/
def scratchCard : Card where
  id := "A1-033"
  name := "Charmander"
  category := .pokemon
  hp := 60
  energyType := some .fire
  attacks := [⟨"Scratch", [], 30, ""⟩]
  abilities := []
  effect := ""

/-- A confused Pokémon attacks. -/
def dazedSession : List Request :=
  [{ attacker := { Combatant.new "Charmander" .fire 60 with
        conditions := (Conditions.empty.insert .confused 0).2 }
     defender := some (.new "Eevee" .fire 100)
     turn := 1
     call := .attack scratchCard 0 }]

theorem kept_blank : (Plan.ofText "").kept = [] := by decide +kernel

theorem drawless_dazedSession :
    ∀ x ∈ (standard.session (.ofSeed 2) dazedSession).1, x.Drawless := by
  have hcalls : (standard.session (.ofSeed 2) dazedSession).1.map Reply.call
      = [.attack scratchCard 0] := rfl
  intro x hx r text _ htext i e record he _ _
  have hcall : x.call ∈ [Call.attack scratchCard 0] := by
    rw [← hcalls]
    exact List.mem_map_of_mem hx
  rw [List.mem_singleton.1 hcall] at htext
  obtain rfl := Option.some.inj htext
  rw [kept_blank] at he
  cases he

theorem unrecorded_dazedSession :
    (standard.session (.ofSeed 2) dazedSession).1.map
      (fun x => standard.unrecorded x.board x.call) = [[true]] := by
  decide +kernel

/-- Put back in its place, the coin makes the session replay. -/
theorem dazedSession_gives :
    (Coins.ofSeed 2).Gives (standard.taken (standard.session (.ofSeed 2) dazedSession).1)
      (standard.session (.ofSeed 2) dazedSession).2 :=
  (standard.session_gives (.ofSeed 2) dazedSession drawless_dazedSession).1

/-- Its record alone does not replay it: the attack takes a coin that it does not record. -/
theorem recorded_misses_confusion_heads :
    (∀ x ∈ (standard.session (.ofSeed 2) dazedSession).1, x.Drawless)
      ∧ ¬ (Coins.ofSeed 2).Gives (recordedIn (standard.session (.ofSeed 2) dazedSession).1)
          (standard.session (.ofSeed 2) dazedSession).2 := by
  refine ⟨drawless_dazedSession, fun hrecorded => ?_⟩
  have hnone := (standard.gives_recordedIn_iff
    (standard.gives_taken (.ofSeed 2) dazedSession drawless_dazedSession)).1 hrecorded
  have hall : ∀ l ∈ (standard.session (.ofSeed 2) dazedSession).1.map
      (fun x => standard.unrecorded x.board x.call), l = [] := by
    intro l hl
    obtain ⟨x, hx, rfl⟩ := List.mem_map.1 hl
    exact hnone x hx
  rw [unrecorded_dazedSession] at hall
  exact absurd (hall [true] List.mem_cons_self) (by decide)

end Engine

end CardEffects
