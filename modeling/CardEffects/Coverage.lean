/-
  CardEffects.Coverage

  How much of the text on a set of cards is read.  Every text is counted as read or unread,
  every effect under its kind and every rule once for each text it reads.  Coverages of two
  sets are merged into that of both, so a set can be split among workers.  The confidence of
  the texts is summed up in a type of its own choosing: exact, or in floating point.
-/
import CardEffects.Card
import CardEffects.Reading

namespace CardEffects

/-! ## Sums of confidence -/

/-- A type in which the confidence of texts is summed up. -/
class Confidence (σ : Type) extends Add σ where
  /-- The sum of nothing. -/
  none : σ
  ofShare : Share → σ

instance : Confidence Float where
  none := 0
  ofShare := Share.toFloat

/-! ## Coverages -/

/-- A text that no rule reads, and where it stands. -/
structure UnreadText where
  card : String
  name : String
  source : TextSource
  text : String
  deriving DecidableEq, Repr

/-- How much of some cards is read. -/
structure Coverage (σ : Type) where
  cards : Nat
  texts : Nat
  parsed : Nat
  unparsed : Nat
  /-- Texts that are read, but with little confidence. -/
  doubtful : Nat
  byKind : EnumMap EffectKind Nat
  /-- For each rule the texts that it reads something of. -/
  byRule : EnumMap Clause.RuleName Nat
  confidence : σ
  entries : List UnreadText

namespace Coverage

variable {σ : Type} [Confidence σ]

/-- A confidence below this is little. -/
def doubtfulBelow : Float32 := 0.5

/-- The coverage of no cards. -/
def empty : Coverage σ := ⟨0, 0, 0, 0, 0, ∅, ∅, Confidence.none, []⟩

/-- The coverage of two sets of cards, the second behind the first. -/
def merge (a b : Coverage σ) : Coverage σ where
  cards := a.cards + b.cards
  texts := a.texts + b.texts
  parsed := a.parsed + b.parsed
  unparsed := a.unparsed + b.unparsed
  doubtful := a.doubtful + b.doubtful
  byKind := a.byKind.merge (· + ·) b.byKind
  byRule := a.byRule.merge (· + ·) b.byRule
  confidence := a.confidence + b.confidence
  entries := a.entries ++ b.entries

/-- The coverage of several sets of cards in order. -/
def mergeAll (parts : List (Coverage σ)) : Coverage σ := parts.foldl merge empty

/-- The coverage of one text of a card, the card itself not counted. -/
def ofText (card : Card) (source : TextSource) (text : String) : Coverage σ :=
  let reading := Reading.ofText text
  let unread := reading.effects.any Effect.isUnparsed
  { cards := 0
    texts := 1
    parsed := if unread then 0 else 1
    unparsed := if unread then 1 else 0
    doubtful := if !unread && reading.confidence < doubtfulBelow then 1 else 0
    byKind := .tally (reading.effects.map Effect.kind)
    byRule := .tally reading.rules
    confidence := Confidence.ofShare reading.share
    entries := if unread then [⟨card.id, card.name, source, text⟩] else [] }

/-- The coverage of one card. -/
def ofCard (card : Card) : Coverage σ :=
  { mergeAll (card.effectTexts.map fun t => ofText card t.1 t.2) with cards := 1 }

/-- The coverage of some cards, worked out by one worker. -/
def ofCards (cards : List Card) : Coverage σ := mergeAll (cards.map ofCard)

/-! ## Workers -/

/-- How many workers share the cards: as many as asked for, or one for each core when none is,
but no more than there are cards. -/
def workerCount (threads cores cards : Nat) : Nat :=
  max 1 (min (if threads = 0 then cores else threads) cards)

/-- How many cards one worker gets. -/
def chunkSize (workers cards : Nat) : Nat := (cards + (workers - 1)) / workers

/-- A list cut into pieces of one item and up to `more` others; only the last may be shorter. -/
def chunks {α : Type} (more : Nat) : List α → List (List α)
  | [] => []
  | a :: rest => (a :: rest.take more) :: chunks more (rest.drop more)
termination_by l => l.length
decreasing_by
  simp only [List.length_drop, List.length_cons]
  omega

/-- A list cut into pieces of the given size.  There are no pieces of size zero. -/
def chunks? {α : Type} : Nat → List α → Option (List (List α))
  | 0, _ => none
  | more + 1, l => some (chunks more l)

/-- The coverage of some cards, worked out by several workers; none if the cards cannot be cut
into pieces for them. -/
def ofCardsBy? (threads cores : Nat) (cards : List Card) : Option (Coverage σ) :=
  let workers := workerCount threads cores cards.length
  if workers ≤ 1 then some (ofCards cards)
  else
    (chunks? (chunkSize workers cards.length) cards).map fun parts => mergeAll (parts.map ofCards)

/-- Where several workers share cards, there is a piece of one card at least for each. -/
theorem chunkSize_pos {threads cores cards : Nat} (h : 1 < workerCount threads cores cards) :
    0 < chunkSize (workerCount threads cores cards) cards := by
  have hcards : workerCount threads cores cards ≤ cards := by
    unfold workerCount at h ⊢
    omega
  exact Nat.div_pos (by omega) (by omega)

/-- The cards can always be cut. -/
theorem isSome_ofCardsBy? (threads cores : Nat) (cards : List Card) :
    (ofCardsBy? threads cores cards : Option (Coverage σ)).isSome = true := by
  unfold ofCardsBy?
  dsimp only
  split
  next => rfl
  next h =>
    obtain ⟨more, hmore⟩ := Nat.exists_eq_add_of_lt (chunkSize_pos (Nat.lt_of_not_le h))
    rw [hmore, Nat.zero_add]
    rfl

/-- The coverage of some cards, worked out by several workers. -/
def ofCardsBy (threads cores : Nat) (cards : List Card) : Coverage σ :=
  (ofCardsBy? threads cores cards).get (isSome_ofCardsBy? threads cores cards)

/-! ## Reading off -/

/-- The texts that are read, out of all; all of none. -/
def parsedShare (c : Coverage σ) : Share := if c.texts = 0 then .whole else ⟨c.parsed, c.texts⟩

/-- The mean confidence of the texts; zero without one. -/
def meanConfidence (c : Coverage Float) : Float32 :=
  if c.texts = 0 then 0 else (c.confidence / Float.ofNat c.texts).toFloat32

/-- The counts of the rules, in alphabetical order. -/
def ruleCounts (c : Coverage σ) : List (String × Nat) :=
  (c.byRule.toList.map fun e => (Labelled.label e.1, e.2)).mergeSort fun a b => a.1 ≤ b.1

end Coverage

end CardEffects
