/-
  CardEffects.Wire.Coverage

  Coverages as JSON.
-/
import CardEffects.Coverage
import CardEffects.Wire.Card

namespace CardEffects

open Json

/-- A text that no rule reads. -/
def UnreadText.toJson (e : UnreadText) : Json :=
  record [("card", Json.text e.card), ("name", Json.text e.name), ("source", e.source.toJson),
    ("text", Json.text e.text)]

/-- A coverage, its mean confidence written by `mean`. -/
def Coverage.toJson (mean : Float32 → Json) (c : Coverage Float) : Json :=
  record [("cards", natural c.cards), ("texts", natural c.texts), ("parsed", natural c.parsed),
    ("unparsed", natural c.unparsed), ("partial", natural c.doubtful),
    ("by_kind", ofEnumMap natural c.byKind),
    ("by_rule", record (c.ruleCounts.map fun e => (e.1, natural e.2))),
    ("mean_confidence", mean c.meanConfidence),
    ("unparsed_entries", Json.ofList UnreadText.toJson c.entries)]

end CardEffects
