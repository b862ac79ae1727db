/-
  CardEffects.Coverage.Table

  Coverages as tables for the terminal.
-/
import CardEffects.Coverage
import CardEffects.Decimal.Fixed
import CardEffects.Text.Term

namespace CardEffects

/-- A place on a card in words. -/
def TextSource.describe : TextSource → String
  | attack i => "attack #" ++ Term.number i
  | ability i => "ability #" ++ Term.number i
  | trainer => "trainer"

namespace Coverage

/-- How wide the column of names is. -/
def nameWidth : Nat := 24

/-- A line with a name and its count. -/
def countLine (name : String) (n : Nat) : String :=
  "  " ++ name ++ String.ofList (List.replicate (nameWidth - name.length) ' ') ++ " "
    ++ Term.number n ++ "\n"

/-- A heading with lines below it; without lines nothing. -/
def titled (heading : String) (lines : List String) : String :=
  if lines.isEmpty then "" else "\n" ++ heading ++ ":\n" ++ String.join lines

/-- The line for a text that no rule reads. -/
def entryLine (e : UnreadText) : String :=
  "  " ++ e.card ++ " " ++ e.name ++ " (" ++ e.source.describe ++ "): " ++ e.text ++ "\n"

/-- A coverage as a table. -/
def table (c : Coverage Float) : String :=
  "cards            " ++ Term.number c.cards ++ "\n"
    ++ "effect texts     " ++ Term.number c.texts ++ "\n"
    ++ "parsed           " ++ Term.number c.parsed ++ " ("
    ++ Decimal.fixed 1 (c.parsedShare.toFloat32 * 100) ++ "%)\n"
    ++ "partial          " ++ Term.number c.doubtful ++ "\n"
    ++ "unparsed         " ++ Term.number c.unparsed ++ "\n"
    ++ "mean confidence  " ++ Decimal.fixed 2 c.meanConfidence ++ "\n"
    ++ titled "by effect kind" (c.byKind.toList.map fun e => countLine e.1.id e.2)
    ++ titled "by rule" (c.ruleCounts.map fun e => countLine e.1 e.2)
    ++ titled "needs manual handling" (c.entries.map entryLine)

end Coverage

end CardEffects
