/-
  CardEffects.Clause.Normal

  The normal form in which card text is read: lower case, plain e for é, straight apostrophes,
  and single spaces between words.  Rules then deal with one spelling only.
-/
import CardEffects.Text.Blank
import CardEffects.Text.Lowercase

namespace CardEffects.Clause

/-- One spelling for the letters and signs that cards spell in several ways. -/
def foldChar (c : Char) : Char :=
  if c = 'é' ∨ c = 'É' then 'e'
  else if c = '’' ∨ c = '‘' then '\''
  else if c = '\n' ∨ c = '\t' ∨ c = '\r' then ' '
  else c

/-- The normal form of a text. -/
def normalize (cs : List Char) : List Char :=
  Text.lowercase (Text.squeeze (cs.map foldChar))

end CardEffects.Clause
