/-
  CardEffects.Text.Quoted

  Texts between double quotes.  A quote and a backslash are written behind a backslash, as are
  tab, line feed, carriage return and the null character; a character that extends its
  neighbour or has no visible form is written as its code point in braces; all else stands for
  itself.
-/
import CardEffects.Text.PrintTable
import CardEffects.Text.Ranges

namespace CardEffects.Text

/-- Whether a character is written as its code point. -/
def needsCodePoint (c : Char) : Bool :=
  inRanges extendingRanges c.toNat || inRanges invisibleRanges c.toNat

/-- One character as it stands between quotes. -/
def quotedChar (c : Char) : List Char :=
  match c with
  | '\x00' => ['\\', '0']
  | '\t' => ['\\', 't']
  | '\r' => ['\\', 'r']
  | '\n' => ['\\', 'n']
  | '\\' => ['\\', '\\']
  | '"' => ['\\', '"']
  | c =>
    if needsCodePoint c then
      ['\\', 'u', '\x7b'] ++ Nat.toDigits 16 c.toNat ++ ['\x7d']
    else [c]

/-- A text between double quotes. -/
def quoted (s : String) : String :=
  String.ofList (['"'] ++ s.toList.flatMap quotedChar ++ ['"'])

end CardEffects.Text
