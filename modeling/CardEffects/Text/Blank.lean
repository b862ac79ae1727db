/-
  CardEffects.Text.Blank

  Blank characters (the White_Space property) and what texts do with them: trimming at either
  end, and squeezing every run of blanks between words to one space.
-/
import CardEffects.Text.Ranges

namespace CardEffects.Text

/-! ## Blank characters -/

/-- The ranges of the White_Space property. -/
def blankRanges : List (Nat × Nat) :=
  [(0x0009, 0x000D), (0x0020, 0x0020), (0x0085, 0x0085), (0x00A0, 0x00A0), (0x1680, 0x1680),
    (0x2000, 0x200A), (0x2028, 0x2029), (0x202F, 0x202F), (0x205F, 0x205F), (0x3000, 0x3000)]

/-- Whether a character is white space. -/
def isBlank (c : Char) : Bool := inRanges blankRanges c.toNat

/-! ## Trimming -/

/-- The text without the blanks it starts with. -/
def trimStart (cs : List Char) : List Char := cs.dropWhile isBlank

/-- The text without the blanks it ends with. -/
def trimEnd (cs : List Char) : List Char := (cs.reverse.dropWhile isBlank).reverse

/-- The text without the blanks at either end. -/
def trim (cs : List Char) : List Char := trimEnd (trimStart cs)

/-! ## Squeezing -/

/-- The text from here on with each run of blanks between two words as one space.  `started`
says that a word has been seen, `pending` that blanks have been passed since. -/
def squeezeFrom (started pending : Bool) : List Char → List Char
  | [] => []
  | c :: cs =>
    if isBlank c then squeezeFrom started true cs
    else if started && pending then ' ' :: c :: squeezeFrom true false cs
    else c :: squeezeFrom true false cs

/-- The words of a text, one space between each two. -/
def squeeze (cs : List Char) : List Char := squeezeFrom false false cs

theorem squeezeFrom_eq_nil_iff (started pending : Bool) (cs : List Char) :
    squeezeFrom started pending cs = [] ↔ ∀ c ∈ cs, isBlank c = true := by
  induction cs generalizing started pending with
  | nil => simp [squeezeFrom]
  | cons c cs ih =>
    by_cases hc : isBlank c
    · simp [squeezeFrom, hc, ih]
    · cases started <;> cases pending <;> simp [squeezeFrom, hc]

/-- Nothing is left exactly when there was no word. -/
theorem squeeze_eq_nil_iff (cs : List Char) : squeeze cs = [] ↔ ∀ c ∈ cs, isBlank c = true :=
  squeezeFrom_eq_nil_iff _ _ cs

end CardEffects.Text
