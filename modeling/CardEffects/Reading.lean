/-
  CardEffects.Reading

  Reading a card text: every rule is searched for in the normal form of the text, and what the
  rules find and accept becomes the effects of the text, in the order of the rules.  A text in
  which no rule accepts anything is one unparsed effect; a blank text has no effect at all.
  How much of the text the rules account for is kept beside the effects as a share.
-/
import CardEffects.Clause.Normal
import CardEffects.Clause.Rule
import CardEffects.Plan
import CardEffects.Share

namespace CardEffects

/-- What is read in one text. -/
structure Reading where
  effects : List Effect
  /-- The rules that made them, in order. -/
  rules : List Clause.RuleName
  /-- The letters and digits of the text that the rules account for. -/
  share : Share
  deriving DecidableEq, Repr

namespace Reading

open Clause

/-! ## What one rule finds -/

/-- Whether a rule may be used at a place. -/
def admits (r : RuleName) (f : Found) : Bool :=
  match r.place with
  | .gate => true
  | .plain => !isGated f.before

/-- The readings of a rule in a normal form that it accepts, with the effects it makes. -/
def accepted (r : RuleName) (normal : List Char) : List (Found × Effect) :=
  ((findAll r.phrase normal).filter (admits r)).filterMap fun f =>
    (r.build f).map fun e => (f, e)

/-- The accepted readings of all rules. -/
def allAccepted (normal : List Char) : List (RuleName × List (Found × Effect)) :=
  (Enumeration.all : List RuleName).map fun r => (r, accepted r normal)

/-! ## How much of the text is accounted for -/

/-- Whether a character is an ASCII letter or digit. -/
def isLetterOrDigit (c : Char) : Bool :=
  'a' ≤ c && c ≤ 'z' || 'A' ≤ c && c ≤ 'Z' || '0' ≤ c && c ≤ '9'

/-- The places of the text that a reading covers: from the first up to, not including, the
second. -/
def span (f : Found) : Nat × Nat := (f.before.length, f.before.length + f.taken.length)

/-- Whether one of the spans covers place `i` of the text. -/
def covered (spans : List (Nat × Nat)) (i : Nat) : Bool :=
  spans.any fun s => s.1 ≤ i && i < s.2

/-- The letters and digits covered by some reading, out of all. -/
def shareOf (normal : List Char) (found : List Found) : Share :=
  let spans := found.map span
  { hits := normal.zipIdx.countP fun p => isLetterOrDigit p.1 && covered spans p.2
    total := normal.countP isLetterOrDigit }

/-! ## The reading of a text -/

/-- What is read in a text. -/
def ofText (text : String) : Reading :=
  let normal := normalize text.toList
  if normal = [] then ⟨[], [], .whole⟩
  else
    let found := allAccepted normal
    let accepted := found.flatMap (·.2)
    if accepted = [] then ⟨[.unparsed text], [], .none⟩
    else
      { effects := accepted.map (·.2)
        rules := (found.filter fun p => !p.2.isEmpty).map (·.1)
        share := shareOf normal (accepted.map (·.1)) }

/-- How far the reading is to be trusted, between zero and one. -/
def confidence (r : Reading) : Float32 := r.share.toFloat32

end Reading

/-- The plan for a text. -/
def Plan.ofText (text : String) : Plan := Plan.ofEffects (Reading.ofText text).effects

end CardEffects
