/-
  CardEffects.Registry

  Which kinds of effect are carried out, and by what.  Each kind has a built-in handler, which
  may be taken away or be put in the place of another; a handler that gets an effect of a kind
  other than its own does nothing with it.
-/
import CardEffects.Application

namespace CardEffects

/-- The handlers in place, each named by the kind it is built for. -/
structure Registry where
  handlers : EnumMap EffectKind EffectKind
  deriving DecidableEq

namespace Registry

/-- No handler at all. -/
def empty : Registry := ⟨∅⟩

instance : EmptyCollection Registry := ⟨empty⟩

instance : Inhabited Registry := ⟨empty⟩

/-- Every handler in its own place. -/
def standard : Registry := ⟨.tabulate some⟩

/-- The handler in the place of a kind. -/
def get? (r : Registry) (k : EffectKind) : Option EffectKind := r.handlers.get? k

/-- The kinds that have a handler, in order. -/
def kinds (r : Registry) : List EffectKind := r.handlers.keys

/-- Takes the handler of a kind away. -/
def unregister (r : Registry) (k : EffectKind) : Registry := ⟨r.handlers.erase k⟩

/-- Puts a handler in the place of a kind. -/
def register (r : Registry) (k handler : EffectKind) : Registry := ⟨r.handlers.insert k handler⟩

/-- Moves the handler of one kind to the place of another; nothing is moved from a place
without one. -/
def move? (r : Registry) (k place : EffectKind) : Option Registry :=
  (r.get? k).map fun handler => (r.unregister k).register place handler

/-- Whether an effect has the handler of its own kind. -/
def handles (r : Registry) (e : Effect) : Bool := r.get? e.kind == some e.kind

/-- The term for a registry: its kinds. -/
def term (r : Registry) : String :=
  Term.fields "EffectRegistry" [("kinds", Term.list (r.kinds.map Labelled.label))]

/-- Carries out an effect by the handler in its place. -/
def execute (r : Registry) (s : Setting) (b : Board) (e : Effect) : Outcome × Board :=
  match r.get? e.kind with
  | none => (.notImplemented e.kind, b)
  | some handler => if handler = e.kind then e.apply s b else (.notImplemented handler, b)

end Registry

end CardEffects
