/-
  CardEffects.CommandLine.Arguments

  How the arguments of a command are read: long options with their value behind an equals sign
  or in the next argument, clusters of short options, and plain arguments.  Two dashes end the
  options.  What is given is collected in a draft; an option that was given already, or a value
  that does not fit, is refused by the draft.
-/

namespace CardEffects.CommandLine

/-! ## Options -/

/-- Why reading ends early. -/
inductive Halt where
  | usage
  | help
  | version
  deriving DecidableEq, Repr

/-- What an option does to a draft. -/
inductive Use (α : Type) where
  | flag (set : α → Option α)
  | value (set : String → α → Option α)
  | halt (reason : Halt)

/-- An option. -/
structure OptionSpec (α : Type) where
  long : String
  short : Option Char
  use : Use α

/-- What a command takes. -/
structure Grammar (α γ : Type) where
  options : List (OptionSpec α)
  /-- The next plain argument. -/
  plain : String → α → Option α
  /-- The plain arguments that hand over to another command. -/
  commands : List (String × γ)

/-- What has been read: a draft, and the command to go on with, if there is one, with the
arguments left for it. -/
structure Scanned (α γ : Type) where
  draft : α
  next : Option (γ × List String)

variable {α γ : Type}

/-! ## Single arguments -/

/-- The setter of an option that waits for its value. -/
abbrev Waiting (α : Type) := Option (String → α → Option α)

/-- What became of an option argument: a new draft, and maybe an option waiting. -/
abbrev Step (α : Type) := Except Halt (α × Waiting α)

/-- What the long option of a name does. -/
def Grammar.long? (g : Grammar α γ) (name : String) : Option (Use α) :=
  (g.options.find? fun o => o.long == name).map OptionSpec.use

/-- What the short option of a letter does. -/
def Grammar.short? (g : Grammar α γ) (letter : Char) : Option (Use α) :=
  (g.options.find? fun o => o.short == some letter).map OptionSpec.use

/-- A draft, unless it was refused. -/
def accept : Option α → Step α
  | some draft => .ok (draft, none)
  | none => .error .usage

/-- A long option, without its dashes. -/
def longOption (g : Grammar α γ) (draft : α) (arg : List Char) : Step α :=
  let name := String.ofList (arg.takeWhile (· ≠ '='))
  let attached := (arg.dropWhile (· ≠ '=')).tail?.map String.ofList
  match g.long? name, attached with
  | some (.flag set), none => accept (set draft)
  | some (.value set), some v => accept (set v draft)
  | some (.value set), none => .ok (draft, some set)
  | some (.halt reason), none => .error reason
  | _, _ => .error .usage

/-- A cluster of short options; the first that takes a value takes the rest as its value. -/
def shortOptions (g : Grammar α γ) (draft : α) : List Char → Step α
  | [] => .ok (draft, none)
  | c :: rest =>
    match g.short? c with
    | some (.flag set) =>
      match set draft with
      | some draft => shortOptions g draft rest
      | none => .error .usage
    | some (.value set) =>
      match rest with
      | [] => .ok (draft, some set)
      | '=' :: v => accept (set (String.ofList v) draft)
      | v => accept (set (String.ofList v) draft)
    | some (.halt reason) => .error reason
    | none => .error .usage

/-- Whether an argument is not a plain one: it starts with a dash and has more to it. -/
def isOption (arg : List Char) : Bool :=
  match arg with
  | '-' :: _ :: _ => true
  | _ => false

/-- An argument that starts with a dash. -/
def option (g : Grammar α γ) (draft : α) : List Char → Step α
  | '-' :: '-' :: name => longOption g draft name
  | '-' :: cluster => shortOptions g draft cluster
  | _ => .error .usage

/-! ## All arguments -/

/-- Plain arguments only. -/
def plainOnly (g : Grammar α γ) (draft : α) : List String → Option α
  | [] => some draft
  | arg :: rest => (g.plain arg draft).bind fun draft => plainOnly g draft rest

/-- Reads arguments up to the name of another command. -/
def scan (g : Grammar α γ) (waiting : Waiting α) (draft : α) :
    List String → Except Halt (Scanned α γ)
  | [] =>
    match waiting with
    | some _ => .error .usage
    | none => .ok ⟨draft, none⟩
  | arg :: rest =>
    match waiting with
    | some set =>
      if isOption arg.toList then .error .usage
      else
        match set arg draft with
        | some draft => scan g none draft rest
        | none => .error .usage
    | none =>
      if arg = "--" then
        match plainOnly g draft rest with
        | some draft => .ok ⟨draft, none⟩
        | none => .error .usage
      else if isOption arg.toList then
        match option g draft arg.toList with
        | .ok (draft, waiting) => scan g waiting draft rest
        | .error reason => .error reason
      else
        match g.commands.lookup arg with
        | some command => .ok ⟨draft, some (command, rest)⟩
        | none =>
          match g.plain arg draft with
          | some draft => scan g none draft rest
          | none => .error .usage

/-! ## Drafts -/

/-- Gives a value to something that has none yet. -/
def once {β : Type} (old new : Option β) : Option (Option β) :=
  match old, new with
  | none, some v => some (some v)
  | _, _ => none

/-- Raises a flag that is not raised yet. -/
def raise (old : Bool) : Option Bool := if old then none else some true

/-! ## Values -/

/-- The number written by decimal digits, one at least. -/
def digits? (cs : List Char) : Option Nat :=
  if cs ≠ [] ∧ cs.all (fun c => '0' ≤ c && c ≤ '9') then
    some (cs.foldl (fun n c => 10 * n + (c.toNat - 48)) 0)
  else none

/-- A number below a bound, with or without a plus sign. -/
def natural? (bound : Nat) (s : String) : Option Nat :=
  let n := match s.toList with
    | '+' :: rest => digits? rest
    | cs => digits? cs
  n.filter (· < bound)

/-- A number below a bound, with or without a sign; a minus sign leaves only zero. -/
def signed? (bound : Nat) (s : String) : Option Nat :=
  match s.toList with
  | '-' :: rest => (digits? rest).filter (· = 0)
  | _ => natural? bound s

end CardEffects.CommandLine
