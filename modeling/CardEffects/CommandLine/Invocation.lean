/-
  CardEffects.CommandLine.Invocation

  The commands of the program and what each takes.  The options of the program as a whole may
  also stand among those of a command; there they count for more.
-/
import CardEffects.CommandLine.Arguments
import CardEffects.Word

namespace CardEffects.CommandLine

/-! ## Commands -/

/-- A command with its arguments. -/
inductive Command where
  /-- Shows how a text is read. -/
  | parse (text : String)
  /-- Carries out a text between two fresh Pokémon. -/
  | resolve (text : String) (seed : Option UInt64) (base hp attached : Word)
      (energy : Option String)
  /-- Shows how much of a corpus is read. -/
  | classify (path : String) (threads : Nat) (json : Bool)
  /-- Runs the checks between turns for one condition. -/
  | status (kind : String) (turns hp : Word) (seed : Option UInt64)
  deriving DecidableEq, Repr

/-- One run of the program: the path of the settings, if one is given, and the command. -/
structure Invocation where
  config : Option String
  command : Command
  deriving DecidableEq, Repr

/-! ## Values -/

/-- A count. -/
def word? (s : String) : Option Word := (signed? UInt32.size s).map UInt32.ofNat

/-- A seed. -/
def seed? (s : String) : Option UInt64 := (natural? UInt64.size s).map UInt64.ofNat

/-- A number of threads. -/
def threads? (s : String) : Option Nat := natural? UInt64.size s

/-- A path. -/
def path? (s : String) : Option String := if s = "" then none else some s

/-! ## Options of the program -/

/-- The options of the program. -/
structure Globals where
  config : Option String := none
  verbose : Bool := false

namespace Globals

/-- The options of the program, set in a part of a larger draft. -/
def options {α : Type} (get : α → Globals) (set : Globals → α → α) :
    List (OptionSpec α) :=
  [⟨"config", none, .value fun v d =>
      (once (get d).config (path? v)).map fun config => set { get d with config } d⟩,
    ⟨"verbose", some 'v', .flag fun d =>
      (raise (get d).verbose).map fun verbose => set { get d with verbose } d⟩,
    ⟨"help", some 'h', .halt .help⟩]

end Globals

/-! ## Options of the commands -/

/-- What is collected for a command. -/
structure Draft where
  globals : Globals := {}
  text : Option String := none
  seed : Option UInt64 := none
  base : Option Word := none
  hp : Option Word := none
  energy : Option String := none
  attached : Option Word := none
  threads : Option Nat := none
  json : Bool := false
  turns : Option Word := none

namespace Draft

/-- The plain argument, of which a command takes one. -/
def setText (read : String → Option String) (s : String) (d : Draft) : Option Draft :=
  (once d.text (read s)).map fun text => { d with text }

/-- The options of the program among those of a command. -/
def globalOptions : List (OptionSpec Draft) :=
  Globals.options Draft.globals fun globals d => { d with globals }

def seedOption : OptionSpec Draft :=
  ⟨"seed", some 's', .value fun v d => (once d.seed (seed? v)).map fun seed => { d with seed }⟩

def baseOption : OptionSpec Draft :=
  ⟨"base", some 'b', .value fun v d => (once d.base (word? v)).map fun base => { d with base }⟩

def hpOption : OptionSpec Draft :=
  ⟨"hp", none, .value fun v d => (once d.hp (word? v)).map fun hp => { d with hp }⟩

def energyOption : OptionSpec Draft :=
  ⟨"type", none, .value fun v d => (once d.energy (some v)).map fun energy => { d with energy }⟩

def attachedOption : OptionSpec Draft :=
  ⟨"attached", none, .value fun v d =>
    (once d.attached (word? v)).map fun attached => { d with attached }⟩

def threadsOption : OptionSpec Draft :=
  ⟨"threads", some 't', .value fun v d =>
    (once d.threads (threads? v)).map fun threads => { d with threads }⟩

def jsonOption : OptionSpec Draft :=
  ⟨"json", none, .flag fun d => (raise d.json).map fun json => { d with json }⟩

def turnsOption : OptionSpec Draft :=
  ⟨"turns", some 't', .value fun v d =>
    (once d.turns (word? v)).map fun turns => { d with turns }⟩

/-- The damage a text starts from, unless said otherwise. -/
def standardBase : Word := 0

/-- The hit points of a Pokémon, unless said otherwise. -/
def standardHp : Word := 100

/-- The energy attached, unless said otherwise. -/
def standardAttached : Word := 0

/-- The number of checks, unless said otherwise. -/
def standardTurns : Word := 5

end Draft

/-- The names of the commands. -/
inductive CommandName where
  | parse
  | resolve
  | classify
  | status
  deriving DecidableEq, Repr

namespace CommandName

/-- The options of a command. -/
def options : CommandName → List (OptionSpec Draft)
  | parse => []
  | resolve =>
    [Draft.seedOption, Draft.baseOption, Draft.hpOption, Draft.energyOption,
      Draft.attachedOption]
  | classify => [Draft.threadsOption, Draft.jsonOption]
  | status => [Draft.turnsOption, Draft.seedOption, Draft.hpOption]

/-- How the plain argument of a command is read. -/
def plain : CommandName → String → Option String
  | classify => path?
  | _ => some

/-- What a command takes. -/
def grammar (n : CommandName) : Grammar Draft Unit where
  options := n.options ++ Draft.globalOptions
  plain := Draft.setText n.plain
  commands := []

/-- The command that a draft makes; the plain argument must be there. -/
def command? (n : CommandName) (d : Draft) : Option Command :=
  d.text.map fun text =>
    match n with
    | parse => .parse text
    | resolve =>
      .resolve text d.seed (d.base.getD Draft.standardBase) (d.hp.getD Draft.standardHp)
        (d.attached.getD Draft.standardAttached) d.energy
    | classify => .classify text (d.threads.getD 0) d.json
    | status =>
      .status text (d.turns.getD Draft.standardTurns) (d.hp.getD Draft.standardHp) d.seed

end CommandName

/-! ## The program -/

/-- What the name of a command leads to. -/
inductive Destination where
  | command (name : CommandName)
  | help
  deriving DecidableEq, Repr

/-- The names behind which a command stands. -/
def destinations : List (String × Destination) :=
  [("parse", .command .parse), ("resolve", .command .resolve),
    ("classify", .command .classify), ("status", .command .status), ("help", .help)]

/-- What the program takes. -/
def programGrammar : Grammar Globals Destination where
  options := Globals.options id (fun g _ => g) ++ [⟨"version", some 'V', .halt .version⟩]
  plain := fun _ _ => none
  commands := destinations

/-- Help on the program, or on one command. -/
def helpOn : List String → Halt
  | [] => .help
  | [name] => if (destinations.lookup name).isSome then .help else .usage
  | _ => .usage

/-- The run that the arguments ask for. -/
def Invocation.ofArguments (args : List String) : Except Halt Invocation :=
  match scan programGrammar none {} args with
  | .error reason => .error reason
  | .ok ⟨_, none⟩ => .error .usage
  | .ok ⟨_, some (.help, rest)⟩ => .error (helpOn rest)
  | .ok ⟨globals, some (.command name, rest)⟩ =>
    match scan name.grammar none {} rest with
    | .error reason => .error reason
    | .ok ⟨draft, _⟩ =>
      match name.command? draft with
      | none => .error .usage
      | some command => .ok ⟨draft.globals.config <|> globals.config, command⟩

end CardEffects.CommandLine
