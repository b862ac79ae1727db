/-
  CardEffects.CommandLine

  The program: what each command prints, and how it ends.  Files are looked up through a
  function, and the seed for runs that name none is handed in, so a run is determined by its
  arguments.
-/
import CardEffects.CommandLine.Invocation
import CardEffects.Coverage.Table
import CardEffects.Decimal.Shortest
import CardEffects.Engine
import CardEffects.Json.Writer
import CardEffects.Load
import CardEffects.Wire.Coverage
import CardEffects.Wire.Resolution

namespace CardEffects.CommandLine

/-! ## How a run ends -/

/-- Why a command fails. -/
inductive Failure where
  | load (reason : LoadError)
  | engine (reason : EngineError)
  | energy (reason : EnergyError)
  | unknownCondition (word : String)
  deriving DecidableEq, Repr

/-- The message for a failure. -/
def Failure.message : Failure → String
  | load reason => reason.message
  | engine reason => reason.message
  | energy reason => reason.message
  | unknownCondition word => "unknown special condition: " ++ word

/-- How a run ends: the exit code, what is printed, and the message of an error. -/
structure Exit where
  code : Nat
  output : String
  error : Option String
  deriving DecidableEq, Repr

namespace Exit

/-- The end of a run that prints something and succeeds. -/
def success (output : String) : Exit := ⟨0, output, none⟩

/-- The end of a run that fails. -/
def failure (f : Failure) : Exit := ⟨1, "", some f.message⟩

/-- The line that names and numbers the program. -/
def versionLine : String := "pocketfx 0.1.0\n"

/-- The end of a run that the arguments stop: wrong usage, or a question about the program. -/
def ofHalt : Halt → Exit
  | .usage => ⟨2, "", none⟩
  | .help => success ""
  | .version => success versionLine

/-- The first line of a text.  A carriage return in front of the line feed belongs to the end
of the line. -/
def firstLine (cs : List Char) : List Char :=
  let line := cs.takeWhile (· ≠ '\n')
  if line.getLast? = some '\r' then line.dropLast else line

/-- The first line of an error as it is reported. -/
def errorLine (e : Exit) : Option String :=
  e.error.map fun message => "Error: " ++ String.ofList (firstLine message.toList)

end Exit

/-- Lines, each with its end. -/
def unlines (lines : List String) : String := String.join (lines.map (· ++ "\n"))

/-! ## Commands -/

/-- What a text is read as, and the plan for it. -/
def parseLines (text : String) : List String :=
  let reading := Reading.ofText text
  let rules := reading.rules.map Labelled.label
  ["confidence " ++ Decimal.fixed 2 reading.confidence]
    ++ (if rules.isEmpty then [] else ["rules      " ++ ", ".intercalate rules])
    ++ (Plan.ofText text).lines

/-- The energy type of the attacker: psychic, unless a token names another. -/
def attackerEnergy : Option String → Except EnergyError Energy
  | none => .ok .psychic
  | some token => Energy.ofToken token

/-- The two Pokémon that a text is carried out between. -/
def freshBoard (energy : Energy) (attached hp : Word) (seed : UInt64) : Board where
  attacker := (Combatant.new "Attacker" energy 100).withEnergy energy attached
  defender := some (Combatant.new "Defender" .fighting hp)
  coins := .ofSeed seed

/-- What a text does between two fresh Pokémon. -/
def resolveText (g : Engine) (text : String) (base hp attached : Word) (energy : Energy)
    (seed : UInt64) : Resolution :=
  (g.resolveText 1 (freshBoard energy attached hp seed) text base).1

/-- Runs checks between turns until the Pokémon is knocked out or rid of its conditions, `n`
at most.  Gives the lines printed and the Pokémon in the end. -/
def watch (t : ConditionRules) (m : Combatant) (coins : Coins) (turn : Nat) :
    Nat → List String × Combatant
  | 0 => ([], m)
  | n + 1 =>
    let (logs, m, coins) := t.betweenTurns (Word.clamp turn) m coins
    let lines := logs.map CheckLog.describe
    if logs.any CheckLog.knockedOut then (lines ++ ["knocked out"], m)
    else if m.conditions.isEmpty then (lines ++ ["no conditions left"], m)
    else
      let (more, m) := watch t m coins (turn + 1) n
      (lines ++ more, m)

/-- The lines on one condition: the seed, the checks, and the hit points left. -/
def statusLines (t : ConditionRules) (c : Condition) (turns hp : Word) (seed : UInt64) :
    List String :=
  let target := ((Combatant.new "Target" .psychic hp).inflict c 0).2
  let (lines, target) := watch t target (.ofSeed seed) 1 turns.toNat
  ["seed " ++ Term.number seed.toNat] ++ lines
    ++ ["hp " ++ Term.number target.hp.toNat ++ "/" ++ Term.number target.maxHp.toNat]

/-- A coverage as JSON, the mean confidence in the fewest digits. -/
def coverageJson (c : Coverage Float) : Json :=
  c.toJson fun mean => .decimal (Decimal.shortestText mean)

/-! ## The program -/

/-- What the surroundings provide. -/
structure Surroundings where
  /-- What is found under a path. -/
  find : String → Option Entry
  /-- How many workers there can be. -/
  cores : Nat
  /-- The seed where none is named. -/
  seed : UInt64

/-- The settings of a run: those of the file that is named, or the standard ones. -/
def settings (s : Surroundings) : Option String → Except LoadError Config
  | none => .ok .standard
  | some path => loadConfig path (s.find path)

/-- What a command prints, or why it fails. -/
def Command.run (s : Surroundings) (config : Config) : Command → Except Failure String
  | parse text => do
    let _ ← (Engine.ofValid config).mapError .engine
    .ok (unlines (parseLines text))
  | resolve text seed base hp attached energy => do
    let engine ← (Engine.ofValid config).mapError .engine
    let energy ← (attackerEnergy energy).mapError .energy
    let r := resolveText engine text base hp attached energy (seed.getD s.seed)
    .ok (r.toJson.pretty 0 ++ "\n")
  | classify path threads json => do
    let cards ← (loadCorpus path (s.find path)).mapError .load
    let coverage : Coverage Float := .ofCardsBy threads s.cores cards
    .ok (if json then (coverageJson coverage).pretty 0 ++ "\n" else coverage.table)
  | status word turns hp seed =>
    match Condition.ofWord? word.toList with
    | none => .error (.unknownCondition word)
    | some c => do
      let engine ← (Engine.ofValid config).mapError .engine
      let rules := engine.config.conditionRules
      .ok (unlines (statusLines rules c turns hp (seed.getD s.seed)))

/-- One run of the program. -/
def Invocation.run (s : Surroundings) (i : Invocation) : Exit :=
  match settings s i.config with
  | .error e => .failure (.load e)
  | .ok config =>
    match i.command.run s config with
    | .error f => .failure f
    | .ok output => .success output

/-- The program with the given arguments. -/
def run (s : Surroundings) (args : List String) : Exit :=
  match Invocation.ofArguments args with
  | .error reason => .ofHalt reason
  | .ok invocation => invocation.run s

end CardEffects.CommandLine
