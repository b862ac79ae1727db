/-
  CardEffects.Main

  The program on a real machine: the files that the arguments name are read, a seed is drawn,
  and what a run prints is printed.  Everything else is decided by the run itself.
-/
import CardEffects.CommandLine

namespace CardEffects.CommandLine

/-! ## Files -/

/-- The paths a run looks under. -/
def pathsOf (args : List String) : List String :=
  match Invocation.ofArguments args with
  | .error _ => []
  | .ok i =>
    i.config.toList ++
      match i.command with
      | .classify path _ _ => [path]
      | _ => []

/-- What lies on disk under a path. -/
def findOnDisk (path : String) : IO (Option Entry) := do
  let place? ← try some <$> IO.FS.realPath path catch _ => pure none
  match place? with
  | none => return none
  | some place =>
    if ← place.isDir then
      let mut files : Array (String × ByteArray) := #[]
      for e in ← place.readDir do
        if isCardFile e.fileName then
          if (← e.path.pathExists) && !(← e.path.isDir) then
            files := files.push (e.fileName, ← IO.FS.readBinFile e.path)
      return some (.directory files.toList)
    else
      return some (.file (← IO.FS.readBinFile place))

/-! ## Running -/

/-- A seed drawn from the machine. -/
def drawSeed : IO UInt64 := do
  let bytes ← IO.getRandomBytes 8
  return bytes.data.foldl (fun n b => n * 256 + b.toUInt64) 0

/-- What the machine provides for a run. -/
def surroundings (args : List String) : IO Surroundings := do
  let found ← (pathsOf args).mapM fun path => do return (path, ← findOnDisk path)
  return { find := fun path => (found.lookup path).join, cores := 1, seed := ← drawSeed }

end CardEffects.CommandLine

open CardEffects CommandLine in
/-- Runs the program and ends with its exit code. -/
def main (args : List String) : IO UInt32 := do
  let exit := run (← surroundings args) args
  IO.print exit.output
  match exit.error with
  | some message => IO.eprintln ("Error: " ++ message)
  | none => pure ()
  return exit.code.toUInt32
