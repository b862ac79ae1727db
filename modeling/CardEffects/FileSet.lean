/-
  CardEffects.FileSet

  A set of files held in memory, and what is found in it under a path.  A place is given by the
  names that lead to it from the top, and paths start at a working directory just below the
  top, under a name that no path can spell.  A step up from the top stays there.  Every
  directory passed on the way to a file exists, also one that the path leaves again.
-/

namespace CardEffects

/-- What is found under a path. -/
inductive Entry where
  | file (content : ByteArray)
  /-- A directory, with the files that lie directly in it. -/
  | directory (files : List (String × ByteArray))

/-! ## Places -/

/-- The names that lead to a place from the top. -/
abbrev Location := List String

namespace Location

/-- The directory above all others. -/
def top : Location := []

/-- The directory that paths start from. -/
def start : Location := [""]

/-- Where one step of a path leads. -/
def step (place : Location) (name : String) : Location :=
  if name = "" ∨ name = "." then place
  else if name = ".." then place.dropLast
  else place ++ [name]

/-- The places that the steps of a path lead to, one after the other. -/
def passed (place : Location) : List String → List Location
  | [] => []
  | name :: rest => place.step name :: (place.step name).passed rest

end Location

/-! ## Paths -/

/-- The pieces of a text between slashes. -/
def splitSlashes (cs : List Char) : List (List Char) := cs.splitOnP (· == '/')

/-- The steps of a path, those that lead nowhere included. -/
def pathSteps (path : String) : List String := (splitSlashes path.toList).map String.ofList

/-! ## Sets of files -/

/-- Files by their places, and the places of all directories. -/
structure FileSet where
  files : List (Location × ByteArray)
  directories : List Location

namespace FileSet

/-- No file. -/
def empty : FileSet := ⟨[], [.top, .start]⟩

/-- Adds a file, in the place of one that is there, and the directories on the way to it; a path
that ends in a slash is an empty directory. -/
def add (s : FileSet) (path : String) (content : ByteArray) : FileSet :=
  let steps := pathSteps path
  if path.toList.getLast? = some '/' then
    { s with directories := s.directories ++ Location.start.passed steps }
  else
    let place := steps.foldl Location.step Location.start
    { files := s.files.filter (fun f => f.1 ≠ place) ++ [(place, content)]
      directories := s.directories ++ Location.start.passed steps.dropLast }

/-! ## Looking up -/

/-- The content of a file. -/
def content? (s : FileSet) (place : Location) : Option ByteArray := s.files.lookup place

/-- Whether a place is a directory. -/
def isDirectory (s : FileSet) (place : Location) : Bool := s.directories.contains place

/-- The files that lie directly in a directory. -/
def filesIn (s : FileSet) (place : Location) : List (String × ByteArray) :=
  s.files.filterMap fun f =>
    if f.1.dropLast = place then f.1.getLast?.map fun name => (name, f.2) else none

/-- Takes one step after the other from a place; only from a directory is there one. -/
def walk (s : FileSet) (place : Location) : List String → Option Location
  | [] => some place
  | name :: rest => if s.isDirectory place then s.walk (place.step name) rest else none

/-- What is found under a path; one that starts with a slash starts at the top. -/
def find? (s : FileSet) (path : String) : Option Entry :=
  match s.walk (if path.toList.head? = some '/' then .top else .start) (pathSteps path) with
  | none => none
  | some place =>
    match s.content? place with
    | some content => some (.file content)
    | none => if s.isDirectory place then some (.directory (s.filesIn place)) else none

end FileSet

end CardEffects
