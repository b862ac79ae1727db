/-
  CardEffects.Load

  Loading settings and cards from files.  Missing settings are the standard ones.  Cards come
  from one file, or from the files of a directory whose extension is `json`, in the order of
  their names; the first file that cannot be read decides the error.
-/
import CardEffects.FileSet
import CardEffects.Json.Reader
import CardEffects.Wire.Card
import CardEffects.Wire.Config

namespace CardEffects

/-! ## Failures -/

/-- Why nothing could be loaded. -/
inductive LoadError where
  | notFound (path : String)
  /-- The file cannot be read, or is no text. -/
  | unreadable (path : String)
  /-- The text is not what is wanted. -/
  | malformed (path : String)
  /-- The settings have a fault. -/
  | invalid (path : String) (fault : EngineError)
  deriving DecidableEq, Repr

/-- The message for a failure. -/
def LoadError.message : LoadError → String
  | notFound path => "corpus not found: " ++ path
  | unreadable path => "read " ++ path
  | malformed path => "parse " ++ path
  | invalid path _ => "validate " ++ path

/-! ## One file -/

/-- Decodes the text of a file. -/
def decodeFile {α : Type} (decode : Json → Option α) (path : String) (content : ByteArray) :
    Except LoadError α :=
  match String.fromUTF8? content with
  | none => .error (.unreadable path)
  | some text =>
    match (Json.parse text).bind decode with
    | none => .error (.malformed path)
    | some value => .ok value

/-- Decodes a list of cards. -/
def loadCards (path : String) (content : ByteArray) : Except LoadError (List Card) :=
  decodeFile (Json.list? Card.ofJson?) path content

/-! ## Settings -/

/-- The settings found under a path, whether or not they have a fault. -/
def readConfig (path : String) : Option Entry → Except LoadError Config
  | none => .ok .standard
  | some (.directory _) => .error (.unreadable path)
  | some (.file content) => decodeFile Config.ofJson? path content

/-- The settings found under a path, checked. -/
def loadConfig (path : String) (found : Option Entry) : Except LoadError Config :=
  match readConfig path found with
  | .error e => .error e
  | .ok config =>
    match config.validate with
    | .error fault => .error (.invalid path fault)
    | .ok config => .ok config

/-! ## Cards -/

/-- The extension of card files, with its point. -/
def cardExtension : List Char := ".json".toList

/-- Whether a name has the extension of card files; a name that is nothing else has none. -/
def isCardFile (name : String) : Bool :=
  cardExtension.isSuffixOf name.toList && cardExtension.length < name.length

/-- The path of a file in a directory. -/
def childPath (path name : String) : String :=
  if path = "" ∨ path.toList.getLast? = some '/' then path ++ name else path ++ "/" ++ name

/-- The card files of a directory, in the order of their names. -/
def cardFiles (files : List (String × ByteArray)) : List (String × ByteArray) :=
  (files.filter fun f => isCardFile f.1).mergeSort fun a b => a.1 ≤ b.1

/-- The cards of several files of a directory, one file after the other. -/
def loadAll (path : String) : List (String × ByteArray) → Except LoadError (List Card)
  | [] => .ok []
  | (name, content) :: rest =>
    match loadCards (childPath path name) content with
    | .error e => .error e
    | .ok cards =>
      match loadAll path rest with
      | .error e => .error e
      | .ok more => .ok (cards ++ more)

/-- The cards found under a path. -/
def loadCorpus (path : String) : Option Entry → Except LoadError (List Card)
  | none => .error (.notFound path)
  | some (.file content) => loadCards path content
  | some (.directory files) => loadAll path (cardFiles files)

end CardEffects
