import ScriptYard.Files.Tree
import ScriptYard.Script.Definition
import ScriptYard.Yaml.Tree

/-!
# Scripts and libraries in files

A script or library is a text in JSON or YAML (`DocumentFormat`); in a file the extension tells
which. A script may not be empty text, while an empty library has no groups and no scripts. After
the reading the structure is checked (`ScriptDefinition.flaw?`, `ScriptLibrary.flaw?`).
-/

namespace ScriptYard

/-- The notation of a document. -/
inductive DocumentFormat where
  | yaml
  | json
deriving DecidableEq, Repr

/-- Why a script or library cannot be had. -/
inductive ScriptError where
  /-- The file cannot be read; the text says why. -/
  | file (reason : String)
  /-- The YAML text cannot be read. -/
  | yaml (cause : ReadError)
  /-- The JSON text cannot be read. -/
  | json (cause : ReadError)
  /-- There is no text. -/
  | emptyDocument
  /-- The document can be read but is unfit. -/
  | structure (flaw : StructureFlaw)
deriving DecidableEq, Repr

/-- The text of a flaw of structure. -/
def StructureFlaw.message : StructureFlaw → String
  | .missingId place => "Missing required field: " ++ place
  | .duplicateGroup group => "Validation failed: Duplicate group id: " ++ group
  | .duplicateScript script => "Validation failed: Duplicate script id: " ++ script

/-- The text of the error. -/
def ScriptError.message : ScriptError → String
  | .file reason => "Failed to read script file: " ++ reason
  | .yaml cause => "Failed to parse YAML: " ++ cause.message
  | .json cause => "Failed to parse JSON: " ++ cause.message
  | .emptyDocument => "Invalid script format: document is empty"
  | .structure flaw => flaw.message

namespace DocumentFormat

/-- The parts of a path between its slashes, without those that say nothing: empty ones, and single
dots behind the first part. -/
def pathParts (path : String) : List String :=
  match path.splitOn "/" with
  | [] => []
  | first :: rest => (first :: rest.filter (· != ".")).filter (· != "")

/-- The extension of a path: what stands behind the last dot of its last part, unless the part
starts with its only dot or leads upwards. -/
def extension? (path : String) : Option String :=
  match (pathParts path).getLast? with
  | some name =>
    if name == ".." then none
    else
      let reversed := name.toList.reverse
      let ending := reversed.takeWhile (· != '.')
      if ending.length + 1 < reversed.length then some (String.ofList ending.reverse) else none
  | none => none

/-- The notation of the document in a file: JSON by its extension, else YAML. -/
def ofPath (path : String) : DocumentFormat :=
  match extension? path with
  | some e => if e.toList.map Char.toLower == "json".toList then .json else .yaml
  | none => .yaml

/-- Reads the contents of a text, of which the notation decides how. -/
def read {α : Type} (f : DocumentFormat) (text : String) (shape : RecordShape α) :
    Except ScriptError α :=
  match f with
  | .yaml => match (Yaml.readDocument text).read (shape.read .yaml) with
    | .ok a => .ok a
    | .error e => .error (.yaml e)
  | .json => match (Json.readDocument text).read (shape.read .json) with
    | .ok a => .ok a
    | .error e => .error (.json e)

end DocumentFormat

def ScriptDefinition.parse (f : DocumentFormat) (text : String) : Except ScriptError ScriptDefinition := do
  if isBlankText text then throw .emptyDocument
  let s ← f.read text ScriptDefinition.shape
  match s.flaw? with
  | some flaw => throw (.structure flaw)
  | none => return s

def ScriptLibrary.parse (f : DocumentFormat) (text : String) : Except ScriptError ScriptLibrary := do
  let l ← f.read text ScriptLibrary.shape
  match l.flaw? with
  | some flaw => throw (.structure flaw)
  | none => return l

/-- What a parser of documents makes of the file at a path. -/
def FileTree.parse {α : Type} (files : FileTree) (path : String)
    (parse : DocumentFormat → String → Except ScriptError α) : Except ScriptError α :=
  match files.readText path with
  | .ok text => parse (.ofPath path) text
  | .error fault => .error (.file fault.message)

def ScriptDefinition.ofFile (files : FileTree) (path : String) : Except ScriptError ScriptDefinition :=
  files.parse path ScriptDefinition.parse

def ScriptLibrary.ofFile (files : FileTree) (path : String) : Except ScriptError ScriptLibrary :=
  files.parse path ScriptLibrary.parse

end ScriptYard
