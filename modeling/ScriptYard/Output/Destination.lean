import ScriptYard.Document.Variant
import ScriptYard.Files.Tree
import ScriptYard.Output.Format
import ScriptYard.Script.Definition

/-!
# Destinations of output

Output goes to the standard output, unless that is to stay quiet, or to a file, which is written
anew or continued by a line. `OutputSettings.emit` says what both look like afterwards, as a
`Terminal`: the files, and the text on the standard output.
-/

namespace ScriptYard

/-- Where output goes. -/
inductive OutputDestination where
  /-- The standard output, or nowhere. -/
  | stdout (quiet : Bool)
  | file (path : String) (createDirs append : Bool)
deriving DecidableEq, Repr, Inhabited

namespace OutputDestination

/-- The kinds of destination in a document. -/
def variants : List (Variant OutputDestination) :=
  [⟨"stdout", .stdout false, [⟨"quiet", false, fun c _ => do return .stdout (← c.readBool)⟩]⟩,
    ⟨"file", .file "" true false, [
      ⟨"path", true, fun c d => do
        let path ← c.readText
        return match d with | .file _ c a => .file path c a | d => d⟩,
      ⟨"create_dirs", false, fun c d => do
        let createDirs ← c.readBool
        return match d with | .file p _ a => .file p createDirs a | d => d⟩,
      ⟨"append", false, fun c d => do
        let append ← c.readBool
        return match d with | .file p c _ => .file p c append | d => d⟩]⟩]

/-- The destination at a node of a document. -/
def ofNode (src : Source) (n : Node) : Reading OutputDestination :=
  Variant.read "type" variants src n

/-- The destination that a value stands for. -/
def ofValue (v : Value) : Except ReadError OutputDestination :=
  (ofNode (.value v) (Node.ofValue v)).answer 0

/-- The object of a destination. -/
def toValue : OutputDestination → Value
  | .stdout quiet => .object [("quiet", .bool quiet), ("type", .string "stdout")]
  | .file path createDirs append => .object [("append", .bool append), ("create_dirs", .bool createDirs),
      ("path", .string path), ("type", .string "file")]

end OutputDestination

/-- How output is written and where it goes. -/
structure OutputSettings where
  format : OutputFormat := .pretty
  destination : OutputDestination := .stdout false
deriving DecidableEq, Repr, Inhabited

/-- The files in reach and the text on the standard output. -/
structure Terminal where
  files : FileTree := {}
  /-- The text on the standard output. -/
  shown : String := ""
deriving DecidableEq, Repr, Inhabited

/-- The terminal with one more line shown. -/
def Terminal.print (t : Terminal) (line : String) : Terminal := { t with shown := t.shown ++ line ++ "\n" }

namespace OutputSettings

/-- The fields of the settings in a document. -/
def shape : RecordShape OutputSettings where
  blank := {}
  fields := [
    ⟨"format", false, fun _ n s => do return { s with format := ← n.readChoice OutputFormat.ofName? }⟩,
    ⟨"destination", false, fun src n s => do
      return { s with destination := ← OutputDestination.ofNode src n }⟩]

/-- The object of the settings. -/
def toValue (s : OutputSettings) : Value :=
  .object [("destination", s.destination.toValue), ("format", .string s.format.name)]

/-- Writes a text to a file, after the directories on the way to it where that is asked for. -/
def writeFile (t : Terminal) (path : String) (createDirs append : Bool) (text : String) :
    Except OutputError Terminal := do
  let files ← match (FileTree.parentPath? path).filter (fun parent => createDirs && !parent.isEmpty) with
    | none => pure t.files
    | some parent => match t.files.makeDirectories parent with
      | .ok files => pure files
      | .error e => throw (.write ("Failed to create directory " ++ parent ++ ": " ++ e.message))
  if append then
    match files.appendBytes path (FileTree.bytesOf (text ++ "\n")) with
    | .ok files => return { t with files := files }
    -- this fault comes when the file is open already
    | .error .noSpace => throw (.interrupted .noSpace)
    | .error e => throw (.write ("Failed to open file for append " ++ path ++ ": " ++ e.message))
  else
    match files.write path text with
    | .ok files => return { t with files := files }
    | .error e => throw (.write ("Failed to write file " ++ path ++ ": " ++ e.message))

/-- Writes a value to the destination. -/
def emit (s : OutputSettings) (t : Terminal) (v : Value) : Except OutputError Terminal :=
  let text := s.format.render v
  match s.destination with
  | .stdout true => .ok t
  | .stdout false => .ok (t.print text)
  | .file path createDirs append => writeFile t path createDirs append text

end OutputSettings

end ScriptYard
