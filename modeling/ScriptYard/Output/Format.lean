import ScriptYard.Document.Node
import ScriptYard.Files.Tree
import ScriptYard.Json.Writer
import ScriptYard.Text
import ScriptYard.Yaml.Writer

/-!
# Formats of output

What the program shows (reports, statuses, lists) is a value written in one of three formats:
JSON on one line, JSON on indented lines, or YAML. `OutputFormat.ofText?` takes the names that a
command line may use, in any case and with the short name of YAML; a document names a format
exactly as `OutputFormat.name` writes it.
-/

namespace ScriptYard

inductive OutputFormat where
  /-- JSON on one line. -/
  | json
  /-- JSON on indented lines. -/
  | pretty
  /-- YAML. -/
  | yaml
deriving DecidableEq, Repr, Inhabited

/-- Why output fails. -/
inductive OutputError where
  /-- No format has this name. -/
  | unknownFormat (format : String)
  /-- A destination cannot be written to. -/
  | write (message : String)
  /-- Writing ends before all is written. -/
  | interrupted (fault : FileFault)
deriving DecidableEq, Repr

/-- The text of the error. -/
def OutputError.message : OutputError → String
  | .unknownFormat format => "Unknown output format: " ++ format
  | .write message => "Write error: " ++ message
  | .interrupted fault => "IO error: " ++ fault.message

/-- A text with its ASCII capitals made small. -/
def lowerText (text : String) : String := String.ofList (text.toList.map Char.toLower)

namespace OutputFormat

def name : OutputFormat → String
  | .json => "json"
  | .pretty => "pretty"
  | .yaml => "yaml"

/-- The format of an exact name. -/
def ofName? : String → Option OutputFormat
  | "json" => some .json
  | "pretty" => some .pretty
  | "yaml" => some .yaml
  | _ => none

/-- The format that a text asks for, in capitals or not. -/
def ofText (text : String) : Except OutputError OutputFormat :=
  match lowerText text with
  | "yml" => .ok .yaml
  | small => match ofName? small with
    | some f => .ok f
    | none => .error (.unknownFormat small)

/-- The text of a value. -/
def render (f : OutputFormat) (v : Value) : String :=
  match f with
  | .json => Json.compact v
  | .pretty => Json.pretty v
  | .yaml => trimBlanksEnd (Yaml.write v)

end OutputFormat

end ScriptYard
