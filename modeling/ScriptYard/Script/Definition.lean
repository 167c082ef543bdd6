import ScriptYard.Document.Node
import ScriptYard.Json.Reader
import ScriptYard.Script.ActionDocument
import ScriptYard.Script.Variables
import ScriptYard.Text

/-!
# Scripts and libraries

A script has an id, a sequence of actions, the variables it starts with and what the queues need
to know about it. A library is a list of groups and a list of scripts. Ids have to hold more than
blanks, and no two groups and no two scripts of a library share one; `ScriptLibrary.flaw?` names
the first thing that offends against this.

The shapes in which documents give them (`ScriptDefinition.shape`, …) say which fields there are,
in which order an array lists them and which of them are required.
-/

namespace ScriptYard

/-- A script as a document defines it. -/
structure ScriptDefinition where
  /-- The id, by which other parts of a library refer to the script. -/
  id : String := ""
  /-- The name to show. -/
  name : String := ""
  /-- What the script is for. -/
  description : Option String := none
  /-- The group it is queued in when a library starts it. -/
  group : Option String := none
  /-- The priority in its queue. -/
  priority : Option Int := none
  /-- How often a failed run is repeated. -/
  maxRetries : Option Nat := none
  /-- The script that is queued when a run of this one stalls. -/
  exceptionScript : Option String := none
  /-- Whether serving the library queues the script. -/
  autostart : Bool := false
  /-- The variables at the start. -/
  vars : Variables := []
  actions : List Action := []
deriving Repr, Inhabited

/-- A group of a library. -/
structure GroupDefinition where
  /-- The id, by which scripts refer to the group. -/
  id : String := ""
  /-- The name to show. -/
  name : String := ""
  /-- Whether tasks of the group are started. -/
  enabled : Bool := true
  /-- The script that is queued when a run in the group stalls. -/
  exceptionScript : Option String := none
deriving DecidableEq, Repr, Inhabited

/-- Groups and scripts. -/
structure ScriptLibrary where
  groups : List GroupDefinition := []
  scripts : List ScriptDefinition := []
deriving Repr, Inhabited

/-! ### Names and views -/

namespace ScriptDefinition

/-- The name to show: the id where the name is blank. -/
def displayName (s : ScriptDefinition) : String := if isBlankText s.name then s.id else s.name

/-- The greatest height of the actions. -/
def maxDepth (s : ScriptDefinition) : Nat := Action.depthOfList s.actions

end ScriptDefinition

namespace GroupDefinition

/-- The name to show: the id where the name is blank. -/
def displayName (g : GroupDefinition) : String := if isBlankText g.name then g.id else g.name

end GroupDefinition

namespace ScriptLibrary

def script? (l : ScriptLibrary) (id : String) : Option ScriptDefinition :=
  l.scripts.find? (fun s => s.id == id)

def group? (l : ScriptLibrary) (id : String) : Option GroupDefinition :=
  l.groups.find? (fun g => g.id == id)

/-- The scripts that serving the library queues. -/
def autostartScripts (l : ScriptLibrary) : List ScriptDefinition := l.scripts.filter (·.autostart)

end ScriptLibrary

/-! ### Shapes in documents -/

def RecordField.text {σ : Type} (name : String) (required : Bool) (set : String → σ → σ) :
    RecordField σ :=
  ⟨name, required, fun _ n r => do return set (← n.readText) r⟩

/-- A text field that may be null. -/
def RecordField.optionalText {σ : Type} (name : String) (set : Option String → σ → σ) :
    RecordField σ :=
  ⟨name, false, fun _ n r => do return set (← n.readOptional Node.readText) r⟩

/-- A field that is true or false. -/
def RecordField.bool {σ : Type} (name : String) (set : Bool → σ → σ) : RecordField σ :=
  ⟨name, false, fun _ n r => do return set (← n.readBool) r⟩

def Node.readAction (src : Source) (n : Node) : Reading Action := do
  Action.ofValue (← n.readValue src)

namespace ScriptDefinition

/-- The fields of a script in a document. -/
def shape : RecordShape ScriptDefinition where
  blank := {}
  fields := [
    .text "id" true (fun v s => { s with id := v }),
    .text "name" false (fun v s => { s with name := v }),
    .optionalText "description" (fun v s => { s with description := v }),
    .optionalText "group" (fun v s => { s with group := v }),
    ⟨"priority", false, fun _ n s => do
      return { s with priority := ← n.readOptional (Node.readInt (-(twoTo 63)) (twoTo 63 - 1)) }⟩,
    ⟨"max_retries", false, fun _ n s => do
      return { s with maxRetries := ← n.readOptional (Node.readNat 32) }⟩,
    .optionalText "exception_script" (fun v s => { s with exceptionScript := v }),
    .bool "autostart" (fun v s => { s with autostart := v }),
    ⟨"variables", false, fun src n s => do return { s with vars := ← n.readFields src }⟩,
    ⟨"actions", false, fun src n s => do
      return { s with actions := ← Node.readList Node.readAction src n }⟩]

/-- The object that a document writes for a script. -/
def toDocument (s : ScriptDefinition) : Value :=
  .object ([("id", .string s.id), ("name", .string s.name)] ++
    Action.optionalField "description" s.description ++ Action.optionalField "group" s.group ++
    (match s.priority with | some p => [("priority", .int p)] | none => []) ++
    (match s.maxRetries with | some n => [("max_retries", .nat n)] | none => []) ++
    Action.optionalField "exception_script" s.exceptionScript ++
    [("autostart", .bool s.autostart), ("variables", .object s.vars),
      ("actions", .array (Action.listToDocument s.actions))])

/-- The value of a script, fields in key order. -/
def toValue (s : ScriptDefinition) : Value := s.toDocument.sorted

end ScriptDefinition

namespace GroupDefinition

/-- The fields of a group in a document. -/
def shape : RecordShape GroupDefinition where
  blank := {}
  fields := [
    .text "id" true (fun v g => { g with id := v }),
    .text "name" false (fun v g => { g with name := v }),
    .bool "enabled" (fun v g => { g with enabled := v }),
    .optionalText "exception_script" (fun v g => { g with exceptionScript := v })]

/-- The object that a document writes for a group. -/
def toDocument (g : GroupDefinition) : Value :=
  .object ([("id", .string g.id), ("name", .string g.name), ("enabled", .bool g.enabled)] ++
    Action.optionalField "exception_script" g.exceptionScript)

end GroupDefinition

namespace ScriptLibrary

/-- The fields of a library in a document. -/
def shape : RecordShape ScriptLibrary where
  blank := {}
  fields := [
    ⟨"groups", false, fun src n l => do
      return { l with groups := ← Node.readList GroupDefinition.shape.read src n }⟩,
    ⟨"scripts", false, fun src n l => do
      return { l with scripts := ← Node.readList ScriptDefinition.shape.read src n }⟩]

/-- The value of a library, fields in key order. -/
def toValue (l : ScriptLibrary) : Value :=
  (Value.object [("groups", .array (l.groups.map GroupDefinition.toDocument)),
    ("scripts", .array (l.scripts.map ScriptDefinition.toDocument))]).sorted

end ScriptLibrary

/-! ### Flaws of structure -/

/-- What makes a document unfit although it can be read. -/
inductive StructureFlaw where
  /-- An id is blank; the text says whose. -/
  | missingId (place : String)
  /-- Two groups of a library share an id. -/
  | duplicateGroup (group : String)
  /-- Two scripts of a library share an id. -/
  | duplicateScript (script : String)
deriving DecidableEq, Repr

namespace ScriptDefinition

/-- The flaw of a script, if it has one. -/
def flaw? (s : ScriptDefinition) : Option StructureFlaw :=
  if isBlankText s.id then some (.missingId "id") else none

end ScriptDefinition

namespace ScriptLibrary

/-- The first flaw among groups of which those with the ids `seen` come before. -/
def groupFlaw? (seen : List String) : List GroupDefinition → Option StructureFlaw
  | [] => none
  | g :: rest =>
    if isBlankText g.id then some (.missingId "groups[].id")
    else if seen.contains g.id then some (.duplicateGroup g.id)
    else groupFlaw? (g.id :: seen) rest

/-- The first flaw among scripts of which those with the ids `seen` come before. -/
def scriptFlaw? (seen : List String) : List ScriptDefinition → Option StructureFlaw
  | [] => none
  | s :: rest =>
    match s.flaw? with
    | some flaw => some flaw
    | none =>
      if seen.contains s.id then some (.duplicateScript s.id) else scriptFlaw? (s.id :: seen) rest

/-- The first flaw of a library; groups are looked at before scripts. -/
def flaw? (l : ScriptLibrary) : Option StructureFlaw :=
  (groupFlaw? [] l.groups).or (scriptFlaw? [] l.scripts)

end ScriptLibrary

end ScriptYard
