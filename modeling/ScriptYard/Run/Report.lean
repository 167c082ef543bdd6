import ScriptYard.Document.Node
import ScriptYard.Number.Shortest
import ScriptYard.Run.Error
import ScriptYard.Script.Variables
import ScriptYard.Time.Instant

/-!
# Results and reports

An action ends with an `ActionResult`, a whole run with a `RunReport`, and what a queue learns of
the run is a `TaskOutcome`. A report is data like any other: it can be written into a document and
read back.
-/

namespace ScriptYard

/-! ### Results of actions -/

/-- How an action failed. -/
structure Failure where
  /-- The text of the error. -/
  error : String
  /-- The nature of the failure. -/
  kind : FailureKind
deriving DecidableEq, Repr, Inhabited

/-- The end of an action: what it gave, and how it failed if it did. -/
structure ActionResult where
  /-- What the action gave. -/
  data : Value
  /-- How the action failed, if it did. -/
  failure : Option Failure
deriving DecidableEq, Repr, Inhabited

namespace ActionResult

/-- A success. -/
def ok (data : Value) : ActionResult := ⟨data, none⟩

/-- The failure of an error. -/
def ofError (e : EngineError) : ActionResult := ⟨.null, some ⟨e.message, e.kind⟩⟩

/-- The failure of a run that was cancelled. -/
def cancelled : ActionResult := ofError .cancelled

/-- Whether the action succeeded. -/
def success (r : ActionResult) : Bool := r.failure.isNone

/-- Whether the action failed because the run was cancelled. -/
def isCancelled (r : ActionResult) : Bool := (r.failure.map (·.kind)) == some .cancelled

end ActionResult

/-! ### States of runs -/

/-- How far a run has come. -/
inductive RunState where
  | created
  | running
  | completed
  | failed
  | cancelled
deriving DecidableEq, Repr, Inhabited

namespace RunState

def name : RunState → String
  | .created => "created"
  | .running => "running"
  | .completed => "completed"
  | .failed => "failed"
  | .cancelled => "cancelled"

def ofName? : String → Option RunState
  | "created" => some .created
  | "running" => some .running
  | "completed" => some .completed
  | "failed" => some .failed
  | "cancelled" => some .cancelled
  | _ => none

/-- Whether the state is never left. -/
def isTerminal : RunState → Bool
  | .created | .running => false
  | .completed | .failed | .cancelled => true

end RunState

/-! ### Outcomes for queues -/

/-- What a queue learns of the run of a task. -/
inductive TaskOutcome where
  /-- It gave a value. -/
  | succeeded (result : Value)
  | failed (failure : Failure)
  | cancelled
deriving DecidableEq, Repr, Inhabited

/-! ### Reports -/

/-- The record of a run. -/
structure RunReport where
  /-- The id of the run. -/
  run : String := ""
  /-- The id of the task, for a run out of a queue. -/
  task : Option String := none
  group : String := ""
  /-- The name of the script. -/
  script : String := ""
  /-- The state reached. -/
  state : RunState := .created
  /-- When the run started. -/
  startedAt : Instant := .ofMillis 0
  /-- When the run ended. -/
  finishedAt : Instant := .ofMillis 0
  /-- How many actions of the top level were begun. -/
  actionsExecuted : Nat := 0
  /-- What the last successful action of the top level gave. -/
  result : Value := .null
  /-- The text of the error. -/
  error : Option String := none
  /-- The nature of the failure. -/
  failureKind : Option FailureKind := none
  /-- The variables at the end. -/
  vars : Variables := []
deriving DecidableEq, Repr, Inhabited

namespace RunReport

/-- Whether the run succeeded. -/
def isSuccessful (r : RunReport) : Bool := r.state == .completed

/-- How long the run took; nothing where it ended before it started. -/
def duration (r : RunReport) : Span := ⟨(r.finishedAt.nanosSince r.startedAt).toNat⟩

/-- What a queue learns of the run. -/
def outcome (r : RunReport) : TaskOutcome :=
  match r.state with
  | .completed => .succeeded r.result
  | .cancelled => .cancelled
  | _ => .failed ⟨r.error.getD "execution failed", r.failureKind.getD .transient⟩

/-- The number of actions and the error, behind the time of a summary. -/
def summaryEnd (r : RunReport) : String :=
  "s (" ++ String.ofList (Nat.toDigits 10 r.actionsExecuted) ++ " action(s))" ++
    (match r.error with | some e => ": " ++ e | none => "")

/-- The report in one line. -/
def summary (r : RunReport) : String :=
  r.script ++ " [" ++ r.group ++ "] " ++ r.state.name ++ " in " ++
    r.duration.toSeconds.fixed 2 ++ r.summaryEnd

/-! ### Documents -/

/-- The point in time that a node writes. -/
def readInstant (n : Node) : Reading Instant := do
  match Instant.read? (← n.readText) with
  | some t => return t
  | none => throw .malformed

/-- The fields of a report in a document. -/
def shape : RecordShape RunReport where
  blank := {}
  fields := [
    ⟨"execution_id", true, fun _ n r => do return { r with run := ← n.readText }⟩,
    ⟨"task_id", false, fun _ n r => do return { r with task := ← n.readOptional Node.readText }⟩,
    ⟨"group_id", true, fun _ n r => do return { r with group := ← n.readText }⟩,
    ⟨"script_name", true, fun _ n r => do return { r with script := ← n.readText }⟩,
    ⟨"state", true, fun _ n r => do return { r with state := ← n.readChoice RunState.ofName? }⟩,
    ⟨"started_at", true, fun _ n r => do return { r with startedAt := ← readInstant n }⟩,
    ⟨"finished_at", true, fun _ n r => do return { r with finishedAt := ← readInstant n }⟩,
    ⟨"actions_executed", true, fun _ n r => do return { r with actionsExecuted := ← n.readNat 64 }⟩,
    ⟨"result", true, fun src n r => do return { r with result := ← n.readValue src }⟩,
    ⟨"error", false, fun _ n r => do return { r with error := ← n.readOptional Node.readText }⟩,
    ⟨"failure_kind", false, fun _ n r => do
      return { r with failureKind := ← n.readOptional (Node.readChoice FailureKind.ofName?) }⟩,
    ⟨"variables", true, fun src n r => do return { r with vars := ← n.readFields src }⟩]

/-- The object of a report. -/
def toValue (r : RunReport) : Value :=
  .object [("actions_executed", .nat r.actionsExecuted), ("error", Value.ofText? r.error),
    ("execution_id", .string r.run), ("failure_kind", Value.ofText? (r.failureKind.map (·.name))),
    ("finished_at", .string r.finishedAt.format), ("group_id", .string r.group), ("result", r.result),
    ("script_name", .string r.script), ("started_at", .string r.startedAt.format),
    ("state", .string r.state.name), ("task_id", Value.ofText? r.task), ("variables", .object r.vars)]

end RunReport

end ScriptYard
