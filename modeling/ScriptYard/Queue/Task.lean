import ScriptYard.Run.Report
import ScriptYard.Script.Definition

/-!
# Tasks

A `Task` asks for a run of a sequence of actions in a group. It is pending until a run of it is
begun, running until the run ends, and then either pending again, for a retry, or at an end:
completed, failed or cancelled. The record remembers all of this: when the task was created, when
it may run, when it started and ended, the last error, the result, and how often it was retried.

While a task is running it may hold the id of its run and the `CancelToken` by which the run can be
told to stop.
-/

namespace ScriptYard

/-- What tells one run to stop, by its number. -/
structure CancelToken where
  number : Nat
deriving DecidableEq, Repr, Inhabited

/-- Where a task is in its life. -/
inductive TaskStatus where
  | pending
  | running
  | completed
  | failed
  | cancelled
deriving DecidableEq, Repr, Inhabited

namespace TaskStatus

def name : TaskStatus → String
  | .pending => "pending"
  | .running => "running"
  | .completed => "completed"
  | .failed => "failed"
  | .cancelled => "cancelled"

/-- Whether the status is never left. -/
def isTerminal : TaskStatus → Bool
  | .pending | .running => false
  | .completed | .failed | .cancelled => true

end TaskStatus

/-- How often a task is retried that does not say so itself. -/
def defaultMaxRetries : Nat := 3

/-- A request for a run of actions in a group. -/
structure Task where
  id : String
  group : String
  /-- The name of the script. -/
  script : String
  scriptId : Option String := none
  actions : List Action := []
  /-- The variables at the start of every run. -/
  vars : Variables := []
  /-- The script that is queued when a run of the task stalls. -/
  exceptionScript : Option String := none
  /-- Whether the task was itself queued because a run stalled. -/
  isExceptionHandler : Bool := false
  /-- Tasks of a higher priority are started first. -/
  priority : Int := 0
  /-- Where the task is in its life. -/
  status : TaskStatus := .pending
  /-- When the task was created. -/
  createdAt : Instant
  /-- The time before which the task is not started. -/
  scheduledAt : Option Instant := none
  /-- When the last run was started. -/
  startedAt : Option Instant := none
  /-- When the task came to its end. -/
  completedAt : Option Instant := none
  /-- The error of the last run that had one. -/
  lastError : Option String := none
  /-- What the successful run gave. -/
  result : Option Value := none
  /-- How often the task was retried. -/
  retryCount : Nat := 0
  /-- How often the task may be retried. -/
  maxRetries : Nat := defaultMaxRetries
  /-- The id of the run of the task. -/
  run : Option String := none
  /-- Whether somebody asked for the end of the task. -/
  cancelRequested : Bool := false
  /-- What tells the run of the task to stop. -/
  token : Option CancelToken := none
deriving Repr, Inhabited

namespace Task

/-- Whether the task may be started at a time. -/
def isDue (t : Task) (now : Instant) : Bool :=
  t.status == .pending && match t.scheduledAt with
    | some time => decide (time ≤ now)
    | none => true

/-- The task when a run of it is started. -/
def started (t : Task) (now : Instant) : Task :=
  { t with status := .running, startedAt := some now, completedAt := none }

/-- The task when it comes to its end. -/
def ended (t : Task) (status : TaskStatus) (now : Instant) : Task :=
  { t with status := status, completedAt := some now }

/-- A time or null. -/
private def timeValue (t : Option Instant) : Value := .ofText? (t.map (·.format))

/-- The object of the record of a task. -/
def toValue (t : Task) : Value :=
  .object ([("cancel_requested", .bool t.cancelRequested), ("completed_at", timeValue t.completedAt),
    ("created_at", .string t.createdAt.format), ("error", .ofText? t.lastError),
    ("execution_id", .ofText? t.run), ("group_id", .string t.group), ("id", .string t.id),
    ("max_retries", .nat t.maxRetries), ("priority", .int t.priority), ("result", t.result.getD .null),
    ("retry_count", .nat t.retryCount), ("scheduled_at", timeValue t.scheduledAt)] ++
    Action.optionalField "script_id" t.scriptId ++
    [("script_name", .string t.script), ("started_at", timeValue t.startedAt),
      ("status", .string t.status.name)])

end Task

/-- What the status of a queue shows of a task. -/
structure TaskSummary where
  id : String
  /-- The name of the script. -/
  script : String
  priority : Int
  /-- Where the task is in its life. -/
  status : TaskStatus
  /-- How often the task was retried. -/
  retryCount : Nat
deriving DecidableEq, Repr, Inhabited

def Task.summary (t : Task) : TaskSummary := ⟨t.id, t.script, t.priority, t.status, t.retryCount⟩

/-- The object of a summary. -/
def TaskSummary.toValue (t : TaskSummary) : Value :=
  .object [("id", .string t.id), ("priority", .int t.priority), ("retry_count", .nat t.retryCount),
    ("script_name", .string t.script), ("status", .string t.status.name)]

end ScriptYard
