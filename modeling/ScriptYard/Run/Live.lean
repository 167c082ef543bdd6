import ScriptYard.Run.Context
import ScriptYard.Run.Interpreter

/-!
# Live runs

A `TrackedRun` is what others may see of a run: who it is, and what it keeps. While it is live it can
be listed, cancelled, and found to have stalled. `TrackedRun.stall?` is the one rule for the last:
a live run that nobody has cancelled yet and that has made no progress for longer than a threshold.
-/

namespace ScriptYard

/-- Who a run is. -/
structure RunInfo where
  id : String
  /-- The id of the task, for a run out of a queue. -/
  task : Option String := none
  group : String
  /-- The name of the script. -/
  script : String
  /-- The script that is queued when the run stalls. -/
  exceptionScript : Option String := none
  /-- When the run was created. -/
  createdAt : Instant := .ofMillis 0
deriving DecidableEq, Repr, Inhabited

def RunInfo.report (i : RunInfo) (c : RunContext) (e : RunEnd) (startedAt finishedAt : Instant) : RunReport where
  run := i.id
  task := i.task
  group := i.group
  script := i.script
  state := e.state
  startedAt := startedAt
  finishedAt := finishedAt
  actionsExecuted := e.executed
  result := e.result
  error := e.failure.map (·.error)
  failureKind := e.failure.map (·.kind)
  vars := c.vars

/-- What others may see of a run. -/
structure TrackedRun where
  /-- Who it is. -/
  info : RunInfo
  /-- What it keeps. -/
  context : RunContext
  /-- Whether it is under way. -/
  live : Bool
deriving DecidableEq, Repr, Inhabited

/-- A run that has stalled. -/
structure Stall where
  /-- Who it is. -/
  run : RunInfo
  /-- The time since its last progress. -/
  idle : Span
deriving DecidableEq, Repr

namespace TrackedRun

/-- The run cancelled, if it is live and has a property. -/
def cancelIf (p : RunInfo → Bool) (r : TrackedRun) : TrackedRun :=
  if r.live && p r.info then { r with context := r.context.cancel } else r

/-- The run as stalled, if it is: live, not cancelled, and without progress for longer than the
threshold. -/
def stall? (threshold : Span) (now : Moment) (r : TrackedRun) : Option Stall :=
  if r.live && !r.context.cancelled && threshold < r.context.idle now then
    some ⟨r.info, r.context.idle now⟩
  else none

end TrackedRun

/-! ### Tables of runs -/

/-- Runs, live and ended, in the order in which they were registered. -/
abbrev RunTable : Type := List TrackedRun

namespace RunTable

def live (t : RunTable) : List TrackedRun := t.filter (·.live)

/-- The table after the run of an id ended. -/
def drop (t : RunTable) (id : String) : RunTable :=
  t.map fun r => if r.info.id == id then { r with live := false } else r

/-- The table with a live run, in the place of any other run of its id. -/
def register (t : RunTable) (info : RunInfo) (c : RunContext) : RunTable :=
  t.filter (fun r => r.info.id != info.id) ++ [⟨info, c, true⟩]

/-- The table with progress noted for the run of an id. -/
def touch (t : RunTable) (id : String) (now : Moment) : RunTable :=
  t.map fun r => if r.info.id == id then { r with context := { r.context with lastActivity := now } } else r

def contains (t : RunTable) (id : String) : Bool := t.live.any (·.info.id == id)

/-- The table with the live runs that have a property cancelled, and how many they are. -/
def cancelWhere (t : RunTable) (p : RunInfo → Bool) : Nat × RunTable :=
  ((t.live.filter (fun r => p r.info)).length, t.map (TrackedRun.cancelIf p))

/-- The runs that have stalled. -/
def stalled (t : RunTable) (threshold : Span) (now : Moment) : List Stall :=
  t.filterMap (TrackedRun.stall? threshold now)

/-- The live runs, the first created first. -/
def byCreation (t : RunTable) : List TrackedRun :=
  t.live.mergeSort (fun a b => a.info.createdAt ≤ b.info.createdAt)

/-- Looks for stalled runs and cancels them. The answer names them. -/
def sweep (t : RunTable) (threshold : Span) (now : Moment) : List Stall × RunTable :=
  let stalls := t.stalled threshold now
  (stalls, (t.cancelWhere fun i => stalls.any (·.run.id == i.id)).2)

end RunTable

end ScriptYard
