import ScriptYard.Queue.RetryPolicy
import ScriptYard.Queue.Task

/-!
# Queues of groups

A `GroupQueue` holds the tasks of one group: those that wait, in the order in which they are
served, at most one that is running, and the last ones that came to an end. Tasks are served by
falling priority and, at equal priority, in the order in which they were queued; one that is not
due yet lets others pass.

Every operation answers with the queue afterwards. Those that can be refused answer with an error
or with nothing instead, so that a refusal leaves the queue as it was by its very form. To stop a
run is not the business of a queue: `GroupQueue.cancel` and `GroupQueue.attach` tell which
`CancelToken` has to be fired.
-/

namespace ScriptYard

/-- How many tasks that came to an end a queue remembers where nothing else is said. -/
def defaultHistoryLimit : Nat := 500

/-- The tasks of a group. -/
structure GroupQueue where
  /-- The id of the group. -/
  id : String
  /-- The name of the group. -/
  name : String
  /-- Whether tasks are started. -/
  enabled : Bool := true
  /-- The script that is queued when a run in the group stalls. -/
  exceptionScript : Option String := none
  /-- The tasks that wait, in the order in which they are served. -/
  pending : List Task := []
  running : Option Task := none
  /-- The tasks that came to an end, the oldest first. -/
  history : List Task := []
  /-- How many of them are remembered. -/
  historyLimit : Nat := defaultHistoryLimit
  /-- Which failed tasks are retried, and when. -/
  retryPolicy : RetryPolicy := {}
deriving Repr, Inhabited

/-- What became of a task when a run of it ended. -/
inductive Disposition where
  | completed
  /-- It waits for the retry of this number. -/
  | retrying (attempt : Nat)
  /-- It failed for good. -/
  | failed
  | cancelled
deriving DecidableEq, Repr

/-- What became of a task that was to be cancelled. -/
inductive CancelOutcome where
  /-- It was waiting, and is cancelled. -/
  | removed
  /-- It is running; its run, if it has one already, is to stop. -/
  | requested (run : Option String) (token : Option CancelToken)
deriving DecidableEq, Repr

/-- What can be seen of a queue from outside. -/
structure QueueStatus where
  /-- The id of the group. -/
  group : String
  /-- The name of the group. -/
  name : String
  /-- Whether tasks are started. -/
  enabled : Bool
  /-- How many tasks wait. -/
  queueLength : Nat
  running : Option TaskSummary
  /-- The tasks that wait. -/
  pending : List TaskSummary
  /-- The script that is queued when a run in the group stalls. -/
  exceptionScript : Option String
  /-- How many tasks that came to an end are remembered. -/
  completedCount : Nat
deriving DecidableEq, Repr

/-- The object of a status. -/
def QueueStatus.toValue (s : QueueStatus) : Value :=
  .object [("completed_count", .nat s.completedCount), ("enabled", .bool s.enabled),
    ("exception_script", .ofText? s.exceptionScript), ("group_id", .string s.group),
    ("name", .string s.name), ("pending", .array (s.pending.map (·.toValue))),
    ("queue_length", .nat s.queueLength),
    ("running", match s.running with | some t => t.toValue | none => .null)]

/-- The longest delay of a retry that is kept. -/
def longestRetryDelay : Span := .ofMillis (twoTo 63 - 1)

/-- When a task that failed may be started again. A delay beyond `longestRetryDelay` counts as
none. -/
def retryTime (now : Instant) (delay : Span) : Instant :=
  if delay ≤ longestRetryDelay then now.after delay else now

namespace GroupQueue

/-- A queue without tasks that remembers so many that came to an end, though at least one. -/
def create (id name : String) (historyLimit : Nat) (retryPolicy : RetryPolicy) : GroupQueue :=
  { id := id, name := name, historyLimit := max historyLimit 1, retryPolicy := retryPolicy }

/-! ### Places for tasks -/

/-- The list with a task behind all tasks of the same or a higher priority. -/
def insertByPriority (task : Task) : List Task → List Task
  | [] => [task]
  | t :: rest => if t.priority < task.priority then task :: t :: rest else t :: insertByPriority task rest

/-- The tasks remembered when one more comes to its end: in the place of one with the same id, or
behind the others, of which the oldest are forgotten. -/
def remember (limit : Nat) (history : List Task) (task : Task) : List Task :=
  let all := if history.any (fun t => t.id == task.id) then
      history.map (fun t => if t.id == task.id then task else t)
    else history ++ [task]
  all.drop (all.length - limit)

/-- The queue with a task that came to its end. -/
def archive (q : GroupQueue) (task : Task) : GroupQueue :=
  { q with history := remember q.historyLimit q.history task }

/-- The first task that has a property, and the list without it. -/
def takeFirst (p : Task → Bool) : List Task → Option (Task × List Task)
  | [] => none
  | t :: rest => if p t then some (t, rest) else (takeFirst p rest).map fun r => (r.1, t :: r.2)

/-! ### Operations -/

/-- Queues a task, which has to be of the queue's group. -/
def enqueue (q : GroupQueue) (task : Task) : Except EngineError GroupQueue :=
  if task.group = q.id then
    .ok { q with pending := insertByPriority { task with status := .pending } q.pending }
  else .error (.groupNotFound task.group)

/-- Starts the first task that is due, unless the queue is disabled or a task is running. -/
def dequeue (q : GroupQueue) (now : Instant) : Option (Task × GroupQueue) :=
  if q.enabled && q.running.isNone then
    (takeFirst (·.isDue now) q.pending).map fun (task, rest) =>
      let task := task.started now
      (task, { q with pending := rest, running := some task })
  else none

/-- Tells the queue of the run of the running task. The answer is true if the task was to be
cancelled before, so that the token has to be fired. -/
def attach (q : GroupQueue) (task run : String) (token : CancelToken) : Bool × GroupQueue :=
  match q.running with
  | some t =>
    if t.id = task then
      (t.cancelRequested, { q with running := some { t with run := some run, token := some token } })
    else (false, q)
  | none => (false, q)

/-- The record of a task whose run failed, as it waits for its next attempt. -/
def requeued (q : GroupQueue) (task : Task) (now : Instant) : Task :=
  let attempt := task.retryCount + 1
  { task with
    retryCount := attempt
    scheduledAt := some (retryTime now (q.retryPolicy.backoff.delay attempt))
    startedAt := none
    run := none
    token := none }

/-- Lets the running task wait for its next attempt. -/
def retry (q : GroupQueue) (task : Task) (now : Instant) : Except EngineError GroupQueue :=
  q.enqueue (q.requeued task now)

/-- Ends the running task, which has to have the id, as its run ended: it comes to its end, or waits
for a retry. A task that was to be cancelled is cancelled whatever the outcome. -/
def complete (q : GroupQueue) (task : String) (outcome : TaskOutcome) (now : Instant) :
    Except EngineError (Disposition × GroupQueue) :=
  match q.running with
  | none => .error (.taskNotFound task)
  | some t =>
    if t.id ≠ task then .error (.taskNotFound task)
    else
      let q := { q with running := none }
      let cancelled := q.archive ({ t with lastError := some "cancelled" }.ended .cancelled now)
      -- the mark decides, whatever the run came to
      if t.cancelRequested then .ok (.cancelled, cancelled)
      else match outcome with
        | .succeeded v => .ok (.completed, q.archive ({ t with result := some v }.ended .completed now))
        | .cancelled => .ok (.cancelled, cancelled)
        | .failed f =>
          let t := { t with lastError := some f.error }
          if t.retryCount < t.maxRetries && q.retryPolicy.allows f.kind then
            (q.retry t now).map fun q => (.retrying (t.retryCount + 1), q)
          else .ok (.failed, q.archive (t.ended .failed now))

/-- Whether the end of a run calls for an attempt at a time that the calendar does not have. There the
engine breaks down, with the task in none of its places, where `GroupQueue.complete` still answers. -/
def overruns (q : GroupQueue) (task : String) (outcome : TaskOutcome) (now : Instant) : Bool :=
  match q.running, outcome with
  | some t, .failed f => t.id == task && !t.cancelRequested && t.retryCount < t.maxRetries &&
      q.retryPolicy.allows f.kind &&
      !(retryTime now (q.retryPolicy.backoff.delay (t.retryCount + 1))).isOnCalendar
  | _, _ => false

/-- The record of a task that was waiting when it was cancelled. -/
def withdrawn (task : Task) (now : Instant) : Task :=
  { task with cancelRequested := true }.ended .cancelled now

/-- Cancels the running task if it has the id, unless that was asked for before. -/
def cancelRunning (q : GroupQueue) (task : String) : Option (CancelOutcome × GroupQueue) :=
  match q.running with
  | some t =>
    if t.id = task && !t.cancelRequested then
      some (.requested t.run t.token, { q with running := some { t with cancelRequested := true } })
    else none
  | none => none

/-- Cancels the task of an id, which has to be waiting or running. -/
def cancel (q : GroupQueue) (task : String) (now : Instant) : Option (CancelOutcome × GroupQueue) :=
  match takeFirst (·.id == task) q.pending with
  | some (t, rest) => some (.removed, { q with pending := rest }.archive (withdrawn t now))
  | none => q.cancelRunning task

/-- Cancels all tasks that wait, and the running one. The answer tells what became of that one. -/
def cancelAll (q : GroupQueue) (now : Instant) : Option CancelOutcome × GroupQueue :=
  let q := q.pending.foldl (fun q t => q.archive (withdrawn t now)) { q with pending := [] }
  match q.running.bind (fun t => q.cancelRunning t.id) with
  | some (outcome, q) => (some outcome, q)
  | none => (none, q)

/-! ### Views -/

/-- The task of an id: the running one, one that waits, or one that came to its end. -/
def find? (q : GroupQueue) (task : String) : Option Task :=
  ((q.running.filter (·.id == task)).or (q.pending.find? (·.id == task))).or (q.history.find? (·.id == task))

/-- Whether a task has the id. -/
def contains (q : GroupQueue) (task : String) : Bool := (q.find? task).isSome

/-- The running task, those that wait in the order in which they are served, and those that came to
an end, the last one first. -/
def tasks (q : GroupQueue) : List Task := q.running.toList ++ q.pending ++ q.history.reverse

def status (q : GroupQueue) : QueueStatus :=
  ⟨q.id, q.name, q.enabled, q.pending.length, q.running.map (·.summary), q.pending.map (·.summary),
    q.exceptionScript, q.history.length⟩

end GroupQueue

end ScriptYard
