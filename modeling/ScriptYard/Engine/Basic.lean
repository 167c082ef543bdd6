import ScriptYard.Engine.Settings
import ScriptYard.Engine.Watchdog
import ScriptYard.Queue.GroupQueue

/-!
# Engines

An `Engine` runs tasks in groups. It has a queue for every group, a catalog of scripts, and the runs
that it has launched and not finished. A group that is removed leaves its queue behind, unlisted, for
the run that may still be under way in it; a group of the same id that is created later has a queue
of its own.

A run is launched, begins, settles wherever it has to wait, and is finished when it has come to its
end. It is live from its beginning to its end (`EngineRun.isLive`); the runs that are launched but
have not begun are known to their queues only. Everything an engine does is one step of a value to
the next; what the clocks show is an argument of the steps that depend on it.
-/

namespace ScriptYard

/-- What the clocks show. -/
structure Clock where
  /-- The moment on the clock of runs. -/
  moment : Moment := 0
  /-- The time of day. -/
  time : Instant := .ofMillis 0
deriving DecidableEq, Repr, Inhabited

/-- The result of a process, if it is at its end. -/
def Process.end? {α : Type} : Process α → Option α
  | .done a => some a
  | _ => none

/-- The queue of a group, in an engine. -/
structure HostedQueue where
  queue : GroupQueue
  /-- Whether its group exists; it is false for the queue of a group that was removed. -/
  listed : Bool := true
deriving Repr, Inhabited

structure EngineRun where
  /-- The number of the run. -/
  number : Nat
  /-- Who it is. -/
  info : RunInfo
  /-- The place of the queue whose task it runs; nothing for a run without a task. -/
  place : Option Nat := none
  /-- What it keeps. -/
  context : RunContext := {}
  /-- What is left to do. -/
  process : Process RunEnd
  /-- When it began, if it has. -/
  begunAt : Option Instant := none

namespace EngineRun

/-- Whether the run has begun and has not come to its end. -/
def isLive (r : EngineRun) : Bool := r.begunAt.isSome && r.process.end?.isNone

/-- What others may see of the run. -/
def tracked (r : EngineRun) : TrackedRun := ⟨r.info, r.context, r.isLive⟩

/-- The run told to stop. -/
def cancel (r : EngineRun) : EngineRun := { r with context := r.context.cancel }

end EngineRun

/-- What runs the tasks of groups. -/
structure Engine where
  /-- What was chosen. -/
  settings : EngineSettings := {}
  /-- The scripts that can be named by their ids. -/
  scripts : Fields ScriptDefinition := []
  /-- The queues, in the order in which they were created. -/
  queues : List HostedQueue := []
  /-- The runs that are not finished, in the order in which they were launched. -/
  runs : List EngineRun := []
  /-- Whether no task of any group is started. -/
  paused : Bool := false
  /-- Whether the engine looks for tasks and for stalled runs by itself. -/
  started : Bool := false
  /-- How many ids were given to tasks and runs. -/
  issued : Nat := 0
deriving Inhabited

namespace Engine

/-- The id of a number. -/
def idText (n : Nat) : String :=
  let digits := Nat.toDigits 10 n
  "00000000-0000-4000-8000-" ++ String.ofList (List.replicate (12 - digits.length) '0' ++ digits)

/-! ### Queues -/

/-- The queues of the groups that exist. -/
def listedQueues (e : Engine) : List GroupQueue := (e.queues.filter (·.listed)).map (·.queue)

/-- The place of the queue of a group. -/
def place? (e : Engine) (group : String) : Option Nat :=
  e.queues.findIdx? fun h => h.listed && h.queue.id == group

def queue? (e : Engine) (group : String) : Option GroupQueue :=
  e.listedQueues.find? (·.id == group)

/-- The queue of a group, which has to exist. -/
def queue (e : Engine) (group : String) : Except EngineError GroupQueue :=
  match e.queue? group with
  | some q => .ok q
  | none => .error (.groupNotFound group)

/-- The engine with another queue at a place. -/
def setQueue (e : Engine) (place : Nat) (q : GroupQueue) : Engine :=
  { e with queues := e.queues.modify place fun h => { h with queue := q } }

/-- The engine with the queue of a group changed, which has to exist. -/
def withQueue (e : Engine) (group : String) (f : GroupQueue → Except EngineError GroupQueue) :
    Except EngineError Engine := do
  let some place := e.place? group | throw (.groupNotFound group)
  let q ← f (← e.queue group)
  return e.setQueue place q

/-! ### Runs -/

def run? (e : Engine) (number : Nat) : Option EngineRun := e.runs.find? (·.number == number)

/-- The engine with the run of a number changed. -/
def updateRun (e : Engine) (number : Nat) (f : EngineRun → EngineRun) : Engine :=
  { e with runs := e.runs.map fun r => if r.number == number then f r else r }

/-- The engine with the runs that have a property told to stop. -/
def cancelRuns (e : Engine) (p : EngineRun → Bool) : Engine :=
  { e with runs := e.runs.map fun r => if p r then r.cancel else r }

/-- What others may see of the runs. -/
def table (e : Engine) : RunTable := e.runs.map (·.tracked)

/-- The live runs, the first created first. -/
def liveRuns (e : Engine) : List TrackedRun := e.table.byCreation

/-- Whether the run of every task that was started is finished. -/
def isDrained (e : Engine) : Bool := e.runs.all (·.place.isNone)

/-- Fires the token that the cancellation of a running task names. -/
def fire (e : Engine) : CancelOutcome → Engine
  | .requested _ (some token) => e.cancelRuns (·.number == token.number)
  | .requested _ none | .removed => e

end Engine

end ScriptYard
