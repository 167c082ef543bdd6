import Mathlib.Logic.Function.Basic
import ScriptYard.Engine.Groups
import ScriptYard.Engine.Runs
import ScriptYard.Proofs.Queue.Events
import ScriptYard.Proofs.Run.Guarded

/-!
# Engines in small steps

The operations of an `Engine` do several things at once where the scheduler, the runs and whoever uses
the engine go on side by side: a pass over the groups gives out a task and launches it, a run goes on up
to where it settles, the removal of a group cancels its tasks and stops its runs. A `Yard` is an engine
in which all of this may be interleaved. Between two steps there may be tasks that were given out and are
not launched yet (`Yard.handed`).

A `Move` is a step that nothing can divide: one operation of one queue under its lock, one step of one
run (`Process.advance`), the reply to a call, the launch of a task, the end of a run. Moves name queues by
their places, so that they reach the queue of a group that was removed as well as any other; a scheduler
or a user that looked the queue up before it was removed still does. What happens in a move is written
down in `Yard.log`. Every list of moves is a run (`Yard.run`); a move that is not possible does nothing.
-/

namespace ScriptYard

namespace Engine

/-- The queue at a place, whether its group still exists or not. -/
def queueAt (e : Engine) (place : ℕ) : Option GroupQueue := e.queues[place]?.map (·.queue)

/-- The engine with the runs told to stop whose tokens were fired. -/
def stopFired (e : Engine) (evs : List Event) : Engine :=
  e.cancelRuns fun r => decide (.fired ⟨r.number⟩ ∈ evs)

/-- The engine in which the group of the queue at a place no longer exists. -/
def unlist (e : Engine) (place : ℕ) : Engine :=
  { e with queues := e.queues.modify place fun h => { h with listed := false } }

end Engine

/-- A task as it is submitted under an id: nothing has happened to it yet. -/
def Task.fresh (draft : Task) (id : String) : Task :=
  { draft with
    id := id
    status := .pending
    startedAt := none
    completedAt := none
    lastError := none
    result := none
    retryCount := 0
    run := none
    cancelRequested := false
    token := none }

/-- An engine and what is under way in it. -/
structure Yard where
  engine : Engine
  /-- The tasks that were given out and are not launched yet, with the places of their queues. -/
  handed : List (ℕ × Task) := []
  /-- What happened, in the order of time. -/
  log : List Event := []

/-- A step of an engine that nothing can divide. -/
inductive Move where
  | createGroup (id name : String)
  /-- The group of the queue at a place is taken out of those that exist. -/
  | unlist (place : ℕ)
  /-- Tasks of a queue are started or not. -/
  | setEnabled (place : ℕ) (enabled : Bool)
  /-- The script for the runs of a queue that stall is chosen. -/
  | setExceptionScript (place : ℕ) (script : Option String)
  /-- A task is submitted to a queue. -/
  | submit (place : ℕ) (draft : Task)
  /-- A task of a queue is to be cancelled. -/
  | cancel (place : ℕ) (task : String) (now : Instant)
  /-- All tasks of a queue are to be cancelled. -/
  | cancelAll (place : ℕ) (now : Instant)
  /-- The scheduler asks a queue for its next task. -/
  | handOut (place : ℕ) (now : Instant)
  /-- The scheduler launches a run of one of the tasks that were given out. -/
  | launch (index : ℕ) (clock : Clock)
  /-- A run without a task is opened. -/
  | openRun (group script : String) (actions : List Action) (vars : Variables)
    (exceptionScript : Option String) (clock : Clock)
  | begin (run : ℕ) (clock : Clock)
  /-- A run that does not wait goes on by one step. -/
  | work (run : ℕ) (moment : Moment)
  /-- The call for which a run waits is answered. -/
  | reply (run : ℕ) (answer : (r : Request) → r.Reply)
  /-- The time for which a run sleeps has passed. -/
  | wake (run : ℕ)
  /-- A run that came to its end is finished. -/
  | finish (run : ℕ) (clock : Clock)
  /-- Some runs are told to stop. -/
  | stop (which : EngineRun → Bool)
  /-- The catalog of scripts changes. -/
  | catalog (scripts : Fields ScriptDefinition)
  /-- The engine is paused, resumed, started or shut down. -/
  | switch (paused started : Bool)

namespace Yard

/-- A yard in which nothing has happened yet. -/
def idle (settings : EngineSettings) : Yard := { engine := { settings := settings } }

/-- An operation of the queue at a place. Runs whose tokens are fired are told to stop. -/
def operate (y : Yard) (place : ℕ) (op : QueueOp) : Yard :=
  match y.engine.queueAt place with
  | some q => ⟨(y.engine.setQueue place (q.after op)).stopFired (q.tells op), y.handed, y.log ++ q.tells op⟩
  | none => y

/-- Submits a task to the queue at a place, under the next id. -/
def submit (y : Yard) (place : ℕ) (draft : Task) : Yard :=
  let y' := y.operate place (.enqueue (draft.fresh (Engine.idText y.engine.issued)))
  { y' with engine := { y'.engine with issued := y.engine.issued + 1 } }

/-- Lets the queue at a place give out its next task. -/
def handOut (y : Yard) (place : ℕ) (now : Instant) : Yard :=
  match (y.engine.queueAt place).bind (·.dequeue now) with
  | some (t, _) => { y.operate place (.dequeue now) with handed := y.handed ++ [(place, t)] }
  | none => y

/-- Launches a run of a task that was given out. -/
def launch (y : Yard) (index : ℕ) (c : Clock) : Yard :=
  match y.handed[index]? with
  | some (place, t) =>
    let number := y.engine.issued
    let news := match y.engine.queueAt place with
      | some q => q.tells (.attach t.id (Engine.idText number) ⟨number⟩)
      | none => []
    ⟨y.engine.launch place t c, y.handed.eraseIdx index, y.log ++ news⟩
  | none => y

/-- Lets a live run go on, to a process with what it keeps then. A call that it arrives at begins. -/
def goOn (y : Yard) (run : ℕ) (f : EngineRun → Option (Process RunEnd × RunContext)) : Yard :=
  match ((y.engine.run? run).filter (·.isLive)).bind fun r => (f r).map (r, ·) with
  | some (r, p, context) =>
    { y with
      engine := y.engine.updateRun run fun r => { r with process := p, context := context }
      log := y.log ++ p.call?.toList.map (.called r.info.task) }
  | none => y

/-- What happens when a run is finished with an outcome. -/
def completion (e : Engine) (run : ℕ) (outcome : TaskOutcome) (now : Instant) : List Event :=
  match e.run? run with
  | some r => match r.place.bind e.queueAt, r.info.task with
    | some q, some t => q.tells (.complete t outcome now)
    | _, _ => []
  | none => []

/-- Finishes a run that came to its end. -/
def finish (y : Yard) (run : ℕ) (c : Clock) : Yard :=
  match y.engine.finish run c with
  | some (report, e) => ⟨e, y.handed, y.log ++ completion y.engine run report.outcome c.time⟩
  | none => y

/-- The yard after a move. -/
def step (y : Yard) : Move → Yard
  | .createGroup id name => match y.engine.createGroup id name with
    | .ok e => { y with engine := e }
    | .error _ => y
  | .unlist place => { y with engine := y.engine.unlist place }
  | .setEnabled place enabled => y.operate place (.setEnabled enabled)
  | .setExceptionScript place script => y.operate place (.setExceptionScript script)
  | .submit place draft => y.submit place draft
  | .cancel place task now => y.operate place (.cancel task now)
  | .cancelAll place now => y.operate place (.cancelAll now)
  | .handOut place now => y.handOut place now
  | .launch index c => y.launch index c
  | .openRun group script actions vars exceptionScript c =>
    { y with engine := (y.engine.openRun group script actions vars exceptionScript c).2 }
  | .begin run c => { y with engine := y.engine.beginRun run c }
  | .work run now => y.goOn run fun r => r.process.advance now r.context
  | .reply run answer => y.goOn run fun r => (r.process.reply answer).map (·, r.context)
  | .wake run => y.goOn run fun r => r.process.wake.map (·, r.context)
  | .finish run c => y.finish run c
  | .stop which => { y with engine := y.engine.cancelRuns which }
  | .catalog scripts => { y with engine := { y.engine with scripts := scripts } }
  | .switch paused started => { y with engine := { y.engine with paused := paused, started := started } }

/-- The yard after some moves. -/
def run (y : Yard) (moves : List Move) : Yard := moves.foldl step y

end Yard

end ScriptYard
