import ScriptYard.Engine.Tasks

/-!
# Runs of an engine

The steps of a run: a queue gives its next task out and a run of it is launched
(`Engine.dispatch`); the run begins; it is carried on from one place where it settles to the next;
and when it has come to its end it is finished, which tells the queue. A run without a task has the
same steps, but is opened and not launched.

One pass over all groups is a `tick`; it gives out one task of each group at most. A `sweep` looks for
runs that have stalled: for each of them the script that it names for this case is queued, if that
succeeds, and the run is cancelled whether it did or not.
-/

namespace ScriptYard

namespace Engine

/-! ### Beginnings -/

/-- The script that is queued when a run of a task stalls: the task's own, or else the queue's. A run
of a task that was queued for this reason has none. -/
def exceptionScriptOf (q : GroupQueue) (t : Task) : Option String :=
  if t.isExceptionHandler then none else t.exceptionScript.or q.exceptionScript

/-- Launches a run of a task that the queue at a place has given out, and tells the queue of it. If
the task is to be cancelled already, the run is told to stop from the start. -/
def launch (e : Engine) (place : Nat) (t : Task) (c : Clock) : Engine :=
  match e.queues[place]? with
  | none => e
  | some h =>
    let number := e.issued
    let info := ⟨idText number, some t.id, t.group, t.script, exceptionScriptOf h.queue t, c.time⟩
    -- a mark that came before the token was known cancels the run from the start
    let (fires, q) := h.queue.attach t.id info.id ⟨number⟩
    let run := ⟨number, info, some place, ⟨t.vars, fires, c.moment⟩, runActions t.actions 0 .null, none⟩
    { e.setQueue place q with runs := e.runs ++ [run], issued := number + 1 }

/-- Lets the queue at a place give out its next task, if there is one, and launches a run of it. -/
def dispatch (e : Engine) (place : Nat) (c : Clock) : Option Engine := do
  let h ← e.queues[place]?
  if !h.listed then none
  let (t, q) ← h.queue.dequeue c.time
  return (e.setQueue place q).launch place t c

/-- Gives out the next tasks of the queues at some places. The answer tells how many there were. -/
def dispatchAll (e : Engine) (c : Clock) : List Nat → Nat × Engine
  | [] => (0, e)
  | place :: rest =>
    match e.dispatch place c with
    | some e =>
      let (n, e) := e.dispatchAll c rest
      (n + 1, e)
    | none => e.dispatchAll c rest

/-- Gives out the next task of every group, unless the engine is paused. The answer tells how many
there were. -/
def tick (e : Engine) (c : Clock) : Nat × Engine :=
  if e.paused then (0, e) else e.dispatchAll c (List.range e.queues.length)

/-- Opens a run without a task. The answer is its number. -/
def openRun (e : Engine) (group script : String) (actions : List Action) (vars : Variables)
    (exceptionScript : Option String) (c : Clock) : Nat × Engine :=
  let number := e.issued
  let info := ⟨idText number, none, group, script, exceptionScript, c.time⟩
  let run := ⟨number, info, none, ⟨vars, false, c.moment⟩, runActions actions 0 .null, none⟩
  (number, { e with runs := e.runs ++ [run], issued := number + 1 })

/-- Opens a run of a script. -/
def openScript (e : Engine) (s : ScriptDefinition) (c : Clock) : Nat × Engine :=
  e.openRun (s.group.getD "default") s.displayName s.actions s.vars s.exceptionScript c

/-- Lets a run begin. -/
def beginRun (e : Engine) (number : Nat) (c : Clock) : Engine :=
  e.updateRun number fun r => { r with begunAt := r.begunAt.or (some c.time) }

/-! ### On and to the end -/

/-- Carries a run on, with what is left to do, up to where it settles. -/
def carryOn (e : Engine) (number : Nat) (left : Process RunEnd) (c : Clock) : Engine :=
  e.updateRun number fun r =>
    let (p, context) := left.settle c.moment r.context
    { r with process := p, context := context }

/-- Finishes a run that has come to its end. The answer is its report. -/
def finish (e : Engine) (number : Nat) (c : Clock) : Option (RunReport × Engine) := do
  let r ← e.run? number
  let ended ← r.process.end?
  let report := r.info.report r.context ended (← r.begunAt) c.time
  let e := { e with runs := e.runs.filter (·.number != number) }
  -- a run without a queue, or of a task that its queue does not run, leaves all queues alone
  let completed := do
    let place ← r.place
    let h ← e.queues[place]?
    match h.queue.complete (← r.info.task) report.outcome c.time with
    | .ok (_, q) => some (e.setQueue place q)
    | .error _ => none
  return (report, completed.getD e)

/-! ### Stops -/

/-- Tells all live runs to stop. The answer tells how many there are. -/
def stopAll (e : Engine) : Nat × Engine := (e.table.live.length, e.cancelRuns (·.isLive))

/-- Lets the engine look for tasks and stalled runs by itself, which it must not do already. -/
def start (e : Engine) : Except EngineError Engine :=
  if e.started then .error .alreadyRunning else .ok { e with started := true }

/-- Begins to shut the engine down: it no longer looks for anything by itself, and all live runs are
told to stop. -/
def beginShutdown (e : Engine) : Engine := { e.stopAll.2 with started := false }

/-- The end of a shutdown for which so much time was given. -/
def shutdownEnd (e : Engine) (timeout : Span) : Except EngineError Unit :=
  if e.isDrained then .ok () else .error (.shutdownTimeout timeout e.table.live.length)

/-! ### Stalled runs -/

/-- The runs that have stalled. -/
def stalled (e : Engine) (now : Moment) : List Stall := e.table.stalled e.settings.stallThreshold now

/-- Deals with a run that has stalled. -/
def handleStall (e : Engine) (s : Stall) (c : Clock) : Engine :=
  let queued := s.run.exceptionScript.bind fun script =>
    (e.submitExceptionScript s.run.group script c.time).toOption
  let e := match queued with
    | some (_, e) => e
    | none => e
  e.cancelRuns fun r => r.isLive && r.info.id == s.run.id

/-- Deals with all runs that have stalled. The answer names them. -/
def sweep (e : Engine) (c : Clock) : List Stall × Engine :=
  let stalls := e.stalled c.moment
  (stalls, stalls.foldl (fun e s => e.handleStall s c) e)

end Engine

end ScriptYard
