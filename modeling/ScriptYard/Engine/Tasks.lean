import ScriptYard.Engine.Basic

/-!
# Tasks of an engine

A task is submitted to a group, with actions or by the id of a script in the catalog. It can be
looked at until its queue has forgotten it, and cancelled until it has come to its end. Submitting
gives the id of the task.
-/

namespace ScriptYard

namespace Engine

/-- Queues a task that was given the next id. -/
def submitTask (e : Engine) (t : Task) : Except EngineError (String × Engine) := do
  let e ← e.withQueue t.group (·.enqueue t)
  return (t.id, { e with issued := e.issued + 1 })

/-- Queues actions. -/
def submit (e : Engine) (group name : String) (actions : List Action) (priority : Option Int)
    (now : Instant) : Except EngineError (String × Engine) :=
  e.submitTask {
    id := idText e.issued
    group := group
    script := name
    actions := actions
    priority := priority.getD 0
    createdAt := now
    maxRetries := e.settings.defaultMaxRetries }

/-- The task of a script, with the next id. -/
def taskOf (e : Engine) (s : ScriptDefinition) (group : String) (priority : Option Int) (now : Instant) :
    Task where
  id := idText e.issued
  group := group
  script := s.displayName
  scriptId := some s.id
  actions := s.actions
  vars := s.vars
  exceptionScript := s.exceptionScript
  priority := (priority.or s.priority).getD 0
  createdAt := now
  maxRetries := s.maxRetries.getD e.settings.defaultMaxRetries

/-- The script of an id, which has to be in the catalog. -/
def script (e : Engine) (id : String) : Except EngineError ScriptDefinition :=
  match e.scripts.get? id with
  | some s => .ok s
  | none => .error (.scriptNotFound id)

/-- Queues a script of the catalog. -/
def submitScript (e : Engine) (group id : String) (priority : Option Int) (now : Instant) :
    Except EngineError (String × Engine) := do
  e.submitTask (e.taskOf (← e.script id) group priority now)

/-- Puts a script into the catalog and queues it. The script stays in the catalog when it cannot be
queued. -/
def submitDefinition (e : Engine) (group : String) (s : ScriptDefinition) (priority : Option Int)
    (now : Instant) : Except EngineError String × Engine :=
  let e := { e with scripts := e.scripts.insert s.id s }
  match e.submitScript group s.id priority now with
  | .ok (id, e) => (.ok id, e)
  | .error err => (.error err, e)

/-- Queues the script that a stalled run names, ahead of other tasks. -/
def submitExceptionScript (e : Engine) (group id : String) (now : Instant) :
    Except EngineError (String × Engine) := do
  let t := e.taskOf (← e.script id) group (some e.settings.exceptionPriority) now
  e.submitTask { t with isExceptionHandler := true }

/-! ### Views -/

def task (e : Engine) (id : String) : Except EngineError Task :=
  match e.listedQueues.findSome? (·.find? id) with
  | some t => .ok t
  | none => .error (.taskNotFound id)

def tasks (e : Engine) (group : String) : Except EngineError (List Task) := do
  return (← e.queue group).tasks

def status (e : Engine) (group : String) : Except EngineError QueueStatus := do
  return (← e.queue group).status

def statuses (e : Engine) : List QueueStatus := e.listedQueues.map (·.status)

/-! ### Cancellation -/

/-- Cancels a task that waits or is running. There is no engine if no such task was found, or if it
was asked to end before. -/
def cancel (e : Engine) (task : String) (now : Instant) : Option Engine := do
  let place ← e.queues.findIdx? fun h => h.listed && h.queue.contains task
  let h ← e.queues[place]?
  let (outcome, q) ← h.queue.cancel task now
  return (e.setQueue place q).fire outcome

end Engine

end ScriptYard
