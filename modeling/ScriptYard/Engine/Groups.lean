import ScriptYard.Engine.Basic

/-!
# Groups and scripts of an engine

Groups are created, changed and removed, and scripts are put into the catalog. An operation that is
refused gives an error and no engine. Loading a library does several of these in a row and stops at
the first that is refused; it gives the engine that was reached.
-/

namespace ScriptYard

namespace Engine

/-- The engine with a new queue. -/
def addQueue (e : Engine) (q : GroupQueue) : Except EngineError Engine :=
  if (e.queue? q.id).isSome then .error (.groupExists q.id)
  else .ok { e with queues := e.queues ++ [⟨q, true⟩] }

/-- An empty queue for a group, as the engine's settings want it. -/
def freshQueue (e : Engine) (id name : String) : GroupQueue :=
  .create id name e.settings.historyLimit e.settings.retry

def createGroup (e : Engine) (id name : String) : Except EngineError Engine :=
  e.addQueue (e.freshQueue id name)

/-- Creates a group as it is defined. -/
def addGroup (e : Engine) (g : GroupDefinition) : Except EngineError Engine :=
  e.addQueue { e.freshQueue g.id g.displayName with
    enabled := g.enabled, exceptionScript := g.exceptionScript }

/-- Lets the tasks of a group be started or not. -/
def setGroupEnabled (e : Engine) (group : String) (enabled : Bool) : Except EngineError Engine :=
  e.withQueue group fun q => .ok { q with enabled := enabled }

/-- Chooses the script that is queued when a run in a group stalls. It has to be in the catalog. -/
def setExceptionScript (e : Engine) (group : String) (script : Option String) :
    Except EngineError Engine :=
  match script.filter (fun s => !e.scripts.contains s) with
  | some unknown => .error (.scriptNotFound unknown)
  | none => e.withQueue group fun q => .ok { q with exceptionScript := script }

/-- Removes a group. Its tasks are cancelled, and so are the live runs of the group. -/
def removeGroup (e : Engine) (group : String) (now : Instant) : Except EngineError Engine := do
  let some place := e.place? group | throw (.groupNotFound group)
  let (outcome, q) := (← e.queue group).cancelAll now
  let e := { e with queues := e.queues.modify place fun _ => ⟨q, false⟩ }
  let e := match outcome with
    | some o => e.fire o
    | none => e
  return e.cancelRuns fun r => r.isLive && r.info.group == group

/-- Puts a script into the catalog, in the place of any other script of its id. -/
def registerScript (e : Engine) (s : ScriptDefinition) : Engine :=
  { e with scripts := e.scripts.insert s.id s }

/-- Creates groups up to the first that cannot be created. -/
def addGroups (e : Engine) : List GroupDefinition → Except EngineError Unit × Engine
  | [] => (.ok (), e)
  | g :: rest =>
    match e.addGroup g with
    | .ok e => e.addGroups rest
    | .error err => (.error err, e)

/-- Puts all scripts of a library into the catalog and creates its groups. -/
def loadLibrary (e : Engine) (l : ScriptLibrary) : Except EngineError Unit × Engine :=
  (l.scripts.foldl registerScript e).addGroups l.groups

end Engine

end ScriptYard
