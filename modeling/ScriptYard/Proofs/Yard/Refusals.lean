import ScriptYard.Proofs.Queue.Refusals
import ScriptYard.Proofs.Yard.Operations

/-!
# What a refused operation leaves behind

An `Engine` answers most operations with a new engine or with an error, and with the error there is no
engine that could differ from the one before. That is how the operations are defined; it is not how they are
carried out. Carried out, they are steps that change the engine in place: a group is created and then found
again and set up, a script is put into the catalog and then looked up and queued. A step that is refused
ends the operation, and nothing that was done before is undone.

`Engine.Procedure` is this second reading, and `Call.perform` gives the steps of every operation on groups,
scripts and tasks. The two readings agree for every call and every engine (`Call.perform_eq_answer`), which
is to say that where an operation is one value to the next, no step that can be refused comes after one that
changes something. Only two operations are not of this kind: the submission of a definition, whose script is
in the catalog before its group is looked up, and the loading of a library, which puts all scripts into the
catalog and then creates one group after the other. `refused_call_leaves` says for all calls what is left
behind.
-/

namespace ScriptYard

namespace Engine

variable {e e' : Engine} {p : ℕ} {q : GroupQueue}

/-! ### Steps that are not undone -/

/-- Steps that change an engine one after the other. The first that is refused ends them; what the steps
before it did stays done. -/
abbrev Procedure (α : Type) : Type := ExceptT EngineError (StateM Engine) α

/-- The task of some actions, with the next id. -/
def draft (e : Engine) (group name : String) (actions : List Action) (priority : Option Int)
    (now : Instant) : Task where
  id := idText e.issued
  group := group
  script := name
  actions := actions
  priority := priority.getD 0
  createdAt := now
  maxRetries := e.settings.defaultMaxRetries

/-- The answer of an operation that gives no engine when it is refused. -/
def answered {α : Type} (e : Engine) : Except EngineError (α × Engine) → Except EngineError α × Engine
  | .ok (a, e') => (.ok a, e')
  | .error err => (.error err, e)

/-- A definition is submitted as a script of the catalog, in the engine that has it there. -/
theorem submitDefinition_eq (group : String) (s : ScriptDefinition) (priority : Option Int) (now : Instant)
    (e : Engine) : e.submitDefinition group s priority now =
      (e.registerScript s).answered ((e.registerScript s).submitScript group s.id priority now) := by
  have h_answer : ∀ r, (e.registerScript s).submitScript group s.id priority now = r →
      e.submitDefinition group s priority now = (e.registerScript s).answered r := by
    intro r h_r
    unfold registerScript at h_r
    unfold submitDefinition
    dsimp only
    rw [h_r]
    cases r <;> rfl
  exact h_answer _ rfl

namespace Procedure

/-- Puts a queue behind the others, where there is none of its id. -/
def insertQueue (q : GroupQueue) : Procedure Unit := do
  if ((← get).queue? q.id).isSome then throw (.groupExists q.id)
  modify fun e => { e with queues := e.queues ++ [⟨q, true⟩] }

/-- The place of the queue of a group, which has to exist. -/
def findQueue (group : String) : Procedure ℕ := do
  match (← get).place? group with
  | some place => return place
  | none => throw (.groupNotFound group)

/-- Changes the queue at a place, unless the change is refused. -/
def lockQueue (place : ℕ) (f : GroupQueue → Except EngineError GroupQueue) : Procedure Unit := do
  match (← get).queueAt place with
  | some q =>
    let q ← f q
    modify (·.setQueue place q)
  | none => return

/-- Looks a group up and changes its queue. -/
def changeQueue (group : String) (f : GroupQueue → Except EngineError GroupQueue) : Procedure Unit := do
  lockQueue (← findQueue group) f

/-- Cancels the tasks of the queue at a place, and fires the token of the running one. -/
def cancelTasks (place : ℕ) (now : Instant) : Procedure Unit :=
  modify fun e => match e.queueAt place with
    | some q => (e.setQueue place (q.after (.cancelAll now))).stopFired (q.tells (.cancelAll now))
    | none => e

/-- Puts a script into the catalog. -/
def register (s : ScriptDefinition) : Procedure Unit := modify (·.registerScript s)

/-- The script of an id, which has to be in the catalog. -/
def findScript (id : String) : Procedure ScriptDefinition := do
  match (← get).scripts.get? id with
  | some s => return s
  | none => throw (.scriptNotFound id)

/-- Queues a task that was given the next id. -/
def enqueue (t : Task) : Procedure String := do
  changeQueue t.group (·.enqueue t)
  modify fun e => { e with issued := e.issued + 1 }
  return t.id

/-! ### The operations step by step -/

/-- Creates an empty queue. -/
def createGroup (id name : String) : Procedure Unit := do
  insertQueue ((← get).freshQueue id name)

/-- Creates an empty queue, looks it up and sets it up as the group is defined. -/
def addGroup (g : GroupDefinition) : Procedure Unit := do
  createGroup g.id g.displayName
  let place ← findQueue g.id
  lockQueue place fun q => .ok { q with enabled := g.enabled }
  lockQueue place fun q => .ok { q with exceptionScript := g.exceptionScript }

/-- Takes a group out of those that exist, cancels its tasks and stops its live runs. -/
def removeGroup (group : String) (now : Instant) : Procedure Unit := do
  let place ← findQueue group
  modify (·.unlist place)
  cancelTasks place now
  modify (·.cancelRuns fun r => r.isLive && r.info.group == group)

/-- Lets the tasks of a group be started or not. -/
def setGroupEnabled (group : String) (enabled : Bool) : Procedure Unit :=
  changeQueue group fun q => .ok { q with enabled := enabled }

/-- Looks the script up, then the group, and chooses the script for it. -/
def setExceptionScript (group : String) (script : Option String) : Procedure Unit := do
  if let some id := script then
    unless (← get).scripts.contains id do throw (.scriptNotFound id)
  changeQueue group fun q => .ok { q with exceptionScript := script }

/-- Puts all scripts of a library into the catalog, and then creates its groups. -/
def loadLibrary (l : ScriptLibrary) : Procedure Unit := do
  l.scripts.forM register
  l.groups.forM addGroup

/-- Queues actions. -/
def submit (group name : String) (actions : List Action) (priority : Option Int) (now : Instant) :
    Procedure String := do
  enqueue ((← get).draft group name actions priority now)

/-- Looks a script up and queues it. -/
def submitScript (group id : String) (priority : Option Int) (now : Instant) : Procedure String := do
  let s ← findScript id
  enqueue ((← get).taskOf s group priority now)

/-- Puts a script into the catalog, looks it up there and queues it. -/
def submitDefinition (group : String) (s : ScriptDefinition) (priority : Option Int) (now : Instant) :
    Procedure String := do
  register s
  submitScript group s.id priority now

/-! ### What the steps do -/

open Steps

theorem insertQueue_of_new (h_new : e.queue? q.id = none) :
    insertQueue q e = (.ok (), e.pushQueue q) := by
  simp [insertQueue, h_new, pushQueue]

theorem insertQueue_of_old {q' : GroupQueue} (h_old : e.queue? q.id = some q') :
    insertQueue q e = (.error (.groupExists q.id), e) := by
  simp [insertQueue, h_old]

theorem findQueue_of_place {group : String} (h_place : e.place? group = some p) :
    findQueue group e = (.ok p, e) := by
  simp [findQueue, h_place]

theorem findQueue_of_no_place {group : String} (h_place : e.place? group = none) :
    findQueue group e = (.error (.groupNotFound group), e) := by
  simp [findQueue, h_place]

theorem lockQueue_of_ok {f : GroupQueue → Except EngineError GroupQueue} {q' : GroupQueue}
    (h_at : e.queueAt p = some q) (h_f : f q = .ok q') : lockQueue p f e = (.ok (), e.setQueue p q') := by
  simp [lockQueue, h_at, h_f]

theorem lockQueue_of_error {f : GroupQueue → Except EngineError GroupQueue} {err : EngineError}
    (h_at : e.queueAt p = some q) (h_f : f q = .error err) : lockQueue p f e = (.error err, e) := by
  simp [lockQueue, h_at, h_f]

/-- The queue of a new group can be changed. -/
theorem lockQueue_pushQueue (e : Engine) (q : GroupQueue) (f : GroupQueue → GroupQueue) :
    lockQueue e.queues.length (fun q => .ok (f q)) (e.pushQueue q) = (.ok (), e.pushQueue (f q)) := by
  rw [← setQueue_pushQueue e q (f q)]
  exact lockQueue_of_ok (e.queueAt_pushQueue_self q) rfl

/-- A queue that is looked up and changed is changed as a whole or not at all. -/
theorem changeQueue_apply (group : String) (f : GroupQueue → Except EngineError GroupQueue) (e : Engine) :
    changeQueue group f e = e.answered ((e.withQueue group f).map ((), ·)) := by
  unfold changeQueue
  cases h_place : e.place? group with
  | none =>
    rw [withQueue_of_no_place f h_place, bind_apply, findQueue_of_no_place h_place]
    rfl
  | some p =>
    obtain ⟨q, -, h_at, -⟩ := queue_of_place? h_place
    rw [withQueue_of_place? f h_place h_at, bind_apply, findQueue_of_place h_place]
    cases h_f : f q with
    | error err => exact lockQueue_of_error h_at h_f
    | ok q' => exact lockQueue_of_ok h_at h_f

/-! ### The operations step by step are the operations -/

theorem createGroup_apply (id name : String) (e : Engine) :
    createGroup id name e = e.answered ((e.createGroup id name).map ((), ·)) := by
  unfold createGroup Engine.createGroup
  rw [bind_apply]
  change insertQueue (e.freshQueue id name) e = _
  cases h : e.queue? (e.freshQueue id name).id with
  | none =>
    rw [insertQueue_of_new h, addQueue_of_new h]
    rfl
  | some q =>
    rw [insertQueue_of_old h, addQueue_of_old h]
    rfl

theorem addGroup_apply (g : GroupDefinition) (e : Engine) :
    addGroup g e = e.answered ((e.addGroup g).map ((), ·)) := by
  cases h : e.queue? g.id with
  | some q =>
    have h_old : e.createGroup g.id g.displayName = .error (.groupExists g.id) := addQueue_of_old h
    have h_old' : e.addGroup g = .error (.groupExists g.id) := addQueue_of_old (q := e.definedQueue g) h
    rw [h_old', addGroup, bind_apply, createGroup_apply, h_old]
    rfl
  | none =>
    have h_new : e.createGroup g.id g.displayName = .ok (e.pushQueue (e.freshQueue g.id g.displayName)) :=
      addQueue_of_new h
    have h_new' : e.addGroup g = .ok (e.pushQueue (e.definedQueue g)) :=
      addQueue_of_new (q := e.definedQueue g) h
    rw [h_new', addGroup, bind_apply, createGroup_apply, h_new]
    -- the queue that was put behind the others is the one that is found, and is changed twice
    have h_find : findQueue g.id (e.pushQueue (e.freshQueue g.id g.displayName)) = (.ok e.queues.length, _) :=
      findQueue_of_place (place?_pushQueue_self (q := e.freshQueue g.id g.displayName) h)
    simp only [Except.map, answered, bind_apply, h_find, lockQueue_pushQueue]
    rfl

theorem removeGroup_apply (group : String) (now : Instant) (e : Engine) :
    removeGroup group now e = e.answered ((e.removeGroup group now).map ((), ·)) := by
  cases h_place : e.place? group with
  | none =>
    rw [removeGroup_eq_error now h_place, removeGroup, bind_apply, findQueue_of_no_place h_place]
    rfl
  | some p =>
    obtain ⟨q, -, h_at, -⟩ := queue_of_place? h_place
    rw [removeGroup_eq_ok now h_place h_at, removeGroup, bind_apply, findQueue_of_place h_place]
    rw [← queueAt_unlist e p] at h_at
    simp [cancelTasks, h_at, Except.map, answered]

theorem setExceptionScript_apply (group : String) (script : Option String) (e : Engine) :
    setExceptionScript group script e = e.answered ((e.setExceptionScript group script).map ((), ·)) := by
  unfold setExceptionScript Engine.setExceptionScript
  cases script with
  | none => exact changeQueue_apply ..
  | some id =>
    cases h : e.scripts.contains id with
    | true =>
      simp [Option.filter_some, h]
      exact changeQueue_apply ..
    | false =>
      simp [Option.filter_some, h]
      rfl

/-- Groups are created up to the first that is refused. -/
theorem addGroups_apply (groups : List GroupDefinition) (e : Engine) :
    (groups.forM addGroup : Procedure Unit) e = e.addGroups groups := by
  induction groups generalizing e with
  | nil => rfl
  | cons g groups ih =>
    rw [List.forM_eq_forM, List.forM_cons, bind_apply, addGroup_apply, addGroups]
    cases h : e.addGroup g with
    | error err => rfl
    | ok e' => exact ih e'

theorem loadLibrary_apply (l : ScriptLibrary) (e : Engine) : loadLibrary l e = e.loadLibrary l := by
  have h_scripts : ∀ (scripts : List ScriptDefinition) (e : Engine),
      (scripts.forM register : Procedure Unit) e = (.ok (), scripts.foldl registerScript e) := by
    intro scripts
    induction scripts with
    | nil => exact fun _ => rfl
    | cons s scripts ih => exact fun e => ih (e.registerScript s)
  rw [loadLibrary, bind_apply, h_scripts]
  exact addGroups_apply ..

theorem enqueue_apply (t : Task) (e : Engine) : enqueue t e = e.answered (e.submitTask t) := by
  rw [enqueue, bind_apply, changeQueue_apply, submitTask]
  cases e.withQueue t.group (·.enqueue t) <;> rfl

theorem submitScript_apply (group id : String) (priority : Option Int) (now : Instant) (e : Engine) :
    submitScript group id priority now e = e.answered (e.submitScript group id priority now) := by
  unfold submitScript Engine.submitScript Engine.script findScript
  cases h : e.scripts.get? id with
  | none => 
    simp [h]
    rfl
  | some s => 
    simp [h, enqueue_apply]
    rfl

theorem submitDefinition_apply (group : String) (s : ScriptDefinition) (priority : Option Int)
    (now : Instant) (e : Engine) :
    submitDefinition group s priority now e = e.submitDefinition group s priority now := by
  rw [submitDefinition_eq]
  exact submitScript_apply group s.id priority now (e.registerScript s)

end Procedure

/-! ### Calls and what they leave behind -/

/-- What an engine is asked to do with its groups, scripts and tasks. -/
inductive Call where
  | createGroup (id name : String)
  | addGroup (g : GroupDefinition)
  | removeGroup (group : String) (now : Instant)
  | setGroupEnabled (group : String) (enabled : Bool)
  | setExceptionScript (group : String) (script : Option String)
  | loadLibrary (l : ScriptLibrary)
  | submit (group name : String) (actions : List Action) (priority : Option Int) (now : Instant)
  | submitScript (group id : String) (priority : Option Int) (now : Instant)
  | submitDefinition (group : String) (s : ScriptDefinition) (priority : Option Int) (now : Instant)

namespace Call

/-- The answer to a call, with the id of the task if one was queued, and the engine afterwards. -/
def answer (e : Engine) : Call → Except EngineError (Option String) × Engine
  | .createGroup id name => e.answered ((e.createGroup id name).map (none, ·))
  | .addGroup g => e.answered ((e.addGroup g).map (none, ·))
  | .removeGroup group now => e.answered ((e.removeGroup group now).map (none, ·))
  | .setGroupEnabled group enabled => e.answered ((e.setGroupEnabled group enabled).map (none, ·))
  | .setExceptionScript group script => e.answered ((e.setExceptionScript group script).map (none, ·))
  | .loadLibrary l => (e.loadLibrary l).map (Except.map fun _ => none) id
  | .submit group name actions priority now =>
    e.answered ((e.submit group name actions priority now).map (Prod.map some id))
  | .submitScript group script priority now =>
    e.answered ((e.submitScript group script priority now).map (Prod.map some id))
  | .submitDefinition group s priority now =>
    (e.submitDefinition group s priority now).map (Except.map some) id

/-- The steps in which a call is carried out. -/
def perform : Call → Procedure (Option String)
  | .createGroup id name => (fun _ => none) <$> Procedure.createGroup id name
  | .addGroup g => (fun _ => none) <$> Procedure.addGroup g
  | .removeGroup group now => (fun _ => none) <$> Procedure.removeGroup group now
  | .setGroupEnabled group enabled => (fun _ => none) <$> Procedure.setGroupEnabled group enabled
  | .setExceptionScript group script => (fun _ => none) <$> Procedure.setExceptionScript group script
  | .loadLibrary l => (fun _ => none) <$> Procedure.loadLibrary l
  | .submit group name actions priority now => some <$> Procedure.submit group name actions priority now
  | .submitScript group script priority now => some <$> Procedure.submitScript group script priority now
  | .submitDefinition group s priority now => some <$> Procedure.submitDefinition group s priority now

/-- **The operations of an engine, carried out step by step, do what they do at once.** -/
theorem perform_eq_answer (c : Call) (e : Engine) : c.perform e = c.answer e := by
  -- the calls that answer nothing and those that answer an id are wrapped up alike
  have h_silent : ∀ (x : Procedure Unit) (r : Except EngineError Engine),
      x e = e.answered (r.map ((), ·)) →
      ((fun _ => none) <$> x : Procedure (Option String)) e = e.answered (r.map (none, ·)) := by
    intro x r h
    rw [Steps.map_apply, h]
    cases r <;> rfl
  have h_task : ∀ (x : Procedure String) (r : Except EngineError (String × Engine)), x e = e.answered r →
      (some <$> x : Procedure (Option String)) e = e.answered (r.map (Prod.map some id)) := by
    intro x r h
    rw [Steps.map_apply, h]
    cases r <;> rfl
  cases c with
  | createGroup id name => exact h_silent _ _ (Procedure.createGroup_apply id name e)
  | addGroup g => exact h_silent _ _ (Procedure.addGroup_apply g e)
  | removeGroup group now => exact h_silent _ _ (Procedure.removeGroup_apply group now e)
  | setGroupEnabled group enabled => exact h_silent _ _ (Procedure.changeQueue_apply ..)
  | setExceptionScript group script => exact h_silent _ _ (Procedure.setExceptionScript_apply group script e)
  | loadLibrary l => 
    exact (Steps.map_apply _ _ e).trans (by rw [Procedure.loadLibrary_apply]; rfl)
  | submit group name actions priority now => exact h_task _ _ (Procedure.enqueue_apply ..)
  | submitScript group script priority now => exact h_task _ _ (Procedure.submitScript_apply ..)
  | submitDefinition group s priority now =>
    exact (Steps.map_apply _ _ e).trans (by rw [Procedure.submitDefinition_apply]; rfl)

/-- What a call that is refused may leave behind. -/
def Leaves (e : Engine) (err : EngineError) (e' : Engine) : Call → Prop
  | .loadLibrary l => ∃ made g rest, l.groups = made ++ g :: rest ∧ err = .groupExists g.id ∧
      e' = { e with
        scripts := l.scripts.foldl (fun scripts s => scripts.insert s.id s) e.scripts
        queues := e.queues ++ made.map fun g => ⟨e.definedQueue g, true⟩ }
  | .submitDefinition group s _ _ => err = .groupNotFound group ∧ e' = e.registerScript s
  | _ => e' = e

end Call

/-- The scripts of a library are all in the catalog before the first group is refused. -/
theorem loadLibrary_refused {l : ScriptLibrary} {err : EngineError}
    (h : e.loadLibrary l = (.error err, e')) : Call.Leaves e err e' (.loadLibrary l) := by
  unfold loadLibrary at h
  rw [foldl_registerScript] at h
  obtain h_all | ⟨made, g, rest, h_groups, -, h_refused⟩ := addGroups_cases l.groups { e with
    scripts := l.scripts.foldl (fun scripts s => scripts.insert s.id s) e.scripts }
  · rw [h_all] at h
    cases h
  · rw [h_refused] at h
    cases h
    exact ⟨made, g, rest, h_groups, rfl, rfl⟩

/-- A script that was just put into the catalog is found there, so that only the group can be missing. -/
theorem submitDefinition_refused {group : String} {s : ScriptDefinition} {priority : Option Int}
    {now : Instant} {err : EngineError} (h : e.submitDefinition group s priority now = (.error err, e')) :
    Call.Leaves e err e' (.submitDefinition group s priority now) := by
  have h_found : (e.registerScript s).scripts.get? s.id = some s := by
    simp [registerScript, Fields.get?_insert]
  rw [submitDefinition_eq, submitScript_of_get? h_found] at h
  cases h_place : (e.registerScript s).place? group with
  | none =>
    rw [submitTask_of_no_place h_place] at h
    cases h
    exact ⟨rfl, rfl⟩
  | some p =>
    obtain ⟨q, -, h_at, -⟩ := queue_of_place? h_place
    rw [submitTask_of_place? h_place h_at] at h
    cases h

/-- An operation that gives no engine when it is refused leaves the engine as it was. -/
theorem eq_of_answered {α : Type} {r : Except EngineError (α × Engine)} {err : EngineError}
    (h : e.answered r = (.error err, e')) : e' = e := by
  cases r with
  | ok x => cases h
  | error err' =>
    cases h
    rfl

/-- **What a refused call leaves behind.** Carried out in steps that are not undone, a call that is refused
leaves nothing behind, but for two: the loading of a library leaves all its scripts in the catalog, and the
groups before the one that exists already behind the queues that were there; the submission of a definition
leaves its script in the catalog. -/
theorem refused_call_leaves (c : Call) (e e' : Engine) (err : EngineError)
    (h : c.answer e = (.error err, e')) : c.perform e = (.error err, e') ∧ c.Leaves e err e' := by
  refine ⟨(Call.perform_eq_answer c e).trans h, ?_⟩
  cases c with
  -- these two answer with an engine of their own; all others give back the one they got
  | loadLibrary l =>
    change (e.loadLibrary l).map (Except.map fun _ => none) id = _ at h
    cases h_load : e.loadLibrary l with
    | mk r e'' =>
      rw [h_load] at h
      cases r with
      | ok _ => cases h
      | error err' =>
        cases h
        exact loadLibrary_refused h_load
  | submitDefinition group s priority now =>
    change (e.submitDefinition group s priority now).map (Except.map some) id = _ at h
    cases h_submit : e.submitDefinition group s priority now with
    | mk r e'' =>
      rw [h_submit] at h
      cases r with
      | ok id => cases h
      | error err' =>
        cases h
        exact submitDefinition_refused h_submit
  | _ => exact eq_of_answered h

/-- A definition that is submitted to a group that does not exist. -/
def strayDefinition : Call := .submitDefinition "nowhere" { id := "s" } none ⟨0, 0⟩

/-- It is refused, and in the catalog. -/
theorem refused_definition_is_registered :
    strayDefinition.answer {} = (.error (.groupNotFound "nowhere"), registerScript {} { id := "s" }) ∧
      strayDefinition.Leaves {} (.groupNotFound "nowhere") (registerScript {} { id := "s" }) := by
  have h : strayDefinition.answer {} =
      (.error (.groupNotFound "nowhere"), registerScript {} { id := "s" }) := by
    rfl
  exact ⟨h, (refused_call_leaves _ _ _ _ h).2⟩

/-- Wherever it is refused, the call leaves the groups, their queues and the catalog as they were. -/
def Call.IsAtomic (c : Call) : Prop :=
  ∀ (settings : EngineSettings) (e e' : Engine) (err : EngineError), Reachable settings e →
    c.answer e = (.error err, e') → e'.listedQueues = e.listedQueues ∧ e'.scripts = e.scripts

/-- A library of which one group exists is refused and leaves a group and a script behind; a definition that is
submitted to a group that does not exist leaves its script behind. -/
theorem refused_library_is_loaded_in_part :
    ¬ (Call.loadLibrary ⟨[{ id := "h" }, { id := "g" }], [{ id := "s" }]⟩).IsAtomic ∧
      ¬ strayDefinition.IsAtomic := by
  have h_create : createGroup {} "g" "g" = .ok (pushQueue {} (.create "g" "g" 500 {})) := rfl
  have h_group : Reachable {} (pushQueue {} (.create "g" "g" 500 {})) := .tail .refl (.createGroup h_create)
  constructor
  · intro h
    obtain ⟨h_queues, -⟩ := h {} _ _ _ h_group rfl
    exact absurd (congrArg List.length h_queues) (by decide)
  · intro h
    obtain ⟨-, h_scripts⟩ := h {} _ _ _ h_group rfl
    exact absurd (congrArg List.length h_scripts) (by decide)

end Engine

end ScriptYard
