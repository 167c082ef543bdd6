import Mathlib.Logic.Relation
import ScriptYard.Proofs.Yard.Exclusion

/-!
# The operations of an engine as moves

The moves of a yard are finer than what an engine can be asked to do. `Engine.Operation` lists the
latter: the operations on groups, scripts and tasks, a pass over the groups, the watch over stalled runs,
and the steps of a run, each as the engine performs it at once. Every operation is some moves in a row
(`Engine.Operation.movesTo`), none of which submits a task to a group that was removed before, so that
whatever holds after all moves holds of every engine that operations lead to
(`Engine.Reachable.exists_moves`).

Most operations are one move. The removal of a group is three, a pass over the groups gives a task out and
launches it at once, and a run that is carried on takes as many steps as it needs to settle
(`Process.settle_advances`).
-/

namespace ScriptYard

/-- What is left of a run to carry on with: all of it, or what follows the reply to its call or the end of
its sleep. -/
inductive EngineRun.Resumes (r : EngineRun) : Process RunEnd → Prop where
  /-- Nothing has happened yet. -/
  | start : r.Resumes r.process
  /-- The call is answered. -/
  | replied {request : Request} {k : request.Reply → Process RunEnd} (h : r.process = .call request k)
    (reply : request.Reply) : r.Resumes (k reply)
  /-- The run wakes up: the time has passed, or it was told to stop. -/
  | woken {time : Span} {k : Bool → Process RunEnd} (h : r.process = .sleep time k) :
    r.Resumes (k !r.context.cancelled)

/-- The place of the queue to which the move submits a task. -/
def Move.submits? : Move → Option ℕ
  | .submit place _ => some place
  | _ => none

/-- The run with something left to do, and with what it keeps then. -/
def EngineRun.leftWith (r : EngineRun) (s : Process RunEnd × RunContext) : EngineRun :=
  { r with process := s.1, context := s.2 }

namespace Engine

/-- An operation of an engine, with the engine that it gives. -/
inductive Operation (e : Engine) : Engine → Prop where
  | createGroup {id name : String} {e' : Engine} (h : e.createGroup id name = .ok e') : e.Operation e'
  | addGroup {g : GroupDefinition} {e' : Engine} (h : e.addGroup g = .ok e') : e.Operation e'
  | setGroupEnabled {group : String} {enabled : Bool} {e' : Engine}
    (h : e.setGroupEnabled group enabled = .ok e') : e.Operation e'
  | setExceptionScript {group : String} {script : Option String} {e' : Engine}
    (h : e.setExceptionScript group script = .ok e') : e.Operation e'
  | removeGroup {group : String} {now : Instant} {e' : Engine} (h : e.removeGroup group now = .ok e') :
    e.Operation e'
  | registerScript (s : ScriptDefinition) : e.Operation (e.registerScript s)
  | loadLibrary (l : ScriptLibrary) : e.Operation (e.loadLibrary l).2
  | submit {group name id : String} {actions : List Action} {priority : Option Int} {now : Instant}
    {e' : Engine} (h : e.submit group name actions priority now = .ok (id, e')) : e.Operation e'
  | submitScript {group script id : String} {priority : Option Int} {now : Instant} {e' : Engine}
    (h : e.submitScript group script priority now = .ok (id, e')) : e.Operation e'
  | submitDefinition (group : String) (s : ScriptDefinition) (priority : Option Int) (now : Instant) :
    e.Operation (e.submitDefinition group s priority now).2
  | cancel {task : String} {now : Instant} {e' : Engine} (h : e.cancel task now = some e') : e.Operation e'
  | tick (c : Clock) : e.Operation (e.tick c).2
  | openRun (group script : String) (actions : List Action) (vars : Variables)
    (exceptionScript : Option String) (c : Clock) :
    e.Operation (e.openRun group script actions vars exceptionScript c).2
  | beginRun (n : ℕ) (c : Clock) : e.Operation (e.beginRun n c)
  | carryOn {r : EngineRun} {left : Process RunEnd} (h_r : r ∈ e.runs) (h_begun : r.begunAt.isSome = true)
    (h_left : r.Resumes left) (c : Clock) : e.Operation (e.carryOn r.number left c)
  | finish {n : ℕ} {c : Clock} {report : RunReport} {e' : Engine} (h : e.finish n c = some (report, e')) :
    e.Operation e'
  | pause (paused : Bool) : e.Operation { e with paused := paused }
  | start {e' : Engine} (h : e.start = .ok e') : e.Operation e'
  | stopAll : e.Operation e.stopAll.2
  | beginShutdown : e.Operation e.beginShutdown
  | sweep (c : Clock) : e.Operation (e.sweep c).2

/-- What operations lead to, from an engine in which nothing has happened yet. -/
def Reachable (settings : EngineSettings) (e : Engine) : Prop :=
  Relation.ReflTransGen Operation { settings := settings } e

/-- Some moves lead from one engine to another. They leave behind no task that was given out and is not
launched, and submit no task to a queue whose group was removed. -/
def MovesTo (e e' : Engine) : Prop :=
  ∀ y : Yard, y.Ordered → y.engine = e → ∃ moves, (y.run moves).engine = e' ∧
    (y.run moves).handed = y.handed ∧ ∀ m ∈ moves, ∀ p ∈ m.submits?, ¬ e.Unlisted p

variable {e e' e'' : Engine} {p : ℕ} {q q' : GroupQueue}

namespace MovesTo

theorem refl (e : Engine) : e.MovesTo e :=
  fun _ _ h_e => ⟨[], h_e, rfl, fun _ h_m => absurd h_m List.not_mem_nil⟩

theorem trans (h : e.MovesTo e') (h' : e'.MovesTo e'') : e.MovesTo e'' := by
  intro y h_y h_e
  obtain ⟨moves, h_moves, h_handed, h_submits⟩ := h y h_y h_e
  obtain ⟨more, h_more, h_handed', h_submits'⟩ := h' (y.run moves) (h_y.run moves) h_moves
  refine ⟨moves ++ more, ?_, ?_, fun m h_m p h_p h_unlisted => ?_⟩
  · rw [Yard.run, List.foldl_append]
    exact h_more
  · rw [Yard.run, List.foldl_append]
    exact h_handed'.trans h_handed
  · rcases List.mem_append.mp h_m with h_m | h_m
    · exact h_submits m h_m p h_p h_unlisted
    · -- a group that was removed at first is removed still
      refine h_submits' m h_m p h_p ?_
      rw [← h_moves]
      exact Yard.unlisted_run (h_e ▸ h_unlisted) moves

theorem single (m : Move) (h_submits : ∀ p ∈ m.submits?, ¬ e.Unlisted p)
    (h : ∀ y : Yard, y.Ordered → y.engine = e → (y.step m).engine = e' ∧ (y.step m).handed = y.handed) :
    e.MovesTo e' :=
  fun y h_y h_e => ⟨[m], (h y h_y h_e).1, (h y h_y h_e).2, List.forall_mem_singleton.mpr h_submits⟩

/-- One move that submits nothing. -/
theorem move (m : Move) (h_none : m.submits? = none)
    (h : ∀ y : Yard, y.Ordered → y.engine = e → (y.step m).engine = e' ∧ (y.step m).handed = y.handed) :
    e.MovesTo e' :=
  single m (fun p h_p => by rw [h_none] at h_p; cases h_p) h

theorem operate (m : Move) (op : QueueOp) (h_none : m.submits? = none)
    (h_move : ∀ y : Yard, y.step m = y.operate p op) (h_at : e.queueAt p = some q) :
    e.MovesTo ((e.setQueue p (q.after op)).stopFired (q.tells op)) := by
  refine move m h_none ?_
  rintro y - rfl
  rw [h_move]
  unfold Yard.operate
  rw [h_at]
  exact ⟨rfl, rfl⟩

/-- An operation of a queue that fires no token. -/
theorem quietly (m : Move) (op : QueueOp) (h_none : m.submits? = none)
    (h_move : ∀ y : Yard, y.step m = y.operate p op) (h_at : e.queueAt p = some q)
    (h_quiet : ∀ k, .fired k ∉ q.tells op) : e.MovesTo (e.setQueue p (q.after op)) := by
  have h := operate m op h_none h_move h_at
  rw [stopFired_of_quiet _ h_quiet] at h
  exact h

end MovesTo

/-! ### Groups -/

theorem queue?_eq (e : Engine) (group : String) : e.queue? group = (e.place? group).bind e.queueAt := by
  unfold queue? listedQueues place?
  rw [List.find?_map, List.find?_filter]
  simp only [Bool.decide_and, Bool.decide_eq_true, Function.comp_apply]
  rw [List.find?_eq_bind_findIdx?_getElem?, Option.map_bind]
  rfl

/-- A group that has a place has a queue, whose id it is. -/
theorem queue_of_place? {group : String} (h_place : e.place? group = some p) :
    ∃ q, e.queue group = .ok q ∧ e.queueAt p = some q ∧ q.id = group := by
  obtain ⟨h_lt, h_here, -⟩ := List.findIdx?_eq_some_iff_getElem.mp h_place
  have h_at : e.queueAt p = some e.queues[p].queue :=
    queueAt_eq_some.mpr ⟨_, List.getElem?_eq_getElem h_lt, rfl⟩
  have h_queue : e.queue group = .ok e.queues[p].queue := by
    unfold queue
    rw [queue?_eq, h_place, Option.bind_some, h_at]
  exact ⟨_, h_queue, h_at, beq_iff_eq.mp (Bool.and_eq_true_iff.mp h_here).2⟩

theorem not_unlisted_of_place? {group : String} (h_place : e.place? group = some p) : ¬ e.Unlisted p := by
  rintro ⟨g, h_p⟩
  obtain ⟨h_lt, h_here, -⟩ := List.findIdx?_eq_some_iff_getElem.mp h_place
  have h_listed : e.queues[p].listed = true := (Bool.and_eq_true_iff.mp h_here).1
  simp [labels, List.getElem?_eq_getElem h_lt, h_listed] at h_p

/-- A group that has a place is changed there. -/
theorem withQueue_of_place? {group : String} (f : GroupQueue → Except EngineError GroupQueue)
    (h_place : e.place? group = some p) (h_at : e.queueAt p = some q) :
    e.withQueue group f = (f q).map (e.setQueue p) := by
  obtain ⟨q', h_queue, h_at', -⟩ := queue_of_place? h_place
  obtain rfl : q' = q := Option.some.inj (h_at'.symm.trans h_at)
  unfold withQueue
  rw [h_place, h_queue]
  simp only [bind, Except.bind]
  cases f q' <;> rfl

theorem withQueue_of_no_place {group : String} (f : GroupQueue → Except EngineError GroupQueue)
    (h_place : e.place? group = none) : e.withQueue group f = .error (.groupNotFound group) := by
  unfold withQueue
  rw [h_place]
  rfl

/-- A group that is changed has another queue at its place. -/
theorem withQueue_eq_ok {group : String} {f : GroupQueue → Except EngineError GroupQueue}
    (h : e.withQueue group f = .ok e') :
    ∃ p q q', e.queueAt p = some q ∧ f q = .ok q' ∧ e' = e.setQueue p q' := by
  cases h_place : e.place? group with
  | none =>
    rw [withQueue_of_no_place f h_place] at h
    cases h
  | some p =>
    obtain ⟨q, -, h_at, -⟩ := queue_of_place? h_place
    rw [withQueue_of_place? f h_place h_at] at h
    cases h_f : f q with
    | error err =>
      rw [h_f] at h
      cases h
    | ok q' =>
      rw [h_f] at h
      cases h
      exact ⟨p, q, q', h_at, h_f, rfl⟩

/-- The engine with the queue of a new group behind the others. -/
def pushQueue (e : Engine) (q : GroupQueue) : Engine := { e with queues := e.queues ++ [⟨q, true⟩] }

theorem queueAt_pushQueue_self (e : Engine) (q : GroupQueue) :
    (e.pushQueue q).queueAt e.queues.length = some q := by
  simp [queueAt, pushQueue]

/-- A new group is the last one, so that a change of it leaves all others alone. -/
theorem setQueue_pushQueue (e : Engine) (q q' : GroupQueue) :
    (e.pushQueue q).setQueue e.queues.length q' = e.pushQueue q' := by
  simp [setQueue, pushQueue, List.modify_eq_take_cons_drop]

/-- A new group is found. -/
theorem place?_pushQueue_self (h_new : e.queue? q.id = none) :
    (e.pushQueue q).place? q.id = some e.queues.length := by
  have h_none : e.place? q.id = none := by
    cases h_place : e.place? q.id with
    | none => rfl
    | some p =>
      obtain ⟨q', -, h_at, -⟩ := queue_of_place? h_place
      rw [queue?_eq, h_place, Option.bind_some, h_at] at h_new
      cases h_new
  unfold place? pushQueue at *
  rw [List.findIdx?_append, h_none]
  simp

theorem addQueue_of_new (h_new : e.queue? q.id = none) : e.addQueue q = .ok (e.pushQueue q) := by
  unfold addQueue
  rw [h_new]
  rfl

theorem addQueue_of_old (h_old : e.queue? q.id = some q') : e.addQueue q = .error (.groupExists q.id) := by
  unfold addQueue
  rw [h_old]
  rfl

/-- A queue is added only where there is none of its id. -/
theorem addQueue_eq_ok (h : e.addQueue q = .ok e') : e.queue? q.id = none ∧ e' = e.pushQueue q := by
  cases h_new : e.queue? q.id with
  | some q' =>
    rw [addQueue_of_old h_new] at h
    cases h
  | none =>
    rw [addQueue_of_new h_new] at h
    exact ⟨rfl, (Except.ok.inj h).symm⟩

def definedQueue (e : Engine) (g : GroupDefinition) : GroupQueue :=
  { e.freshQueue g.id g.displayName with enabled := g.enabled, exceptionScript := g.exceptionScript }

/-- The engine with the queues of some groups, as they are defined, behind the others. -/
def pushGroups (e : Engine) (groups : List GroupDefinition) : Engine :=
  { e with queues := e.queues ++ groups.map fun g => ⟨e.definedQueue g, true⟩ }

theorem pushGroups_cons (e : Engine) (g : GroupDefinition) (groups : List GroupDefinition) :
    e.pushGroups (g :: groups) = (e.pushQueue (e.definedQueue g)).pushGroups groups := by
  simp [pushGroups, pushQueue, definedQueue, freshQueue]

/-- Groups are created all, or up to one that exists already. -/
theorem addGroups_cases (groups : List GroupDefinition) (e : Engine) :
    e.addGroups groups = (.ok (), e.pushGroups groups) ∨
      ∃ made g rest, groups = made ++ g :: rest ∧ ((e.pushGroups made).queue? g.id).isSome = true ∧
        e.addGroups groups = (.error (.groupExists g.id), e.pushGroups made) := by
  -- by the groups: the first one exists already, or it is pushed and the rest are added behind it
  induction groups generalizing e with
  | nil =>
    left
    simp [addGroups, pushGroups]
  | cons g groups ih =>
    cases h : e.queue? g.id with
    | some q =>
      have h_old : e.addGroup g = .error (.groupExists g.id) := addQueue_of_old (q := e.definedQueue g) h
      exact .inr ⟨[], g, groups, rfl, by simp [pushGroups, h], by simp [addGroups, h_old, pushGroups]⟩
    | none =>
      have h_new : e.addGroup g = .ok (e.pushQueue (e.definedQueue g)) :=
        addQueue_of_new (q := e.definedQueue g) h
      have h_rest : e.addGroups (g :: groups) = (e.pushQueue (e.definedQueue g)).addGroups groups := by
        simp [addGroups, h_new]
      rw [h_rest, pushGroups_cons]
      refine (ih (e.pushQueue (e.definedQueue g))).imp_right ?_
      rintro ⟨made, g', rest, rfl, h_exists, h_refused⟩
      rw [← pushGroups_cons] at h_exists h_refused
      exact ⟨g :: made, g', rest, rfl, h_exists, h_refused⟩

theorem operation_createGroup {id name : String} (h : e.createGroup id name = .ok e') : e.MovesTo e' := by
  refine .move (.createGroup id name) rfl ?_
  rintro y - rfl
  simp only [Yard.step, h]
  exact ⟨trivial, trivial⟩

/-- A group that is defined is created and then changed, as its definition says. -/
theorem operation_addGroup {g : GroupDefinition} (h : e.addGroup g = .ok e') : e.MovesTo e' := by
  obtain ⟨h_new, rfl⟩ := addQueue_eq_ok (q := e.definedQueue g) h
  -- the queue that is put in has its switches at once; the moves make it plain and set them
  have h_create : e.createGroup g.id g.displayName = .ok (e.pushQueue (e.freshQueue g.id g.displayName)) :=
    addQueue_of_new h_new
  refine (operation_createGroup h_create).trans ?_
  have h_enabled := MovesTo.quietly (.setEnabled e.queues.length g.enabled) (.setEnabled g.enabled)
    rfl (fun _ => rfl) (e.queueAt_pushQueue_self (e.freshQueue g.id g.displayName)) fun _ => List.not_mem_nil
  rw [setQueue_pushQueue] at h_enabled
  refine h_enabled.trans ?_
  have h_script := MovesTo.quietly (.setExceptionScript e.queues.length g.exceptionScript)
    (.setExceptionScript g.exceptionScript) rfl (fun _ => rfl)
    (e.queueAt_pushQueue_self ((e.freshQueue g.id g.displayName).after (.setEnabled g.enabled)))
    fun _ => List.not_mem_nil
  rw [setQueue_pushQueue] at h_script
  exact h_script

theorem operation_catalog (scripts : Fields ScriptDefinition) : e.MovesTo { e with scripts := scripts } := by
  refine .move (.catalog scripts) rfl ?_
  rintro y - rfl
  exact ⟨rfl, rfl⟩

theorem foldl_registerScript (scripts : List ScriptDefinition) (e : Engine) :
    scripts.foldl registerScript e =
      { e with scripts := scripts.foldl (fun scripts s => scripts.insert s.id s) e.scripts } := by
  induction scripts generalizing e with
  | nil => rfl
  | cons s scripts ih => exact ih (e.registerScript s)

/-- Groups and scripts of a library, one after the other. -/
theorem operation_loadLibrary (l : ScriptLibrary) : e.MovesTo (e.loadLibrary l).2 := by
  -- both parts by induction over what is left to load
  have h_scripts : ∀ (scripts : List ScriptDefinition) (e : Engine),
      e.MovesTo (scripts.foldl registerScript e) := by
    intro scripts
    induction scripts with
    | nil => exact fun e => .refl e
    | cons s scripts ih =>
      exact fun e => (operation_catalog (e.scripts.insert s.id s)).trans (ih (e.registerScript s))
  have h_groups : ∀ (groups : List GroupDefinition) (e : Engine), e.MovesTo (e.addGroups groups).2 := by
    intro groups
    induction groups with
    | nil => exact fun e => .refl e
    | cons g groups ih =>
      intro e
      unfold addGroups
      split
      · next e' h => exact (operation_addGroup h).trans (ih e')
      · exact .refl e
  exact (h_scripts l.scripts e).trans (h_groups l.groups _)

theorem operation_cancelRuns (which : EngineRun → Bool) : e.MovesTo (e.cancelRuns which) := by
  refine .move (.stop which) rfl ?_
  rintro y - rfl
  exact ⟨rfl, rfl⟩

/-- The token that the outcome of a cancellation names is the one that the queue fires. -/
theorem stopFired_eq_fire {evs : List Event} {o : CancelOutcome}
    (h : ∀ k, .fired k ∈ evs ↔ ∃ run, o = .requested run (some k)) : e.stopFired evs = e.fire o := by
  cases o with
  | removed => exact stopFired_of_quiet e fun k h_k => by simpa using (h k).mp h_k
  | requested run token =>
    cases token with
    | none => exact stopFired_of_quiet e fun k h_k => by simpa using (h k).mp h_k
    | some token =>
      unfold stopFired
      -- both cancel the run whose number the token has
      refine congrArg e.cancelRuns (funext fun r => ?_)
      rw [Bool.eq_iff_iff, decide_eq_true_iff, h, beq_iff_eq]
      constructor
      · rintro ⟨run', h_eq⟩
        cases h_eq
        rfl
      · intro h_number
        rw [h_number]
        exact ⟨run, rfl⟩

/-- The engine fires the token that the cancellation of all tasks of a queue names. -/
theorem stopFired_cancelAll (e : Engine) (q : GroupQueue) (now : Instant) :
    e.stopFired (q.tells (.cancelAll now)) = match (q.cancelAll now).1 with
      | some o => e.fire o
      | none => e := by
  cases h_all : (q.cancelAll now).1 with
  | none => exact stopFired_of_quiet e (by simp [GroupQueue.tells, h_all])
  | some o =>
    refine stopFired_eq_fire fun k => ?_
    simp only [GroupQueue.tells, h_all]
    cases o with
    | removed => simp
    | requested run token => cases token <;> simp [eq_comm]

/-- A group that is removed is taken out of those that exist; its tasks are cancelled, and then its live runs
are told to stop. -/
theorem removeGroup_eq_ok {group : String} (now : Instant) (h_place : e.place? group = some p)
    (h_at : e.queueAt p = some q) :
    e.removeGroup group now = .ok ((((e.unlist p).setQueue p (q.after (.cancelAll now))).stopFired
      (q.tells (.cancelAll now))).cancelRuns fun r => r.isLive && r.info.group == group) := by
  obtain ⟨q', h_queue, h_at', -⟩ := queue_of_place? h_place
  obtain rfl : q' = q := Option.some.inj (h_at'.symm.trans h_at)
  have h_same : (e.unlist p).setQueue p (q'.after (.cancelAll now)) =
      { e with queues := e.queues.modify p fun _ => ⟨(q'.cancelAll now).2, false⟩ } := by
    simp only [unlist, setQueue, List.modify_modify_eq]
    rfl
  rw [h_same, stopFired_cancelAll]
  unfold removeGroup
  rw [h_place, h_queue]
  rfl

theorem removeGroup_eq_error {group : String} (now : Instant) (h_place : e.place? group = none) :
    e.removeGroup group now = .error (.groupNotFound group) := by
  unfold removeGroup
  rw [h_place]
  rfl

/-- Each of the three parts of the removal of a group is a move. -/
theorem operation_removeGroup {group : String} {now : Instant} (h : e.removeGroup group now = .ok e') :
    e.MovesTo e' := by
  cases h_place : e.place? group with
  | none =>
    rw [removeGroup_eq_error now h_place] at h
    cases h
  | some p =>
    obtain ⟨q, -, h_at, -⟩ := queue_of_place? h_place
    rw [removeGroup_eq_ok now h_place h_at] at h
    cases h
    rw [← queueAt_unlist e p] at h_at
    -- the queue leaves the list, its tasks are cancelled, then the runs of the group
    refine .trans (.move (.unlist p) rfl ?_) (.trans
      (.operate (.cancelAll p now) (.cancelAll now) rfl (fun _ => rfl) h_at) (operation_cancelRuns _))
    rintro y - rfl
    exact ⟨rfl, rfl⟩

/-- A task of a group that exists is queued. -/
theorem submitTask_of_place? {t : Task} (h_place : e.place? t.group = some p) (h_at : e.queueAt p = some q) :
    e.submitTask t =
      .ok (t.id, { e.setQueue p (q.after (.enqueue t)) with issued := e.issued + 1 }) := by
  obtain ⟨q', -, h_at', h_id⟩ := queue_of_place? h_place
  obtain rfl : q' = q := Option.some.inj (h_at'.symm.trans h_at)
  have h_ok : q'.enqueue t = .ok (q'.after (.enqueue t)) := by
    simp [GroupQueue.after, GroupQueue.enqueue, h_id]
  unfold submitTask
  rw [withQueue_of_place? _ h_place h_at, h_ok]
  rfl

theorem submitTask_of_no_place {t : Task} (h_place : e.place? t.group = none) :
    e.submitTask t = .error (.groupNotFound t.group) := by
  unfold submitTask
  rw [withQueue_of_no_place _ h_place]
  rfl

/-- A script of the catalog is queued as a task. -/
theorem submitScript_of_get? {id : String} {script : ScriptDefinition} (h : e.scripts.get? id = some script)
    (group : String) (priority : Option Int) (now : Instant) :
    e.submitScript group id priority now = e.submitTask (e.taskOf script group priority now) := by
  unfold submitScript Engine.script
  rw [h]
  rfl

/-- A task is submitted only to a group that exists. -/
theorem operation_submitTask {t : Task} {id : String} (h_t : t.fresh (idText e.issued) = t)
    (h : e.submitTask t = .ok (id, e')) : e.MovesTo e' := by
  cases h_place : e.place? t.group with
  | none =>
    rw [submitTask_of_no_place h_place] at h
    cases h
  | some p =>
    obtain ⟨q, -, h_at, -⟩ := queue_of_place? h_place
    rw [submitTask_of_place? h_place h_at] at h
    cases h
    refine .single (.submit p t) (fun p' h_p' => ?_) ?_
    · cases h_p'
      exact not_unlisted_of_place? h_place
    · rintro y - rfl
      -- no run stops, as queueing fires no token
      have h_quiet : ∀ k, .fired k ∉ q.tells (.enqueue t) := by
        simp only [GroupQueue.tells]
        cases q.enqueue t <;> simp
      simp only [Yard.step, Yard.submit, Yard.operate, h_t, h_at, stopFired_of_quiet _ h_quiet]
      exact ⟨trivial, trivial⟩

theorem operation_submitScript {group script id : String} {priority : Option Int} {now : Instant}
    (h : e.submitScript group script priority now = .ok (id, e')) : e.MovesTo e' := by
  unfold submitScript at h
  cases h_script : e.script script with
  | error err =>
    rw [h_script] at h
    cases h
  | ok s =>
    rw [h_script] at h
    exact operation_submitTask rfl h

theorem operation_submitExceptionScript {group script id : String} {now : Instant}
    (h : e.submitExceptionScript group script now = .ok (id, e')) : e.MovesTo e' := by
  unfold submitExceptionScript at h
  cases h_script : e.script script with
  | error err =>
    rw [h_script] at h
    cases h
  | ok s =>
    rw [h_script] at h
    exact operation_submitTask rfl h

theorem operation_cancel {task : String} {now : Instant} (h : e.cancel task now = some e') :
    e.MovesTo e' := by
  simp only [cancel, Option.bind_eq_bind, Option.bind_eq_some_iff, Option.pure_def, Option.some.injEq] at h
  obtain ⟨p, -, x, h_p, ⟨outcome, q'⟩, h_cancel, rfl⟩ := h
  have h_move := MovesTo.operate (.cancel p task now) (.cancel task now) rfl (fun _ => rfl)
    (queueAt_eq_some.mpr ⟨x, h_p, rfl⟩)
  rw [stopFired_eq_fire (o := outcome)] at h_move
  · simp only [GroupQueue.after, h_cancel] at h_move
    exact h_move
  · intro k
    simp only [GroupQueue.tells, h_cancel]
    cases outcome with
    | removed => simp
    | requested run token => cases token <;> simp [eq_comm]

/-! ### A pass over the groups -/

/-- The task that is given out is launched at once. -/
theorem operation_dispatch {p : ℕ} {c : Clock} (h : e.dispatch p c = some e') : e.MovesTo e' := by
  simp only [dispatch, Option.bind_eq_bind, Option.bind_eq_some_iff, Option.pure_def] at h
  obtain ⟨x, h_p, h⟩ := h
  rw [Option.bind_none, Option.ite_none_left_eq_some, Option.bind_eq_some_iff] at h
  obtain ⟨-, ⟨t, q'⟩, h_deq, h_e⟩ := h
  cases h_e
  rintro y - rfl
  -- what is given out comes behind all tasks that are not launched yet, and is taken from there
  refine ⟨[.handOut p c.time, .launch y.handed.length c], ?_⟩
  have h_at : y.engine.queueAt p = some x.queue := queueAt_eq_some.mpr ⟨x, h_p, rfl⟩
  have h_quiet : ∀ k, .fired k ∉ x.queue.tells (.dequeue c.time) := by simp [GroupQueue.tells, h_deq]
  have h_after : x.queue.after (.dequeue c.time) = q' := by simp only [GroupQueue.after, h_deq]
  obtain ⟨h_engine, h_handed⟩ : (y.handOut p c.time).engine = y.engine.setQueue p q' ∧
      (y.handOut p c.time).handed = y.handed ++ [(p, t)] := by
    simp only [Yard.handOut, h_at, Option.bind_some, h_deq, Yard.operate, stopFired_of_quiet _ h_quiet,
      h_after]
    exact ⟨trivial, trivial⟩
  have h_last : (y.handOut p c.time).handed[y.handed.length]? = some (p, t) := by
    rw [h_handed, List.getElem?_concat_length]
  show ((y.handOut p c.time).launch y.handed.length c).engine = _ ∧
    ((y.handOut p c.time).launch y.handed.length c).handed = _ ∧ _
  unfold Yard.launch
  rw [h_last]
  refine ⟨congrArg (·.launch p t c) h_engine, ?_, by simp [Move.submits?]⟩
  simp [h_handed, List.eraseIdx_append_of_length_le]

theorem operation_tick (c : Clock) : e.MovesTo (e.tick c).2 := by
  -- the dispatches of the places follow one another
  have h_all : ∀ (places : List ℕ) (e : Engine), e.MovesTo (e.dispatchAll c places).2 := by
    intro places
    induction places with
    | nil => exact fun e => .refl e
    | cons p places ih =>
      intro e
      unfold dispatchAll
      split
      · next e' h => exact (operation_dispatch h).trans (ih e')
      · exact ih e
  unfold tick
  split
  · exact .refl e
  · exact h_all _ e

/-! ### Stops -/

theorem operation_switch (paused started : Bool) :
    e.MovesTo { e with paused := paused, started := started } := by
  refine .move (.switch paused started) rfl ?_
  rintro y - rfl
  exact ⟨rfl, rfl⟩

/-- For each run that has stalled its script is queued, if that succeeds, and the run is told to stop. -/
theorem operation_sweep (c : Clock) : e.MovesTo (e.sweep c).2 := by
  have h_stall : ∀ (s : Stall) (e : Engine), e.MovesTo (e.handleStall s c) := by
    intro s e
    unfold handleStall
    -- a run without such a script, or whose script is not known, is only told to stop
    cases h_queued : s.run.exceptionScript.bind fun script =>
        (e.submitExceptionScript s.run.group script c.time).toOption with
    | none => exact operation_cancelRuns _
    | some x =>
      obtain ⟨script, -, h⟩ := Option.bind_eq_some_iff.mp h_queued
      refine MovesTo.trans ?_ (operation_cancelRuns _)
      cases h_submit : e.submitExceptionScript s.run.group script c.time with
      | error err =>
        rw [h_submit] at h
        cases h
      | ok y =>
        rw [h_submit] at h
        cases h
        exact operation_submitExceptionScript h_submit
  have h_all : ∀ (stalls : List Stall) (e : Engine),
      e.MovesTo (stalls.foldl (fun e s => e.handleStall s c) e) := by
    intro stalls
    induction stalls with
    | nil => exact fun e => .refl e
    | cons s stalls ih => exact fun e => (h_stall s e).trans (ih (e.handleStall s c))
  exact h_all _ e

/-! ### Runs that are carried on -/

theorem updateRun_congr {n : ℕ} {f g : EngineRun → EngineRun}
    (h : ∀ r ∈ e.runs, r.number = n → f r = g r) : e.updateRun n f = e.updateRun n g := by
  unfold updateRun
  refine congrArg (fun runs => { e with runs := runs }) (List.map_congr_left fun r h_r => ?_)
  by_cases h_eq : r.number = n
  · simp only [h_eq, BEq.rfl, if_true, h r h_r h_eq]
  · simp only [beq_iff_eq, h_eq, if_false]

theorem updateRun_self {n : ℕ} {f : EngineRun → EngineRun} (h : ∀ r ∈ e.runs, r.number = n → f r = r) :
    e.updateRun n f = e := by
  rw [updateRun_congr (g := fun r => r) h]
  unfold updateRun
  simp only [ite_self, List.map_id']

theorem updateRun_updateRun (e : Engine) {n : ℕ} {f g : EngineRun → EngineRun}
    (h : ∀ r, (f r).number = r.number) : (e.updateRun n f).updateRun n g = e.updateRun n fun r => g (f r) := by
  unfold updateRun
  simp only [List.map_map]
  refine congrArg (fun runs => { e with runs := runs }) (List.map_congr_left fun r _ => ?_)
  by_cases h_eq : r.number = n
  · simp only [Function.comp_apply, h_eq, BEq.rfl, if_true, h]
  · simp only [Function.comp_apply, beq_iff_eq, h_eq, if_false]

section Run

variable {r : EngineRun} {s : Process RunEnd × RunContext} {left : Process RunEnd}

theorem leftWith_mem (h_r : r ∈ e.runs) (s : Process RunEnd × RunContext) :
    r.leftWith s ∈ (e.updateRun r.number (·.leftWith s)).runs :=
  List.mem_map.mpr ⟨r, h_r, if_pos BEq.rfl⟩

theorem leftWith_leftWith (e : Engine) (n : ℕ) (s s' : Process RunEnd × RunContext) :
    (e.updateRun n (·.leftWith s)).updateRun n (·.leftWith s') = e.updateRun n (·.leftWith s') :=
  updateRun_updateRun e fun _ => rfl

/-- One move of a live run. -/
theorem operation_goOn (m : Move) (h_none : m.submits? = none)
    {f : EngineRun → Option (Process RunEnd × RunContext)}
    (h_move : ∀ y : Yard, y.step m = y.goOn r.number f) (h_r : r ∈ e.runs) (h_live : r.isLive = true)
    (h_f : f r = some s) : e.MovesTo (e.updateRun r.number (·.leftWith s)) := by
  refine .move m h_none ?_
  rintro y h rfl
  rw [h_move, h.goOn_eq h_r h_live h_f]
  exact ⟨rfl, rfl⟩

theorem operation_stay (h_r : r ∈ e.runs) :
    e.MovesTo (e.updateRun r.number (·.leftWith (r.process, r.context))) := by
  rintro y h rfl
  refine ⟨[], (updateRun_self fun r' h_r' h_eq => ?_).symm, rfl, fun _ h_m => absurd h_m List.not_mem_nil⟩
  rw [h.sound.eq_of_number_eq h_r' h_r h_eq]
  rfl

/-- A live run goes so many steps on. -/
theorem operation_advances (now : Moment) (k : ℕ) (h_r : r ∈ e.runs) (h_begun : r.begunAt.isSome = true) :
    e.MovesTo (e.updateRun r.number (·.leftWith (Process.advances now k (r.process, r.context)))) := by
  induction k generalizing e r with
  | zero => exact operation_stay h_r
  | succ k ih =>
    unfold Process.advances
    cases h_adv : r.process.advance now r.context with
    | none => exact operation_stay h_r
    | some s =>
      -- a run that is at its end does not go on
      have h_live : r.isLive = true := by
        cases h_process : r.process with
        | done x =>
          rw [h_process] at h_adv
          cases h_adv
        | _ => simp [EngineRun.isLive, h_begun, h_process, Process.end?]
      have h_step : e.MovesTo (e.updateRun r.number (·.leftWith s)) :=
        operation_goOn (.work r.number now) rfl (fun _ => rfl) h_r h_live h_adv
      refine h_step.trans ?_
      rw [← leftWith_leftWith e r.number s (Process.advances now k s)]
      exact ih (leftWith_mem h_r s) h_begun

/-- A live run goes on up to where it settles. -/
theorem operation_settle (h_r : r ∈ e.runs) (h_begun : r.begunAt.isSome = true) (now : Moment) :
    e.MovesTo (e.updateRun r.number (·.leftWith (r.process.settle now r.context))) := by
  obtain ⟨⟨k, h_k⟩, -⟩ := Process.settle_advances now r.process r.context
  rw [← h_k]
  exact operation_advances now k h_r h_begun

/-- **A run that is carried on** goes on in small steps up to where it settles. -/
theorem operation_carryOn (h_r : r ∈ e.runs) (h_begun : r.begunAt.isSome = true) (h_left : r.Resumes left)
    (c : Clock) : e.MovesTo (e.carryOn r.number left c) := by
  intro y h h_e
  -- the engine looks the run up by its number, which no other has
  have h_carry : e.carryOn r.number left c =
      e.updateRun r.number (·.leftWith (left.settle c.moment r.context)) := by
    refine updateRun_congr fun r' h_r' h_eq => ?_
    rw [h.sound.eq_of_number_eq (h_e ▸ h_r') (h_e ▸ h_r) h_eq]
    rfl
  -- one move, and on from there
  have h_via : ∀ (m : Move) (f : EngineRun → Option (Process RunEnd × RunContext)),
      m.submits? = none → (∀ y : Yard, y.step m = y.goOn r.number f) → r.process.end? = none →
      f r = some (left, r.context) → e.MovesTo (e.carryOn r.number left c) := by
    intro m f h_none h_move h_end h_f
    have h_live : r.isLive = true := by simp [EngineRun.isLive, h_begun, h_end]
    refine (operation_goOn m h_none h_move h_r h_live h_f).trans ?_
    rw [h_carry, ← leftWith_leftWith e r.number (left, r.context) (left.settle c.moment r.context)]
    exact operation_settle (leftWith_mem h_r _) h_begun c.moment
  suffices h_moves : e.MovesTo (e.carryOn r.number left c) from h_moves y h h_e
  cases h_left with
  | start =>
    rw [h_carry]
    exact operation_settle h_r h_begun c.moment
  | @replied request k h_call reply =>
    -- the move has a reply to all requests, of which the one to this call is used
    refine h_via (.reply r.number fun request' =>
      if h : request' = request then h ▸ reply else .error (.notFound "")) _ rfl (fun _ => rfl) ?_ ?_
    · rw [h_call]
      rfl
    · simp only [h_call, Process.reply, dif_pos, Option.map_some]
  | @woken time k h_sleep =>
    by_cases h_cancelled : r.context.cancelled = true
    · -- the sleep of a cancelled run ends in the first step
      have h_settle : (k !r.context.cancelled).settle c.moment r.context =
          r.process.settle c.moment r.context := by
        rw [h_sleep, Process.settle, if_pos h_cancelled, h_cancelled]
        rfl
      rw [h_carry, h_settle]
      exact operation_settle h_r h_begun c.moment
    · refine h_via (.wake r.number) _ rfl (fun _ => rfl) ?_ ?_
      · rw [h_sleep]
        rfl
      · rw [h_sleep, Bool.of_not_eq_true h_cancelled]
        rfl

end Run

/-! ### All operations -/

/-- **Every operation of an engine** is some moves in a row. -/
theorem Operation.movesTo (h : e.Operation e') : e.MovesTo e' := by
  cases h with
  | createGroup h => exact operation_createGroup h
  | addGroup h => exact operation_addGroup h
  | setGroupEnabled h =>
    rename_i group enabled
    -- a switch of a group is a quiet operation of its queue
    obtain ⟨p, q, q', h_at, h_q', rfl⟩ := withQueue_eq_ok h
    cases h_q'
    exact .quietly (.setEnabled p enabled) (.setEnabled enabled) rfl (fun _ => rfl) h_at
      fun _ => List.not_mem_nil
  | @setExceptionScript group script _ h =>
    unfold Engine.setExceptionScript at h
    split at h
    · cases h
    · obtain ⟨p, q, q', h_at, h_q', rfl⟩ := withQueue_eq_ok h
      cases h_q'
      exact .quietly (.setExceptionScript p script) (.setExceptionScript script) rfl (fun _ => rfl) h_at
        fun _ => List.not_mem_nil
  | removeGroup h => exact operation_removeGroup h
  | registerScript s => exact operation_catalog (e.scripts.insert s.id s)
  | loadLibrary l => exact operation_loadLibrary l
  | submit h => exact operation_submitTask rfl h
  | submitScript h => exact operation_submitScript h
  | submitDefinition group s priority now =>
    -- the script stays in the catalog also where its submission is refused
    refine (operation_catalog (e.scripts.insert s.id s)).trans ?_
    simp only [Engine.submitDefinition]
    split
    · next h => exact operation_submitScript h
    · exact .refl _
  | cancel h => exact operation_cancel h
  | tick c => exact operation_tick c
  | openRun group script actions vars exceptionScript c =>
    refine .move (.openRun group script actions vars exceptionScript c) rfl ?_
    rintro y - rfl
    exact ⟨rfl, rfl⟩
  | beginRun n c =>
    refine .move (.begin n c) rfl ?_
    rintro y - rfl
    exact ⟨rfl, rfl⟩
  | carryOn h_r h_begun h_left c => exact operation_carryOn h_r h_begun h_left c
  | @finish n c report _ h =>
    refine .move (.finish n c) rfl ?_
    rintro y - rfl
    simp only [Yard.step, Yard.finish, h]
    exact ⟨trivial, trivial⟩
  | pause paused => exact operation_switch paused e.started
  | start h =>
    unfold Engine.start at h
    split at h
    · cases h
    · cases h
      exact operation_switch e.paused true
  | stopAll => exact operation_cancelRuns _
  | beginShutdown => exact (operation_cancelRuns _).trans (operation_switch e.paused false)
  | sweep c => exact operation_sweep c

/-- Operations one after the other are moves one after the other. -/
theorem movesTo_of_operations (h : Relation.ReflTransGen Operation e e') : e.MovesTo e' := by
  induction h with
  | refl => exact .refl _
  | tail _ h_op ih => exact ih.trans h_op.movesTo

/-- Whatever operations lead to, moves do. -/
theorem Reachable.exists_moves {settings : EngineSettings} (h : Reachable settings e) :
    ∃ moves, ((Yard.idle settings).run moves).engine = e := by
  obtain ⟨moves, h_engine, -⟩ :=
    movesTo_of_operations h (Yard.idle settings) (Yard.Ordered.idle settings) rfl
  exact ⟨moves, h_engine⟩

end Engine

end ScriptYard
