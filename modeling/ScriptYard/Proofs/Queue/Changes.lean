import ScriptYard.Proofs.Queue.Operations
import ScriptYard.Run.Process

/-!
# What happens in an operation of a queue

An `Event` is what can be seen of a task from outside its queue: that its cancellation was granted, that
it was queued or started, that it came to its end and how, that a token was fired, and that a call was
made for it. `GroupQueue.tells` lists the events of an operation of a queue. They are read off the answers
of the operation.

`GroupQueue.Change` says in one place what an operation can do: one of its rules for each way in which it
succeeds, with the queue after it and the events, and one rule for all operations that are refused or find
nothing to do. That every operation is such a change (`GroupQueue.change`) is the only fact about the
operations that invariants of queues need, where it does not matter why an operation is refused.
-/

namespace ScriptYard

/-- What happens to a task. -/
inductive Event where
  /-- A cancellation of the task was granted. -/
  | granted (task : String)
  /-- The task was put among those that wait. -/
  | queued (task : String)
  /-- The task was given out, to be run. -/
  | started (task : String)
  /-- The task came to its end. -/
  | ended (task : String) (status : TaskStatus)
  /-- A queue fired a token. -/
  | fired (token : CancelToken)
  /-- A call began, in a run of the task or in a run without a task. -/
  | called (task : Option String) (request : Request)
deriving DecidableEq

namespace GroupQueue

/-- What happens in an operation. -/
def tells (q : GroupQueue) : QueueOp → List Event
  | .enqueue t => match q.enqueue t with
    | .ok _ => [.queued t.id]
    | .error _ => []
  | .dequeue now => match q.dequeue now with
    | some (t, _) => [.started t.id]
    | none => []
  | .attach t run token => if (q.attach t run token).1 then [.fired token] else []
  | .complete t outcome now => match q.complete t outcome now with
    | .ok (.retrying _, _) => [.queued t]
    | .ok (d, _) => [.ended t d.status]
    | .error _ => []
  | .cancel t now => match q.cancel t now with
    | some (.removed, _) => [.granted t, .ended t .cancelled]
    | some (.requested _ token, _) => .granted t :: token.toList.map .fired
    | none => []
  | .cancelAll now => (taskIds q.pending).map (.ended · .cancelled) ++
    match (q.cancelAll now).1 with
    | some (.requested _ token) => token.toList.map .fired
    | _ => []
  | .setEnabled _ | .setExceptionScript _ => []

/-- What an operation does to a queue, and what happens in it. -/
inductive Change (q : GroupQueue) : QueueOp → GroupQueue → List Event → Prop where
  /-- The operation is refused, or there is nothing to do. -/
  | nothing (op : QueueOp) : q.Change op q []
  | queued (t : Task) (h_group : t.group = q.id) :
    q.Change (.enqueue t) { q with pending := insertByPriority { t with status := .pending } q.pending }
      [.queued t.id]
  /-- A task that waits is given out. -/
  | started (now : Instant) (l₁ l₂ : List Task) (u : Task) (h_idle : q.running = none)
    (h_pending : q.pending = l₁ ++ u :: l₂) :
    q.Change (.dequeue now) { q with pending := l₁ ++ l₂, running := some (u.started now) }
      [.started u.id]
  /-- The queue is told of the run of the running task. -/
  | attached (u : Task) (run : String) (token : CancelToken) (h_run : q.running = some u) :
    q.Change (.attach u.id run token) { q with running := some (u.attached run token) }
      (if u.cancelRequested then [.fired token] else [])
  /-- The running task comes to its end. -/
  | ended (u v : Task) (d : Disposition) (outcome : TaskOutcome) (now : Instant) (h_run : q.running = some u)
    (h_id : v.id = u.id) (h_status : v.status = d.status) (h_flag : u.cancelRequested = true → d = .cancelled) :
    q.Change (.complete u.id outcome now) (({ q with running := none } : GroupQueue).archive v)
      [.ended u.id d.status]
  /-- The running task is queued again. -/
  | retried (u : Task) (f : Failure) (now : Instant) (h_run : q.running = some u)
    (h_req : u.cancelRequested = false) :
    q.Change (.complete u.id (.failed f) now)
      { q with
        running := none
        pending := insertByPriority
          { q.requeued { u with lastError := some f.error } now with status := .pending } q.pending }
      [.queued u.id]
  /-- A task that waits is cancelled. -/
  | withdrawn (l₁ l₂ : List Task) (u : Task) (now : Instant) (h_pending : q.pending = l₁ ++ u :: l₂) :
    q.Change (.cancel u.id now) (({ q with pending := l₁ ++ l₂ } : GroupQueue).archive (withdrawn u now))
      [.granted u.id, .ended u.id .cancelled]
  /-- The running task is marked as one that is to be cancelled. -/
  | marked (u : Task) (now : Instant) (h_none : ∀ x ∈ q.pending, x.id ≠ u.id) (h_run : q.running = some u)
    (h_req : u.cancelRequested = false) :
    q.Change (.cancel u.id now) { q with running := some { u with cancelRequested := true } }
      (.granted u.id :: u.token.toList.map .fired)
  /-- All tasks that wait are cancelled, and the running one is marked. -/
  | cleared (now : Instant) :
    q.Change (.cancelAll now)
      { ({ q with pending := [] } : GroupQueue).archiveAll (q.pending.map (withdrawn · now)) with
        running := q.flagged }
      ((taskIds q.pending).map (.ended · .cancelled) ++
        ((q.running.filter fun u => !u.cancelRequested).bind (·.token)).toList.map .fired)
  /-- Tasks of the queue are started or not. -/
  | enabled (b : Bool) : q.Change (.setEnabled b) { q with enabled := b } []
  /-- The script for the runs that stall is chosen. -/
  | scripted (script : Option String) :
    q.Change (.setExceptionScript script) { q with exceptionScript := script } []

/-- **Every operation is a change.** -/
theorem change (q : GroupQueue) (op : QueueOp) : q.Change op (q.after op) (q.tells op) := by
  cases op with
  | enqueue t =>
    simp only [after, tells]
    cases h : q.enqueue t with
    | error e => exact .nothing _
    | ok q' =>
      obtain ⟨h_group, rfl⟩ := enqueue_eq_ok_iff.mp h
      exact .queued t h_group
  | dequeue now =>
    simp only [after, tells]
    cases h : q.dequeue now with
    | none => exact .nothing _
    | some r =>
      obtain ⟨t, q'⟩ := r
      obtain ⟨-, h_idle, l₁, u, l₂, h_pending, -, -, rfl, rfl⟩ := dequeue_eq_some_iff.mp h
      exact .started now l₁ l₂ u h_idle h_pending
  | attach t run token =>
    simp only [after, tells]
    obtain ⟨u, h_run, rfl, h⟩ | ⟨-, h⟩ := attach_cases q t run token
    · rw [h]
      exact .attached u run token h_run
    · rw [h]
      exact .nothing _
  | complete t outcome now =>
    simp only [after, tells]
    cases h : q.complete t outcome now with
    | error e => exact .nothing _
    | ok r =>
      obtain ⟨d, q'⟩ := r
      obtain ⟨u, h_run, rfl, ⟨v, h_id, -, h_status, h_end, h_flag, rfl⟩ | ⟨f, rfl, rfl, h_req, rfl⟩⟩ :=
        complete_cases h
      · -- an end is no retry
        cases d with
        | retrying k => exact absurd h_end (by simp [Disposition.status, TaskStatus.isTerminal])
        | completed | failed | cancelled => exact .ended u v _ outcome now h_run h_id h_status h_flag
      · exact .retried u f now h_run h_req
  | cancel t now =>
    simp only [after, tells]
    cases h : q.cancel t now with
    | none => exact .nothing _
    | some r =>
      obtain ⟨o, q'⟩ := r
      obtain ⟨l₁, u, l₂, h_pending, rfl, -, rfl, rfl⟩ | ⟨h_none, u, h_run, rfl, h_req, rfl, rfl⟩ :=
        cancel_cases h
      · exact .withdrawn l₁ l₂ u now h_pending
      · exact .marked u now h_none h_run h_req
  | cancelAll now =>
    -- the answer names the token of the running task, if it was not marked before
    have h_fires : q.tells (.cancelAll now) = (taskIds q.pending).map (.ended · .cancelled) ++
        ((q.running.filter fun u => !u.cancelRequested).bind (·.token)).toList.map .fired := by
      simp only [tells, cancelAll_fst]
      cases q.running.filter fun u => !u.cancelRequested with
      | none => rfl
      | some u => rfl
    rw [h_fires]
    simp only [after, cancelAll_snd]
    exact .cleared now
  | setEnabled b => exact .enabled b
  | setExceptionScript script => exact .scripted script

/-- No operation changes the group of a queue, nor how many tasks it remembers. -/
theorem after_fixed (q : GroupQueue) (op : QueueOp) :
    (q.after op).id = q.id ∧ (q.after op).historyLimit = q.historyLimit := by
  have h_change := q.change op
  generalize q.after op = q', q.tells op = evs at h_change
  cases h_change with
  | cleared now => exact ⟨archiveAll_id _ _, archiveAll_historyLimit _ _⟩
  | _ => exact ⟨rfl, rfl⟩

end GroupQueue

end ScriptYard
