import ScriptYard.Proofs.Queue.Changes
import ScriptYard.Proofs.Queue.Conservation

/-!
# What is final for a task

Two conditions of a task in a queue are never left again. A task is `GroupQueue.Withdrawn` once a
cancellation of it was granted: it does not wait, it is marked if it is running, and it is cancelled if
it is remembered. It is `GroupQueue.Gone` once it came to its end: it neither waits nor runs. Every
operation keeps both (`GroupQueue.Withdrawn.after`, `GroupQueue.Gone.after`) unless a task is queued anew
under the same id, and while they hold no event happens that goes against them
(`GroupQueue.Withdrawn.tells`, `GroupQueue.Gone.tells`). A cancellation that is granted brings the first
about, the end of a task the second, if the queue keeps no two tasks of that id.

All of this rests on where the tasks of a queue come from and where its events come from, one case for
each `GroupQueue.Change`.
-/

namespace ScriptYard

namespace Event

/-- The event goes against a cancellation of the task that was granted before. -/
def Defies (t : String) : Event → Prop
  | .granted u | .queued u | .started u | .called (some u) _ => u = t
  | .ended u status => u = t ∧ status ≠ .cancelled
  | .fired _ | .called none _ => False

/-- The task whose place in its queue the event is about. -/
def subject : Event → Option String
  | .granted u | .queued u | .started u | .ended u _ => some u
  | .fired _ | .called .. => none

end Event

/-- The operation comes from outside: it neither gives a task out nor deals with the run of one. -/
def QueueOp.isOutside : QueueOp → Bool
  | .dequeue _ | .attach .. | .complete .. => false
  | _ => true

/-- Nobody asked for the end of the task, and no run of it is known. -/
def Task.Untouched (t : Task) : Prop := t.cancelRequested = false ∧ t.token = none

namespace GroupQueue

/-- A cancellation of the task was granted. -/
structure Withdrawn (q : GroupQueue) (t : String) : Prop where
  /-- The task does not wait. -/
  pending : ∀ u ∈ q.pending, u.id ≠ t
  /-- If it is running, it is marked. -/
  running : ∀ u ∈ q.running, u.id = t → u.cancelRequested = true
  /-- If it is remembered, it is cancelled. -/
  history : ∀ u ∈ q.history, u.id = t → u.status = .cancelled

/-- The task came to its end. -/
structure Gone (q : GroupQueue) (t : String) : Prop where
  /-- The task does not wait. -/
  pending : ∀ u ∈ q.pending, u.id ≠ t
  /-- It is not running. -/
  running : ∀ u ∈ q.running, u.id ≠ t

variable {q q' : GroupQueue} {op : QueueOp} {evs : List Event} {t : String} {u : Task}

/-- What an event of an operation tells of the queue before. -/
def Grounds (q : GroupQueue) (op : QueueOp) : Event → Prop
  | .granted t => (∃ now, op = .cancel t now) ∧
    ((∃ v ∈ q.pending, v.id = t) ∨ ∃ v ∈ q.running, v.id = t ∧ v.cancelRequested = false)
  | .queued t => t ∈ op.offered ∨ ∃ v ∈ q.running, v.id = t ∧ v.cancelRequested = false
  | .started t => ∃ v ∈ q.pending, v.id = t
  | .ended t status => (status = .cancelled ∧ ∃ v ∈ q.pending, v.id = t) ∨
    ∃ v ∈ q.running, v.id = t ∧ (v.cancelRequested = true → status = .cancelled)
  | .fired _ => True
  | .called .. => False

namespace Change

/-! ### Where tasks come from -/

/-- A task that waits after an operation waited before, or was just queued, or is the running one, which
nobody asked to end, and waits for its next attempt. -/
theorem pending_origin (h : q.Change op q' evs) (h_u : u ∈ q'.pending) :
    u ∈ q.pending ∨ (∃ v, op = .enqueue v ∧ u = { v with status := .pending }) ∨
      u.Untouched ∧ ∃ v ∈ q.running, v.id = u.id ∧ v.cancelRequested = false := by
  cases h with
  | queued v =>
    rcases mem_insertByPriority.mp h_u with rfl | h_u
    · exact .inr (.inl ⟨v, rfl, rfl⟩)
    · exact .inl h_u
  -- only a task that nobody asked to end is retried
  | retried v f now h_run h_req =>
    rcases mem_insertByPriority.mp h_u with rfl | h_u
    · exact .inr (.inr ⟨⟨h_req, rfl⟩, v, h_run, rfl, h_req⟩)
    · exact .inl h_u
  | started now l₁ l₂ v h_idle h_pending =>
    exact .inl (mem_pending_of_rest h_pending h_u)
  | withdrawn l₁ l₂ v now h_pending =>
    exact .inl (mem_pending_of_rest h_pending h_u)
  | cleared now =>
    rw [archiveAll_pending] at h_u
    exact absurd h_u List.not_mem_nil
  | _ => exact .inl h_u

/-- A task that is running after an operation was running before, and no mark was taken from it, or it
waited. -/
theorem running_origin (h : q.Change op q' evs) (h_u : u ∈ q'.running) :
    (∃ v ∈ q.running, v.id = u.id ∧ (v.cancelRequested = true → u.cancelRequested = true)) ∨
      ∃ v ∈ q.pending, v.id = u.id := by
  cases h with
  | started now l₁ l₂ v h_idle h_pending =>
    cases h_u
    exact .inr ⟨v, by simp [h_pending], rfl⟩
  | attached v run token h_run =>
    cases h_u
    exact .inl ⟨v, h_run, rfl, fun h => h⟩
  -- both leave the queue idle
  | ended | retried => cases h_u
  | marked v now h_none h_run h_req =>
    cases h_u
    exact .inl ⟨v, h_run, rfl, fun _ => rfl⟩
  | cleared now =>
    obtain ⟨v, h_run, rfl⟩ := Option.map_eq_some_iff.mp h_u
    exact .inl ⟨v, h_run, rfl, fun _ => rfl⟩
  | _ => exact .inl ⟨u, h_u, rfl, fun h => h⟩

/-- A task that is remembered after an operation was remembered before, or is cancelled, or was running
and nobody asked for its end. -/
theorem history_origin (h : q.Change op q' evs) (h_u : u ∈ q'.history) :
    u ∈ q.history ∨ u.status = .cancelled ∨ ∃ v ∈ q.running, v.id = u.id ∧ v.cancelRequested = false := by
  cases h with
  | ended v w d outcome now h_run h_id h_status h_flag =>
    rcases mem_remember h_u with rfl | h_u
    · -- a mark turns every outcome into a cancellation
      cases h_req : v.cancelRequested with
      | true => exact .inr (.inl (by rw [h_status, h_flag h_req]; rfl))
      | false => exact .inr (.inr ⟨v, h_run, h_id.symm, h_req⟩)
    · exact .inl h_u
  | withdrawn l₁ l₂ v now h_pending =>
    rcases mem_remember h_u with rfl | h_u
    · exact .inr (.inl rfl)
    · exact .inl h_u
  | cleared now =>
    rcases mem_archiveAll h_u with h_u | h_u
    · exact .inl h_u
    · obtain ⟨v, -, rfl⟩ := List.mem_map.mp h_u
      exact .inr (.inl rfl)
  | _ => exact .inl h_u

/-- A task that is remembered after an operation is one that the queue kept before. -/
theorem id_of_history (h : q.Change op q' evs) (h_u : u ∈ q'.history) : ∃ v ∈ q.tasks, v.id = u.id := by
  have h_old : ∀ v ∈ q.history, ∃ w ∈ q.tasks, w.id = v.id :=
    fun v h_v => ⟨v, mem_tasks.mpr (.inr (.inr h_v)), rfl⟩
  cases h with
  | ended v w d outcome now h_run h_id =>
    rcases mem_remember h_u with rfl | h_u
    · exact ⟨v, mem_tasks.mpr (.inl h_run), h_id.symm⟩
    · exact h_old u h_u
  | withdrawn l₁ l₂ v now h_pending =>
    rcases mem_remember h_u with rfl | h_u
    · exact ⟨v, mem_tasks.mpr (.inr (.inl (by simp [h_pending]))), rfl⟩
    · exact h_old u h_u
  | cleared now =>
    rcases mem_archiveAll h_u with h_u | h_u
    · exact h_old u h_u
    · obtain ⟨v, h_v, rfl⟩ := List.mem_map.mp h_u
      exact ⟨v, mem_tasks.mpr (.inr (.inl h_v)), rfl⟩
  | _ => exact h_old u h_u

/-- A task that a queue keeps after an operation was kept before, or was just offered. -/
theorem task_origin (h : q.Change op q' evs) (h_u : u ∈ q'.tasks) :
    (∃ v ∈ q.tasks, v.id = u.id) ∨ u.id ∈ op.offered := by
  rcases mem_tasks.mp h_u with h_u | h_u | h_u
  · rcases h.running_origin h_u with ⟨v, h_v, h_id, -⟩ | ⟨v, h_v, h_id⟩
    · exact .inl ⟨v, mem_tasks.mpr (.inl h_v), h_id⟩
    · exact .inl ⟨v, mem_tasks.mpr (.inr (.inl h_v)), h_id⟩
  · rcases h.pending_origin h_u with h_u | ⟨v, rfl, rfl⟩ | ⟨-, v, h_v, h_id, -⟩
    · exact .inl ⟨u, mem_tasks.mpr (.inr (.inl h_u)), rfl⟩
    · exact .inr (List.mem_singleton_self _)
    · exact .inl ⟨v, mem_tasks.mpr (.inl h_v), h_id⟩
  · exact .inl (h.id_of_history h_u)

/-! ### What becomes of the running task -/

/-- The running task after an operation from outside is the same as before, and no token was fired; or
it was marked, and its token was fired if it had one. -/
theorem running_outside (h : q.Change op q' evs) (h_out : op.isOutside = true) :
    q'.running = q.running ∧ (∀ k, .fired k ∉ evs) ∨
      ∃ u, q.running = some u ∧ u.cancelRequested = false ∧
        q'.running = some { u with cancelRequested := true } ∧
        ∀ k, .fired k ∈ evs ↔ u.token = some k := by
  cases h with
  | started | attached | ended | retried => cases h_out
  | marked u now h_none h_run h_req => exact .inr ⟨u, h_run, h_req, rfl, by simp⟩
  | cleared now =>
    simp only [flagged]
    cases h_run : q.running with
    | none => exact .inl ⟨rfl, by simp⟩
    | some u =>
      cases h_req : u.cancelRequested with
      | false => exact .inr ⟨u, rfl, h_req, rfl, by simp [Option.filter, h_req]⟩
      | true =>
        -- a second mark changes nothing, and the token is not fired again
        have h_same : ({ u with cancelRequested := true } : Task) = u := by rw [← h_req]
        exact .inl ⟨by rw [Option.map_some, h_same], by simp [Option.filter, h_req]⟩
  | _ => exact .inl ⟨rfl, by simp⟩

/-- The running task of a queue stays the running one, or it comes to its end, or it is queued again. -/
theorem running_fate (h : q.Change op q' evs) (h_run : q.running = some u) :
    (∃ v, q'.running = some v ∧ v.id = u.id) ∨ (∃ status, .ended u.id status ∈ evs) ∨ .queued u.id ∈ evs := by
  cases h with
  -- a queue starts nothing while it is busy
  | started now l₁ l₂ v h_idle =>
    rw [h_idle] at h_run
    cases h_run
  | attached v run token h_v =>
    cases h_v.symm.trans h_run
    exact .inl ⟨_, rfl, rfl⟩
  | ended v w d outcome now h_v =>
    cases h_v.symm.trans h_run
    exact .inr (.inl ⟨_, List.mem_singleton_self _⟩)
  | retried v f now h_v =>
    cases h_v.symm.trans h_run
    exact .inr (.inr (List.mem_singleton_self _))
  | marked v now h_none h_v =>
    cases h_v.symm.trans h_run
    exact .inl ⟨_, rfl, rfl⟩
  -- clearing the queue only marks the running task
  | cleared now =>
    refine .inl ⟨{ u with cancelRequested := true }, ?_, rfl⟩
    show q.flagged = _
    rw [flagged, h_run]
    rfl
  | _ => exact .inl ⟨u, h_run, rfl⟩

/-- A task that is queued waits. -/
theorem pending_of_queued (h : q.Change op q' evs) (h_t : .queued t ∈ evs) : ∃ v ∈ q'.pending, v.id = t := by
  cases h with
  | queued v | retried v =>
    cases List.mem_singleton.mp h_t
    exact ⟨_, mem_insertByPriority.mpr (.inl rfl), rfl⟩
  | attached => split at h_t <;> simp at h_t
  | _ => simp at h_t

/-! ### Where events come from -/

theorem grounds (h : q.Change op q' evs) {ev : Event} (h_ev : ev ∈ evs) : q.Grounds op ev := by
  cases h with
  | nothing | enabled | scripted => exact absurd h_ev List.not_mem_nil
  | queued v =>
    rw [List.mem_singleton.mp h_ev]
    exact .inl (List.mem_singleton_self _)
  | started now l₁ l₂ v h_idle h_pending =>
    rw [List.mem_singleton.mp h_ev]
    exact ⟨v, by simp [h_pending], rfl⟩
  | attached v run token h_run =>
    split at h_ev
    · rw [List.mem_singleton.mp h_ev]
      trivial
    · exact absurd h_ev List.not_mem_nil
  | ended v w d outcome now h_run h_id h_status h_flag =>
    rw [List.mem_singleton.mp h_ev]
    exact .inr ⟨v, h_run, rfl, fun h_req => by rw [h_flag h_req]; rfl⟩
  | retried v f now h_run h_req =>
    rw [List.mem_singleton.mp h_ev]
    exact .inr ⟨v, h_run, rfl, h_req⟩
  | withdrawn l₁ l₂ v now h_pending =>
    have h_v : ∃ w ∈ q.pending, w.id = v.id := ⟨v, by simp [h_pending], rfl⟩
    rcases List.mem_pair.mp h_ev with rfl | rfl
    · exact ⟨⟨now, rfl⟩, .inl h_v⟩
    · exact .inl ⟨rfl, h_v⟩
  | marked v now h_none h_run h_req =>
    rcases List.mem_cons.mp h_ev with rfl | h_ev
    · exact ⟨⟨now, rfl⟩, .inr ⟨v, h_run, rfl, h_req⟩⟩
    · obtain ⟨k, -, rfl⟩ := List.mem_map.mp h_ev
      trivial
  | cleared now =>
    -- this writes ends and no grants: nobody asked for one of these tasks
    rcases List.mem_append.mp h_ev with h_ev | h_ev
    · obtain ⟨i, h_i, rfl⟩ := List.mem_map.mp h_ev
      obtain ⟨v, h_v, rfl⟩ := List.mem_map.mp h_i
      exact .inl ⟨rfl, v, h_v, rfl⟩
    · obtain ⟨k, -, rfl⟩ := List.mem_map.mp h_ev
      trivial

/-- A cancellation that is granted ends a task that waits, at once, or leaves the running one running. -/
theorem granted_cases (h : q.Change op q' evs) (h_t : .granted t ∈ evs) :
    evs = [.granted t, .ended t .cancelled] ∨
      ∃ u, evs = .granted t :: u.token.toList.map .fired ∧ q'.running = some u ∧ u.id = t := by
  obtain ⟨⟨now, rfl⟩, -⟩ := h.grounds h_t
  cases h with
  | nothing => exact absurd h_t List.not_mem_nil
  | withdrawn => exact .inl rfl
  | marked v => exact .inr ⟨{ v with cancelRequested := true }, rfl, rfl, rfl⟩

end Change

/-! ### Tasks whose cancellation was granted -/

/-- In a queue that keeps no task of the id nothing goes against its cancellation. -/
theorem withdrawn_of_absent (h : ∀ u ∈ q.tasks, u.id ≠ t) : q.Withdrawn t where
  pending := fun u h_u => h u (mem_tasks.mpr (.inr (.inl h_u)))
  running := fun u h_u h_id => absurd h_id (h u (mem_tasks.mpr (.inl h_u)))
  history := fun u h_u h_id => absurd h_id (h u (mem_tasks.mpr (.inr (.inr h_u))))

namespace Withdrawn

/-- A cancellation that was granted stays so, if no task is queued anew under the id. -/
theorem after (h : q.Withdrawn t) (h_new : t ∉ op.offered) : (q.after op).Withdrawn t where
  pending := fun u h_u h_id => by
    rcases (q.change op).pending_origin h_u with h_u | ⟨v, rfl, rfl⟩ | ⟨-, v, h_v, h_eq, h_req⟩
    · exact h.pending u h_u h_id
    · exact h_new (by simp [QueueOp.offered, ← h_id])
    · -- a task that is marked is not retried
      rw [h.running v h_v (h_eq.trans h_id)] at h_req
      cases h_req
  running := fun u h_u h_id => by
    rcases (q.change op).running_origin h_u with ⟨v, h_v, h_eq, h_keep⟩ | ⟨v, h_v, h_eq⟩
    · exact h_keep (h.running v h_v (h_eq.trans h_id))
    · exact absurd (h_eq.trans h_id) (h.pending v h_v)
  history := fun u h_u h_id => by
    rcases (q.change op).history_origin h_u with h_u | h_u | ⟨v, h_v, h_eq, h_req⟩
    · exact h.history u h_u h_id
    · exact h_u
    · -- and it comes to no other end than this
      rw [h.running v h_v (h_eq.trans h_id)] at h_req
      cases h_req

/-- Nothing happens that goes against a cancellation that was granted. -/
theorem tells (h : q.Withdrawn t) (h_new : t ∉ op.offered) {ev : Event} (h_ev : ev ∈ q.tells op) :
    ¬ ev.Defies t := by
  -- the running task, if it is the one, is marked
  have h_marked : ¬ ∃ v ∈ q.running, v.id = t ∧ v.cancelRequested = false := by
    rintro ⟨v, h_v, h_id, h_req⟩
    rw [h.running v h_v h_id] at h_req
    cases h_req
  have h_idle : ¬ ∃ v ∈ q.pending, v.id = t := fun ⟨v, h_v, h_id⟩ => h.pending v h_v h_id
  have h_grounds := (q.change op).grounds h_ev
  -- every event about a task has its grounds in a place where the task would be kept
  cases ev with
  | granted i =>
    rintro rfl
    exact h_grounds.2.elim h_idle h_marked
  | queued i =>
    rintro rfl
    exact h_grounds.elim h_new h_marked
  | started i =>
    rintro rfl
    exact h_idle h_grounds
  | ended i status =>
    -- a marked task comes to no other end than as cancelled
    rintro ⟨rfl, h_status⟩
    rcases h_grounds with ⟨h_cancelled, -⟩ | ⟨v, h_v, h_id, h_flag⟩
    · exact h_status h_cancelled
    · exact h_status (h_flag (h.running v h_v h_id))
  | fired k => exact fun h => h
  | called task request => exact absurd h_grounds fun h => h

end Withdrawn

/-- In a queue that keeps no two tasks of the same id, those of different places differ. -/
theorem places_apart (h_once : (taskIds q.tasks).Nodup) :
    (taskIds q.pending).Nodup ∧ (∀ u ∈ q.running, ∀ v ∈ q.pending, u.id ≠ v.id) ∧
      ∀ u ∈ q.history, (∀ v ∈ q.pending, v.id ≠ u.id) ∧ ∀ v ∈ q.running, v.id ≠ u.id := by
  -- the tasks of the queue are its three places one behind the other
  have h_tasks : taskIds q.tasks = taskIds q.running.toList ++ taskIds q.pending ++
      taskIds q.history.reverse := by simp [tasks, taskIds]
  rw [h_tasks] at h_once
  obtain ⟨h_front, -, h_back⟩ := List.nodup_append.mp h_once
  obtain ⟨-, h_wait, h_busy⟩ := List.nodup_append.mp h_front
  have h_in : ∀ u ∈ q.running, u.id ∈ taskIds q.running.toList := fun u h_u => by
    simp [taskIds, Option.mem_def.mp h_u]
  refine ⟨h_wait, fun u h_u v h_v => h_busy u.id (h_in u h_u) v.id (List.mem_map_of_mem h_v),
    fun u h_u => ⟨fun v h_v => ?_, fun v h_v => ?_⟩⟩
  · exact h_back v.id (List.mem_append_right _ (List.mem_map_of_mem h_v)) u.id
      (List.mem_map_of_mem (List.mem_reverse.mpr h_u))
  · exact h_back v.id (List.mem_append_left _ (h_in v h_v)) u.id
      (List.mem_map_of_mem (List.mem_reverse.mpr h_u))

/-- Among those that wait, the others differ from the one that is taken out. -/
theorem ne_of_split {l₁ l₂ : List Task} (h_wait : (taskIds (l₁ ++ u :: l₂)).Nodup) :
    ∀ x ∈ l₁ ++ l₂, x.id ≠ u.id := by
  rw [taskIds, (List.perm_middle.map _).nodup_iff, List.map_cons, List.nodup_cons] at h_wait
  exact fun x h_x h_eq => h_wait.1 (h_eq ▸ List.mem_map_of_mem h_x)

/-- A cancellation that is granted withdraws the task, if the queue keeps no other of its id. -/
theorem Change.withdrawn_of_granted (h : q.Change op q' evs) (h_t : .granted t ∈ evs)
    (h_once : (taskIds q.tasks).Nodup) : q'.Withdrawn t := by
  obtain ⟨h_wait, h_busy, h_old⟩ := places_apart h_once
  obtain ⟨⟨now, rfl⟩, -⟩ := h.grounds h_t
  cases h with
  | nothing => exact absurd h_t List.not_mem_nil
  | withdrawn l₁ l₂ v now h_pending =>
    -- no other task of the queue has the id of the one that is taken out
    have h_v : v ∈ q.pending := by simp [h_pending]
    refine ⟨ne_of_split (h_pending ▸ h_wait), fun x h_x h_eq => ?_, fun x h_x h_eq => ?_⟩
    · exact absurd h_eq (h_busy x h_x v h_v)
    · rcases mem_remember h_x with rfl | h_x
      · rfl
      · exact absurd h_eq.symm ((h_old x h_x).1 v h_v)
  | marked v now h_none h_run =>
    refine ⟨h_none, fun x h_x _ => ?_, fun x h_x h_eq => ?_⟩
    · cases h_x
      rfl
    · exact absurd h_eq.symm ((h_old x h_x).2 v h_run)

/-! ### Tasks that came to their end -/

theorem gone_of_absent (h : ∀ u ∈ q.tasks, u.id ≠ t) : q.Gone t where
  pending := fun u h_u => h u (mem_tasks.mpr (.inr (.inl h_u)))
  running := fun u h_u => h u (mem_tasks.mpr (.inl h_u))

namespace Gone

/-- A task that came to its end does not come back, if none is queued anew under its id. -/
theorem after (h : q.Gone t) (h_new : t ∉ op.offered) : (q.after op).Gone t where
  pending := fun u h_u h_id => by
    rcases (q.change op).pending_origin h_u with h_u | ⟨v, rfl, rfl⟩ | ⟨-, v, h_v, h_eq, -⟩
    · exact h.pending u h_u h_id
    · exact h_new (by simp [QueueOp.offered, ← h_id])
    · exact h.running v h_v (h_eq.trans h_id)
  running := fun u h_u h_id => by
    rcases (q.change op).running_origin h_u with ⟨v, h_v, h_eq, -⟩ | ⟨v, h_v, h_eq⟩
    · exact h.running v h_v (h_eq.trans h_id)
    · exact h.pending v h_v (h_eq.trans h_id)

/-- Nothing happens any more to a task that came to its end. -/
theorem tells (h : q.Gone t) (h_new : t ∉ op.offered) {ev : Event} (h_ev : ev ∈ q.tells op) :
    ev.subject ≠ some t := by
  have h_idle : ¬ ∃ v ∈ q.pending, v.id = t := fun ⟨v, h_v, h_id⟩ => h.pending v h_v h_id
  have h_quiet : ∀ p : Task → Prop, ¬ ∃ v ∈ q.running, v.id = t ∧ p v :=
    fun p ⟨v, h_v, h_id, _⟩ => h.running v h_v h_id
  have h_grounds := (q.change op).grounds h_ev
  intro h_subject
  cases ev with
  | granted i =>
    cases h_subject
    exact h_grounds.2.elim h_idle (h_quiet _)
  | queued i =>
    cases h_subject
    exact h_grounds.elim h_new (h_quiet _)
  | started i =>
    cases h_subject
    exact h_idle h_grounds
  | ended i status =>
    cases h_subject
    exact h_grounds.elim (fun h => h_idle h.2) (h_quiet _)
  | fired k => cases h_subject
  | called task request => cases h_subject

end Gone

/-- A task that comes to its end is gone, if the queue keeps no other of its id. -/
theorem Change.gone_of_ended (h : q.Change op q' evs) {status : TaskStatus} (h_t : .ended t status ∈ evs)
    (h_once : (taskIds q.tasks).Nodup) : q'.Gone t := by
  obtain ⟨h_wait, h_busy, -⟩ := places_apart h_once
  cases h with
  | nothing | enabled | scripted => exact absurd h_t List.not_mem_nil
  | queued | started | retried => simp at h_t
  | attached => split at h_t <;> simp at h_t
  | marked => simp at h_t
  -- the running task of that id ended; by `h_busy` no waiting task has the id
  | ended v w d outcome now h_run =>
    cases List.mem_singleton.mp h_t
    exact ⟨fun x h_x h_eq => h_busy v h_run x h_x h_eq.symm, fun x h_x => nomatch h_x⟩
  | withdrawn l₁ l₂ v now h_pending =>
    -- of the two events of a withdrawal, one is the end
    obtain rfl : t = v.id := by
      rcases List.mem_pair.mp h_t with h_eq | h_eq
      · cases h_eq
      · cases h_eq
        rfl
    exact ⟨ne_of_split (h_pending ▸ h_wait), fun x h_x => h_busy x h_x v (by simp [h_pending])⟩
  | cleared now =>
    -- the ends of the waiting tasks, then the token of the running one
    rcases List.mem_append.mp h_t with h_t | h_t
    · obtain ⟨i, h_i, h_eq⟩ := List.mem_map.mp h_t
      cases h_eq
      obtain ⟨v, h_v, rfl⟩ := List.mem_map.mp h_i
      refine ⟨fun x h_x => ?_, fun x h_x => ?_⟩
      · rw [archiveAll_pending] at h_x
        exact absurd h_x List.not_mem_nil
      · obtain ⟨w, h_run, rfl⟩ := Option.map_eq_some_iff.mp h_x
        exact h_busy w h_run v h_v
    · obtain ⟨k, -, h_eq⟩ := List.mem_map.mp h_t
      cases h_eq

end GroupQueue

end ScriptYard
