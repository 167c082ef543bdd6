import Mathlib.Data.List.DropRight
import Mathlib.Data.List.Nodup
import ScriptYard.Proofs.Queue.Changes

/-!
# No task is lost and none is doubled

A `Ledger` keeps the books of a queue over a run of operations: beside the queue, the ids of all tasks
that it accepted and the ids of all that came to their end, each in the order of time. Both columns are
written from what the operations answer (`GroupQueue.accepts`, `GroupQueue.ends`) and not from where the
queue keeps its tasks.

`Ledger.Balanced` is the invariant. The tasks that wait, the running one and those that came to their
end are together those that were accepted, each once; the history is the end of the column of those that
came to their end, as long as the limit allows; every task has the status of its place and is of the
group of the queue. Every operation keeps the books balanced (`Ledger.Balanced.after`) if a task that it
offers has an id of its own, and so does every run (`Ledger.Balanced.run`).

`Ledger.every_task_in_one_place` reads the places of every id off the books: one that was accepted is
waiting, running, remembered or forgotten, exactly one of these and once, and any other is nowhere. The
forgotten ones are those in front of the last `historyLimit` of the column of ended tasks
(`Ledger.forgotten`). As all tasks of a queue are of its group, no end of a run is refused, and no task
that is to be retried can be turned away.
-/

namespace ScriptYard

/-- The ids of the tasks that an operation offers to a queue. -/
def QueueOp.offered : QueueOp → List String
  | .enqueue t => [t.id]
  | _ => []

/-- The ids of the tasks that some operations offer to a queue. -/
def offeredIds (ops : List QueueOp) : List String := ops.flatMap QueueOp.offered

namespace GroupQueue

/-- The ids of the tasks that the queue accepts in an operation. -/
def accepts (q : GroupQueue) : QueueOp → List String
  | .enqueue t => match q.enqueue t with
    | .ok _ => [t.id]
    | .error _ => []
  | _ => []

/-- The ids of the tasks that an operation brings to their end. -/
def ends (q : GroupQueue) : QueueOp → List String
  | .complete t outcome now => match q.complete t outcome now with
    | .ok (d, _) => if d.status.isTerminal then [t] else []
    | .error _ => []
  | .cancel t now => match q.cancel t now with
    | some (.removed, _) => [t]
    | _ => []
  | .cancelAll _ => taskIds q.pending
  | _ => []

end GroupQueue

/-- A queue and the books of a run of it. -/
structure Ledger where
  queue : GroupQueue
  /-- The ids of the tasks that were accepted. -/
  accepted : List String := []
  /-- The ids of the tasks that came to their end. -/
  ended : List String := []

namespace Ledger

/-- The books after an operation. -/
def after (l : Ledger) (op : QueueOp) : Ledger :=
  ⟨l.queue.after op, l.accepted ++ l.queue.accepts op, l.ended ++ l.queue.ends op⟩

/-- The books after some operations. -/
def run (l : Ledger) (ops : List QueueOp) : Ledger := ops.foldl after l

/-- The ids of the tasks that came to their end so long ago that they are no longer remembered: more
than the limit have come to their end, and these are the first of them. -/
def forgotten (l : Ledger) : List String := l.ended.rdrop l.queue.historyLimit

/-- The books of a queue agree with what the queue keeps. -/
structure Balanced (l : Ledger) : Prop where
  /-- The tasks that wait, that run and that came to their end are those that were accepted. -/
  places : (taskIds l.queue.pending ++ taskIds l.queue.running.toList ++ l.ended).Perm l.accepted
  /-- No id was accepted twice. -/
  distinct : l.accepted.Nodup
  /-- The last tasks that came to their end are remembered, in that order. -/
  remembered : taskIds l.queue.history = l.ended.rtake l.queue.historyLimit
  /-- At least one task is remembered. -/
  limit_pos : 0 < l.queue.historyLimit
  /-- A task that waits is pending. -/
  pending_status : ∀ t ∈ l.queue.pending, t.status = .pending
  /-- The running task is running. -/
  running_status : ∀ t ∈ l.queue.running, t.status = .running
  /-- A task that is remembered is at its end. -/
  history_status : ∀ t ∈ l.queue.history, t.status.isTerminal = true
  group : ∀ t ∈ l.queue.tasks, t.group = l.queue.id

end Ledger

/-! ### The history as the end of a column -/

/-- What has left the end of a list stays out of it. -/
theorem rtake_rtake_append {α : Type} (l : List α) (n : ℕ) (x : α) :
    (l.rtake n ++ [x]).rtake n = (l ++ [x]).rtake n := by
  cases n with
  | zero => rw [List.rtake_zero, List.rtake_zero]
  | succ k =>
    rw [List.rtake_concat_succ, List.rtake_concat_succ, List.rtake_eq_reverse_take_reverse,
      List.rtake_eq_reverse_take_reverse, List.rtake_eq_reverse_take_reverse, List.reverse_reverse,
      List.take_take, Nat.min_eq_left (Nat.le_succ k)]

theorem mem_of_mem_rtake {α : Type} {l : List α} {n : ℕ} {x : α} (h : x ∈ l.rtake n) : x ∈ l :=
  List.mem_of_mem_drop h

theorem taskIds_remember {limit : ℕ} {history : List Task} {t : Task}
    (h_new : t.id ∉ taskIds history) :
    taskIds (GroupQueue.remember limit history t) = (taskIds history ++ [t.id]).rtake limit := by
  have h_any : ¬ history.any (fun x => x.id == t.id) = true := by
    intro h
    obtain ⟨x, hx, h_eq⟩ := List.any_eq_true.mp h
    exact h_new (List.mem_map.mpr ⟨x, hx, by simpa using h_eq⟩)
  unfold GroupQueue.remember List.rtake
  rw [if_neg h_any, taskIds, List.map_drop, List.map_append, List.length_append, List.length_append,
    taskIds, List.length_map]
  rfl

theorem GroupQueue.taskIds_archive {q : GroupQueue} {t : Task} {ended : List String}
    (h_rem : taskIds q.history = ended.rtake q.historyLimit) (h_new : t.id ∉ ended) :
    taskIds (q.archive t).history = (ended ++ [t.id]).rtake q.historyLimit := by
  have h_out : t.id ∉ taskIds q.history := fun h => h_new (mem_of_mem_rtake (h_rem ▸ h))
  rw [archive_history, taskIds_remember h_out, h_rem, rtake_rtake_append]

theorem GroupQueue.taskIds_archiveAll {q : GroupQueue} {ts : List Task} {ended : List String}
    (h_rem : taskIds q.history = ended.rtake q.historyLimit) (h_new : (ended ++ taskIds ts).Nodup) :
    taskIds (q.archiveAll ts).history = (ended ++ taskIds ts).rtake q.historyLimit := by
  induction ts generalizing q ended with
  | nil => simpa [taskIds, archiveAll] using h_rem
  | cons t ts ih =>
    have h_split : ended ++ taskIds (t :: ts) = (ended ++ [t.id]) ++ taskIds ts := by simp [taskIds]
    rw [h_split] at h_new ⊢
    -- an id that is new to the column is not in the history, and stands behind all others in it
    have h_out : t.id ∉ ended := by
      have h_front := (List.nodup_append.mp h_new).1
      exact fun h => (List.nodup_append.mp h_front).2.2 _ h _ (List.mem_singleton_self _) rfl
    exact ih (q := q.archive t) (taskIds_archive h_rem h_out) h_new

/-! ### One operation -/

namespace Ledger.Balanced

variable {l : Ledger}

/-- A queue without tasks, with books in which nothing is written. -/
theorem create (id name : String) (limit : ℕ) (policy : RetryPolicy) :
    Balanced ⟨.create id name limit policy, [], []⟩ where
  places := List.Perm.refl _
  distinct := List.nodup_nil
  remembered := (List.rtake_nil _).symm
  limit_pos := Nat.lt_of_lt_of_le Nat.one_pos (Nat.le_max_right _ _)
  pending_status := fun _ h => absurd h List.not_mem_nil
  running_status := fun _ h => nomatch h
  history_status := fun _ h => absurd h List.not_mem_nil
  group := fun _ h => absurd h List.not_mem_nil

/-- A queue keeps no two tasks of the same id, and only such that were accepted. -/
theorem tasks_subperm (h : Balanced l) : (taskIds l.queue.tasks).Subperm l.accepted := by
  have h_old : (taskIds l.queue.history).Sublist l.ended := by
    rw [h.remembered]
    exact List.drop_sublist _ _
  have h_perm : (taskIds l.queue.tasks).Perm
      (taskIds l.queue.pending ++ taskIds l.queue.running.toList ++ taskIds l.queue.history) := by
    simp only [taskIds, GroupQueue.tasks, List.map_append, List.map_reverse]
    exact List.perm_append_comm.append (List.reverse_perm _)
  exact (h_perm.subperm.trans (h_old.append_left _).subperm).trans h.places.subperm

/-- A queue keeps no two tasks of the same id. -/
theorem nodup_tasks (h : Balanced l) : (taskIds l.queue.tasks).Nodup := by
  obtain ⟨ids, h_perm, h_sub⟩ := h.tasks_subperm
  exact h_perm.nodup_iff.mp (h_sub.nodup h.distinct)

/-- A queue keeps the tasks that it accepted, but for those that it has forgotten. -/
theorem mem_tasks_iff (h : Balanced l) {i : String} :
    i ∈ taskIds l.queue.tasks ↔ i ∈ l.accepted ∧ i ∉ l.forgotten := by
  have h_kept : i ∈ taskIds l.queue.tasks ↔ i ∈ taskIds l.queue.pending ++ taskIds l.queue.running.toList ∨
      i ∈ l.ended.rtake l.queue.historyLimit := by
    rw [← h.remembered]
    simp only [taskIds, GroupQueue.tasks, List.map_append, List.map_reverse, List.mem_append, List.mem_reverse]
    tauto
  have h_ended : l.ended = l.forgotten ++ l.ended.rtake l.queue.historyLimit :=
    (List.take_append_drop _ _).symm
  have h_nodup := h.places.nodup_iff.mpr h.distinct
  have h_accepted := h.places.mem_iff (a := i)
  rw [h_ended] at h_nodup h_accepted
  simp only [List.mem_append] at h_accepted
  obtain ⟨-, h_column, h_apart⟩ := List.nodup_append.mp h_nodup
  -- what is forgotten is in no other place
  have h_gone : i ∈ l.forgotten → i ∉ taskIds l.queue.pending ++ taskIds l.queue.running.toList ∧
      i ∉ l.ended.rtake l.queue.historyLimit := fun h_i =>
    ⟨fun h_live => h_apart i h_live i (List.mem_append_left _ h_i) rfl,
      fun h_old => (List.nodup_append.mp h_column).2.2 i h_i i h_old rfl⟩
  simp only [List.mem_append] at h_kept h_gone
  rw [h_kept, ← h_accepted]
  tauto

variable {u v : Task} {l₁ l₂ : List Task}

/-- One more task that waits. -/
theorem queued (h : Balanced l) (h_new : v.id ∉ l.accepted) (h_status : v.status = .pending)
    (h_group : v.group = l.queue.id) :
    Balanced ⟨{ l.queue with pending := GroupQueue.insertByPriority v l.queue.pending },
      l.accepted ++ [v.id], l.ended⟩ where
  places := by
    -- where the task is inserted does not matter for how often its id occurs
    refine List.perm_iff_count.mpr fun i => ?_
    have h_ins := (GroupQueue.insertByPriority_perm v l.queue.pending).map (·.id) |>.count_eq i
    have h_old := h.places.count_eq i
    simp only [taskIds, List.count_append, List.map_cons, List.count_cons, List.count_nil] at *
    omega
  distinct := List.nodup_append.mpr ⟨h.distinct, List.nodup_singleton _, fun i hi j hj h_eq =>
    h_new (List.mem_singleton.mp hj ▸ h_eq ▸ hi)⟩
  remembered := h.remembered
  limit_pos := h.limit_pos
  pending_status := fun t ht => by
    rcases GroupQueue.mem_insertByPriority.mp ht with rfl | ht
    · exact h_status
    · exact h.pending_status t ht
  running_status := h.running_status
  history_status := h.history_status
  group := fun t ht => by
    rcases GroupQueue.mem_tasks.mp ht with h_t | h_t | h_t
    · exact h.group t (GroupQueue.mem_tasks.mpr (.inl h_t))
    · rcases GroupQueue.mem_insertByPriority.mp h_t with rfl | h_t
      · exact h_group
      · exact h.group t (GroupQueue.mem_tasks.mpr (.inr (.inl h_t)))
    · exact h.group t (GroupQueue.mem_tasks.mpr (.inr (.inr h_t)))

/-- A task that waited is running. -/
theorem started (h : Balanced l) (h_idle : l.queue.running = none)
    (h_pending : l.queue.pending = l₁ ++ u :: l₂) (now : Instant) :
    Balanced ⟨{ l.queue with pending := l₁ ++ l₂, running := some (u.started now) },
      l.accepted, l.ended⟩ where
  places := by
    -- the task only changes its place: the ids are counted on both sides
    refine List.perm_iff_count.mpr fun i => ?_
    have h_old := h.places.count_eq i
    have h_id : (u.started now).id = u.id := rfl
    simp only [taskIds, h_pending, h_idle, List.count_append, List.map_append, List.map_cons,
      List.count_cons, Option.toList_none, Option.toList_some, List.map_nil, List.count_nil,
      h_id] at *
    omega
  distinct := h.distinct
  remembered := h.remembered
  limit_pos := h.limit_pos
  -- what waits now is part of what waited
  pending_status := fun t ht => h.pending_status t (by
    rw [h_pending]
    rcases List.mem_append.mp ht with ht | ht
    · exact List.mem_append_left _ ht
    · exact List.mem_append_right _ (List.mem_cons_of_mem _ ht))
  running_status := fun t ht => by cases ht; rfl
  history_status := h.history_status
  group := fun t ht => by
    have h_old : ∀ x ∈ l.queue.pending, x.group = l.queue.id := fun x hx =>
      h.group x (GroupQueue.mem_tasks.mpr (.inr (.inl hx)))
    rw [h_pending] at h_old
    rcases GroupQueue.mem_tasks.mp ht with h_t | h_t | h_t
    · cases h_t
      exact h_old u (by simp)
    · exact h_old t (by rcases List.mem_append.mp h_t with h_t | h_t <;> simp [h_t])
    · exact h.group t (GroupQueue.mem_tasks.mpr (.inr (.inr h_t)))

/-- The record of the running task changed, but not who it is. -/
theorem marked (h : Balanced l) (h_run : l.queue.running = some u) (h_id : v.id = u.id)
    (h_group : v.group = u.group) (h_status : v.status = u.status) :
    Balanced ⟨{ l.queue with running := some v }, l.accepted, l.ended⟩ where
  -- only the id of a record stands in the books
  places := by simpa [taskIds, h_run, h_id] using h.places
  distinct := h.distinct
  remembered := h.remembered
  limit_pos := h.limit_pos
  pending_status := h.pending_status
  running_status := fun t ht => by
    cases ht
    exact h_status.trans (h.running_status u h_run)
  history_status := h.history_status
  group := fun t ht => by
    rcases GroupQueue.mem_tasks.mp ht with h_t | h_t
    · cases h_t
      exact h_group.trans (h.group u (GroupQueue.mem_tasks.mpr (.inl h_run)))
    · exact h.group t (GroupQueue.mem_tasks.mpr (.inr h_t))

/-- The running task waits again. -/
theorem requeued (h : Balanced l) (h_run : l.queue.running = some u) (h_id : v.id = u.id)
    (h_group : v.group = u.group) (h_status : v.status = .pending) :
    Balanced ⟨{ l.queue with
        running := none
        pending := GroupQueue.insertByPriority v l.queue.pending }, l.accepted, l.ended⟩ where
  places := by
    -- the id leaves `running` and enters `pending`, so each count stays
    refine List.perm_iff_count.mpr fun i => ?_
    have h_ins := (GroupQueue.insertByPriority_perm v l.queue.pending).map (·.id) |>.count_eq i
    have h_old := h.places.count_eq i
    simp only [taskIds, h_run, List.count_append, List.map_cons, List.count_cons, Option.toList_none,
      Option.toList_some, List.map_nil, List.count_nil, h_id] at *
    omega
  distinct := h.distinct
  remembered := h.remembered
  limit_pos := h.limit_pos
  pending_status := fun t ht => by
    rcases GroupQueue.mem_insertByPriority.mp ht with rfl | ht
    · exact h_status
    · exact h.pending_status t ht
  running_status := fun t ht => nomatch ht
  history_status := h.history_status
  group := fun t ht => by
    rcases GroupQueue.mem_tasks.mp ht with h_t | h_t | h_t
    · cases h_t
    · rcases GroupQueue.mem_insertByPriority.mp h_t with rfl | h_t
      · exact h_group.trans (h.group u (GroupQueue.mem_tasks.mpr (.inl h_run)))
      · exact h.group t (GroupQueue.mem_tasks.mpr (.inr (.inl h_t)))
    · exact h.group t (GroupQueue.mem_tasks.mpr (.inr (.inr h_t)))

/-- Some tasks left the other places and came to their end, in the order in which they are listed. -/
theorem left (h : Balanced l) (q : GroupQueue) (ts : List Task) (h_id : q.id = l.queue.id)
    (h_limit : q.historyLimit = l.queue.historyLimit) (h_history : q.history = l.queue.history)
    (h_places : (taskIds q.pending ++ taskIds q.running.toList ++ taskIds ts).Perm
      (taskIds l.queue.pending ++ taskIds l.queue.running.toList))
    (h_pending : ∀ t ∈ q.pending, t ∈ l.queue.pending)
    (h_running : ∀ t ∈ q.running, t.status = .running ∧ t.group = l.queue.id)
    (h_ts : ∀ t ∈ ts, t.status.isTerminal = true ∧ t.group = l.queue.id) :
    Balanced ⟨q.archiveAll ts, l.accepted, l.ended ++ taskIds ts⟩ := by
  have h_rem : taskIds q.history = l.ended.rtake q.historyLimit := by
    rw [h_history, h_limit]
    exact h.remembered
  have h_perm : (taskIds q.pending ++ taskIds q.running.toList ++ (l.ended ++ taskIds ts)).Perm
      l.accepted := by
    refine List.perm_iff_count.mpr fun i => ?_
    have h_old := h.places.count_eq i
    have h_new := h_places.count_eq i
    simp only [List.count_append] at *
    omega
  have h_nodup := h_perm.nodup_iff.mpr h.distinct
  -- what is remembered now was remembered before, or has just come to its end
  have h_mem : ∀ t ∈ (q.archiveAll ts).history, t ∈ q.history ∨ t ∈ ts :=
    fun t ht => GroupQueue.mem_archiveAll ht
  exact
  { places := by
      rw [GroupQueue.archiveAll_pending, GroupQueue.archiveAll_running]
      exact h_perm
    distinct := h.distinct
    remembered := by
      rw [GroupQueue.archiveAll_historyLimit]
      exact GroupQueue.taskIds_archiveAll h_rem (List.nodup_append.mp h_nodup).2.1
    limit_pos := by
      rw [GroupQueue.archiveAll_historyLimit, h_limit]
      exact h.limit_pos
    pending_status := fun t ht => by
      rw [GroupQueue.archiveAll_pending] at ht
      exact h.pending_status t (h_pending t ht)
    running_status := fun t ht => by
      rw [GroupQueue.archiveAll_running] at ht
      exact (h_running t ht).1
    history_status := fun t ht => by
      rcases h_mem t ht with h_t | h_t
      · exact h.history_status t (h_history ▸ h_t)
      · exact (h_ts t h_t).1
    group := fun t ht => by
      rw [GroupQueue.archiveAll_id, h_id]
      rcases GroupQueue.mem_tasks.mp ht with h_t | h_t | h_t
      · rw [GroupQueue.archiveAll_running] at h_t
        exact (h_running t h_t).2
      · rw [GroupQueue.archiveAll_pending] at h_t
        exact h.group t (GroupQueue.mem_tasks.mpr (.inr (.inl (h_pending t h_t))))
      · rcases h_mem t h_t with h_t | h_t
        · exact h.group t (GroupQueue.mem_tasks.mpr (.inr (.inr (h_history ▸ h_t))))
        · exact (h_ts t h_t).2 }

theorem after_complete (h : Balanced l) (t : String) (outcome : TaskOutcome) (now : Instant) :
    Balanced (l.after (.complete t outcome now)) := by
  simp only [Ledger.after, GroupQueue.after, GroupQueue.accepts, GroupQueue.ends, List.append_nil]
  cases h_com : l.queue.complete t outcome now with
  | error e => simpa using h
  | ok r =>
    obtain ⟨d, q'⟩ := r
    obtain ⟨u, h_run, rfl, ⟨v, h_id, h_group, h_status, h_end, -, rfl⟩ | ⟨f, -, rfl, -, rfl⟩⟩ :=
      GroupQueue.complete_cases h_com
    · -- the task came to its end
      have h_u := h.group u (GroupQueue.mem_tasks.mpr (.inl h_run))
      simp only [h_end, if_true]
      rw [← h_id]
      refine h.left { l.queue with running := none } [v] rfl rfl rfl ?_
        (fun t ht => ht) (fun t ht => by cases ht) ?_
      · simp [taskIds, h_run, h_id]
      · intro t ht
        rw [List.mem_singleton.mp ht, h_status, h_group]
        exact ⟨h_end, h_u⟩
    · -- the task waits for its next attempt, and the column of ended tasks stays as it was
      simp only [Disposition.status, TaskStatus.isTerminal, Bool.false_eq_true, if_false,
        List.append_nil]
      exact h.requeued h_run rfl rfl rfl

theorem after_cancel (h : Balanced l) (t : String) (now : Instant) : Balanced (l.after (.cancel t now)) := by
  simp only [Ledger.after, GroupQueue.after, GroupQueue.accepts, GroupQueue.ends, List.append_nil]
  cases h_can : l.queue.cancel t now with
  | none => simpa using h
  | some r =>
    obtain ⟨o, q'⟩ := r
    obtain ⟨l₁, u, l₂, h_pending, rfl, -, rfl, rfl⟩ | ⟨-, u, h_run, -, -, rfl, rfl⟩ :=
      GroupQueue.cancel_cases h_can
    · -- a task that waits comes to its end
      refine h.left { l.queue with pending := l₁ ++ l₂ } [GroupQueue.withdrawn u now]
        rfl rfl rfl ?_ (fun t ht => ?_) (fun t ht => ?_) ?_
      · refine List.perm_iff_count.mpr fun i => ?_
        simp only [taskIds, h_pending, List.map_append, List.map_cons, List.map_nil,
          GroupQueue.withdrawn_id, List.count_append, List.count_cons, List.count_nil]
        omega
      · rw [h_pending]
        rcases List.mem_append.mp ht with ht | ht <;> simp [ht]
      · exact ⟨h.running_status t ht, h.group t (GroupQueue.mem_tasks.mpr (.inl ht))⟩
      · intro t ht
        rw [List.mem_singleton.mp ht]
        exact ⟨rfl, h.group u (GroupQueue.mem_tasks.mpr (.inr (.inl (by simp [h_pending]))))⟩
    · -- the running task stays where it is
      simpa using h.marked (v := { u with cancelRequested := true }) h_run rfl rfl rfl

theorem after_cancelAll (h : Balanced l) (now : Instant) : Balanced (l.after (.cancelAll now)) := by
  simp only [Ledger.after, GroupQueue.after, GroupQueue.accepts, GroupQueue.ends, List.append_nil]
  have h_ids : taskIds l.queue.pending = taskIds (l.queue.pending.map (GroupQueue.withdrawn · now)) := by
    simp [taskIds]
  rw [GroupQueue.cancelAll_snd, GroupQueue.archiveAll_eq, h_ids]
  have h_left := h.left { l.queue with pending := [], running := l.queue.flagged }
    (l.queue.pending.map (GroupQueue.withdrawn · now)) rfl rfl rfl ?_
    (fun t ht => absurd ht List.not_mem_nil) (fun t ht => ?_) (fun t ht => ?_)
  · rwa [GroupQueue.archiveAll_eq] at h_left
  · -- the running task stays, and the others go to the history in their order
    rw [← h_ids]
    cases h_run : l.queue.running with
    | none => simp [taskIds, GroupQueue.flagged, h_run]
    | some u =>
      simp only [taskIds, GroupQueue.flagged, h_run, Option.map_some, Option.toList_some, List.map_nil,
        List.nil_append, List.map_cons]
      exact List.perm_append_comm
  · obtain ⟨u, h_run, rfl⟩ := Option.map_eq_some_iff.mp ht
    exact ⟨h.running_status u h_run, h.group u (GroupQueue.mem_tasks.mpr (.inl h_run))⟩
  · obtain ⟨u, h_u, rfl⟩ := List.mem_map.mp ht
    exact ⟨rfl, h.group u (GroupQueue.mem_tasks.mpr (.inr (.inl h_u)))⟩

/-- **One operation.** The books stay balanced, if the operation does not offer a task under an id
that was accepted before. -/
theorem after (h : Balanced l) {op : QueueOp} (h_new : ∀ i ∈ op.offered, i ∉ l.accepted) :
    Balanced (l.after op) := by
  cases op with
  | enqueue t =>
    simp only [Ledger.after, GroupQueue.after, GroupQueue.accepts, GroupQueue.ends, List.append_nil]
    cases h_enq : l.queue.enqueue t with
    | error e => simpa using h
    | ok q' =>
      obtain ⟨h_group, rfl⟩ := GroupQueue.enqueue_eq_ok_iff.mp h_enq
      exact h.queued (v := { t with status := .pending }) (h_new t.id (List.mem_singleton_self _))
        rfl h_group
  | dequeue now =>
    -- the books have no column for tasks that are started
    simp only [Ledger.after, GroupQueue.after, GroupQueue.accepts, GroupQueue.ends, List.append_nil]
    cases h_deq : l.queue.dequeue now with
    | none => exact h
    | some r =>
      obtain ⟨-, h_idle, l₁, u, l₂, h_pending, -, -, -, h_q⟩ := GroupQueue.dequeue_eq_some_iff.mp h_deq
      simp only [h_q]
      exact h.started h_idle h_pending now
  | attach t run token =>
    simp only [Ledger.after, GroupQueue.after, GroupQueue.accepts, GroupQueue.ends, List.append_nil]
    obtain ⟨u, h_run, -, h_att⟩ | ⟨-, h_att⟩ := GroupQueue.attach_cases l.queue t run token
    · rw [h_att]
      exact h.marked h_run rfl rfl rfl
    · rw [h_att]
      exact h
  | complete t outcome now => exact h.after_complete t outcome now
  | cancel t now => exact h.after_cancel t now
  | cancelAll now => exact h.after_cancelAll now
  | setEnabled _ | setExceptionScript _ =>
    simp only [Ledger.after, GroupQueue.after, GroupQueue.accepts, GroupQueue.ends, List.append_nil]
    exact ⟨h.places, h.distinct, h.remembered, h.limit_pos, h.pending_status, h.running_status,
      h.history_status, h.group⟩

end Ledger.Balanced

/-! ### Runs -/

namespace Ledger

/-- A queue accepts nothing but what it is offered. -/
theorem mem_offered_of_mem_accepts {q : GroupQueue} {op : QueueOp} {i : String}
    (h : i ∈ q.accepts op) : i ∈ op.offered := by
  cases op with
  | enqueue t =>
    simp only [GroupQueue.accepts] at h
    split at h
    · exact h
    · exact absurd h List.not_mem_nil
  | _ => exact absurd h List.not_mem_nil

/-- The books stay balanced over any operations that offer tasks with ids of their own. -/
theorem Balanced.run {l : Ledger} (h : Balanced l) {ops : List QueueOp}
    (h_distinct : (offeredIds ops).Nodup) (h_new : ∀ i ∈ offeredIds ops, i ∉ l.accepted) :
    Balanced (l.run ops) := by
  induction ops generalizing l with
  | nil => exact h
  | cons op ops ih =>
    obtain ⟨-, h_rest, h_apart⟩ := List.nodup_append.mp (show (op.offered ++ offeredIds ops).Nodup from
      h_distinct)
    have h_head : ∀ i ∈ op.offered, i ∉ l.accepted := fun i hi => h_new i (List.mem_append_left _ hi)
    refine ih (h.after h_head) h_rest fun i hi h_acc => ?_
    -- what the books list now was accepted before, or by this operation
    rcases List.mem_append.mp h_acc with h_old | h_op
    · exact h_new i (List.mem_append_right _ hi) h_old
    · exact h_apart i (mem_offered_of_mem_accepts h_op) i hi rfl

/-- A run changes neither the group of a queue nor how many tasks it remembers. -/
theorem run_fixed (l : Ledger) (ops : List QueueOp) :
    (l.run ops).queue.id = l.queue.id ∧ (l.run ops).queue.historyLimit = l.queue.historyLimit := by
  induction ops generalizing l with
  | nil => exact ⟨rfl, rfl⟩
  | cons op ops ih =>
    obtain ⟨h_id, h_limit⟩ := ih (l.after op)
    obtain ⟨h_op_id, h_op_limit⟩ := GroupQueue.after_fixed l.queue op
    exact ⟨h_id.trans h_op_id, h_limit.trans h_op_limit⟩

/-- **Every task is in one place.** After any operations of a queue that began empty, of which no two
offered tasks of the same id, an id that was accepted is waiting, running, remembered or forgotten,
exactly one of these and once, and any other id is nowhere; tasks are forgotten in the order in which
they came to their end, and only as far as more of them did than the queue remembers. Every task has
the status of its place and the group of the queue, so that the end of a run of the running task is
always accepted, a retry included. -/
theorem every_task_in_one_place (id name : String) (limit : ℕ) (policy : RetryPolicy)
    (ops : List QueueOp) (distinct : (offeredIds ops).Nodup) :
    let l := (⟨.create id name limit policy, [], []⟩ : Ledger).run ops
    (∀ i, (taskIds l.queue.pending).count i + (taskIds l.queue.running.toList).count i +
        (taskIds l.queue.history).count i + l.forgotten.count i = if i ∈ l.accepted then 1 else 0) ∧
      l.forgotten = l.ended.take (l.ended.length - max limit 1) ∧
      (∀ t ∈ l.queue.pending, t.status = .pending) ∧
      (∀ t ∈ l.queue.running, t.status = .running) ∧
      (∀ t ∈ l.queue.history, t.status = .completed ∨ t.status = .failed ∨ t.status = .cancelled) ∧
      (∀ t ∈ l.queue.tasks, t.group = id) ∧
      ∀ t ∈ l.queue.running, ∀ outcome now, ∃ d q', l.queue.complete t.id outcome now = .ok (d, q') := by
  intro l
  have h : Balanced l := (Balanced.create id name limit policy).run distinct
    fun _ _ => List.not_mem_nil
  obtain ⟨h_id, h_limit⟩ : l.queue.id = id ∧ l.queue.historyLimit = max limit 1 := run_fixed _ ops
  refine ⟨fun i => ?_, ?_, h.pending_status, h.running_status, fun t ht => ?_, fun t ht => ?_, ?_⟩
  · -- the history and the forgotten ones are together all that came to their end
    have h_ended : (taskIds l.queue.history).count i + l.forgotten.count i = l.ended.count i := by
      rw [h.remembered, forgotten, Nat.add_comm, ← List.count_append, List.rdrop, List.rtake,
        List.take_append_drop]
    have h_all := h.places.count_eq i
    rw [List.count_append, List.count_append] at h_all
    rw [Nat.add_assoc, h_ended, h_all]
    split
    · next h_mem => exact List.count_eq_one_of_mem h.distinct h_mem
    · next h_mem => exact List.count_eq_zero_of_not_mem h_mem
  · rw [forgotten, h_limit, List.rdrop]
  · have h_end := h.history_status t ht
    cases h_status : t.status <;> simp_all [TaskStatus.isTerminal]
  · rw [← h_id]
    exact h.group t ht
  · intro t ht outcome now
    exact GroupQueue.complete_isOk ht (h.group t (GroupQueue.mem_tasks.mpr (.inl ht))) outcome now

/-- A task of the group `"g"` that may run at once. -/
def plainTask (id : String) : Task := { id := id, group := "g", script := "s", createdAt := ⟨0, 0⟩ }

/-- Three tasks are queued; the first is completed, the second withdrawn, and the third is started. -/
def threeTasks : List QueueOp :=
  [.enqueue (plainTask "a"), .enqueue (plainTask "b"), .enqueue (plainTask "c"), .dequeue ⟨0, 0⟩,
    .complete "a" (.succeeded .null) ⟨1, 0⟩, .cancel "b" ⟨2, 0⟩, .dequeue ⟨3, 0⟩]

/-- In a queue that remembers one task, the first of the three is forgotten, the second remembered
and the third running. -/
theorem three_tasks_in_one_place_each :
    let l := (⟨.create "g" "G" 1 {}, [], []⟩ : Ledger).run threeTasks
    (offeredIds threeTasks).Nodup ∧ l.accepted = ["a", "b", "c"] ∧ l.forgotten = ["a"] ∧
      taskIds l.queue.history = ["b"] ∧ taskIds l.queue.running.toList = ["c"] ∧
      ∀ i, (taskIds l.queue.pending).count i + (taskIds l.queue.running.toList).count i +
        (taskIds l.queue.history).count i + l.forgotten.count i = if i ∈ l.accepted then 1 else 0 :=
  ⟨by decide, by decide, by decide, by decide, by decide,
    (every_task_in_one_place "g" "G" 1 {} threeTasks (by decide)).1⟩

end Ledger

end ScriptYard
