import ScriptYard.Proofs.Queue.Lives

/-!
# What becomes of a task when its run is reported

A report is `RunReport.Definite` if it is of one of three kinds: completed without an error, cancelled, or
failed with an error and its nature, which is not that of a cancellation. From such a report the outcome that
a queue is told of takes everything, and nothing is filled in (`RunReport.Definite.outcome`).

`GroupQueue.Settled` says in one place what a queue makes of the report of the run of its running task. That it
keeps a record of it at all depends on two things that hold of every queue that began empty: all its tasks are
of its group, and there is room for at least one that came to its end (`GroupQueue.Roomy`).
-/

namespace ScriptYard

/-! ### Reports -/

namespace RunReport

variable {r : RunReport}

/-- The report is of a run that was completed, cancelled, or failed, and has an error and its nature just if
it was not completed. -/
inductive Definite (r : RunReport) : Prop where
  /-- All actions succeeded. -/
  | completed (h_state : r.state = .completed) (h_error : r.error = none) (h_kind : r.failureKind = none)
  /-- The run was cancelled. -/
  | cancelled (h_state : r.state = .cancelled) (h_error : r.error = some "execution cancelled")
    (h_kind : r.failureKind = some .cancelled)
  /-- An action failed, and not because the run was cancelled. -/
  | failed (text : String) (kind : FailureKind) (h_state : r.state = .failed) (h_error : r.error = some text)
    (h_kind : r.failureKind = some kind) (h_nature : kind = .transient ∨ kind = .fatal)

/-- The outcome of a report is that of its state, with the result or with the error and the nature that stand
in the report. -/
theorem Definite.outcome (h : r.Definite) :
    (r.state = .completed ∧ r.outcome = .succeeded r.result) ∨
    (r.state = .cancelled ∧ r.outcome = .cancelled) ∨
    (r.state = .failed ∧ ∃ f : Failure, r.outcome = .failed f ∧ r.error = some f.error ∧
      r.failureKind = some f.kind ∧ f.kind ≠ .cancelled) := by
  unfold RunReport.outcome
  cases h with
  | completed h_state => exact .inl ⟨h_state, by rw [h_state]⟩
  | cancelled h_state => exact .inr (.inl ⟨h_state, by rw [h_state]⟩)
  | failed text kind h_state h_error h_kind h_nature =>
    refine .inr (.inr ⟨h_state, ⟨text, kind⟩, by rw [h_state, h_error, h_kind]; rfl, h_error, h_kind, ?_⟩)
    rcases h_nature with rfl | rfl <;> exact nofun

end RunReport

namespace GroupQueue

variable {q q' : GroupQueue} {u : Task}

/-! ### Room for tasks that came to their end -/

/-- Tasks that wait and that run are of the group of the queue, and there is room for all that are remembered
and for at least one. -/
structure Roomy (q : GroupQueue) : Prop where
  /-- The tasks that wait are of the group. -/
  waiting : ∀ u ∈ q.pending, u.group = q.id
  /-- The running task is of the group. -/
  running : ∀ u ∈ q.running, u.group = q.id
  /-- No more are remembered than can be. -/
  history : q.history.length ≤ q.historyLimit
  /-- One can be remembered. -/
  limit : 1 ≤ q.historyLimit

theorem length_remember_le (limit : ℕ) (history : List Task) (t : Task) :
    (remember limit history t).length ≤ limit := by
  unfold remember
  rw [List.length_drop]
  omega

/-- The task that came to its end last is remembered. -/
theorem mem_remember_self {limit : ℕ} {history : List Task} (t : Task) (h : history.length ≤ limit)
    (h_limit : 1 ≤ limit) : t ∈ remember limit history t := by
  unfold remember
  split
  · next h_any =>
    -- it takes the place of another, so none is forgotten
    obtain ⟨x, h_x, h_id⟩ := List.any_eq_true.mp h_any
    simp only [List.length_map, Nat.sub_eq_zero_of_le h, List.drop_zero]
    exact List.mem_map.mpr ⟨x, h_x, if_pos h_id⟩
  · rw [List.drop_append_of_le_length (by rw [List.length_append, List.length_singleton]; omega)]
    exact List.mem_append_right _ (List.mem_singleton_self t)

theorem length_archiveAll_le (ts : List Task) (h : q.history.length ≤ q.historyLimit) :
    (q.archiveAll ts).history.length ≤ q.historyLimit := by
  induction ts generalizing q with
  | nil => exact h
  | cons t ts ih => exact ih (q := q.archive t) (length_remember_le _ _ t)

theorem roomy_create (id name : String) (limit : ℕ) (policy : RetryPolicy) :
    (create id name limit policy).Roomy where
  waiting _ h := absurd h List.not_mem_nil
  running _ h := by cases h
  history := Nat.zero_le _
  limit := Nat.le_max_right limit 1

/-- **One operation** leaves all tasks in their group, and room for one more end. -/
theorem Roomy.change {op : QueueOp} {evs : List Event} (h : q.Roomy) (h_change : q.Change op q' evs) :
    q'.Roomy := by
  cases h_change with
  | nothing | enabled | scripted => exact ⟨h.waiting, h.running, h.history, h.limit⟩
  -- the guard of `enqueue` is the group of the new task
  | queued t h_group =>
    refine ⟨fun u h_u => ?_, h.running, h.history, h.limit⟩
    rcases mem_insertByPriority.mp h_u with rfl | h_u
    · exact h_group
    · exact h.waiting u h_u
  | started now l₁ l₂ u h_idle h_pending =>
    refine ⟨fun v h_v => h.waiting v (mem_pending_of_rest h_pending h_v), ?_, h.history, h.limit⟩
    rintro _ ⟨⟩
    exact h.waiting u (by simp [h_pending])
  | attached u run token h_run | marked u now h_none h_run h_req =>
    refine ⟨h.waiting, ?_, h.history, h.limit⟩
    rintro _ ⟨⟩
    exact h.running u h_run
  | ended u v d outcome now h_run =>
    exact ⟨h.waiting, fun _ h_none => (by cases h_none), length_remember_le _ _ v, h.limit⟩
  -- the task that goes back was the running one
  | retried u f now h_run h_req =>
    refine ⟨fun v h_v => ?_, fun _ h_none => (by cases h_none), h.history, h.limit⟩
    rcases mem_insertByPriority.mp h_v with rfl | h_v
    · exact h.running u h_run
    · exact h.waiting v h_v
  | withdrawn l₁ l₂ u now h_pending =>
    exact ⟨fun v h_v => h.waiting v (mem_pending_of_rest h_pending h_v), h.running,
      length_remember_le _ _ _, h.limit⟩
  -- all that waited go into the history, which `remember` keeps within its limit
  | cleared now =>
    refine ⟨fun v h_v => ?_, fun v h_v => ?_, ?_, ?_⟩
    · rw [archiveAll_pending] at h_v
      exact absurd h_v List.not_mem_nil
    · obtain ⟨u, h_run, rfl⟩ := Option.map_eq_some_iff.mp h_v
      rw [archiveAll_id]
      exact h.running u h_run
    · rw [archiveAll_historyLimit]
      exact length_archiveAll_le (q := { q with pending := [] }) _ h.history
    · rw [archiveAll_historyLimit]
      exact h.limit

theorem Roomy.run (h : q.Roomy) (ops : List QueueOp) : (q.run ops).Roomy := by
  induction ops generalizing q with
  | nil => exact h
  | cons op ops ih => exact ih (h.change (q.change op))

/-! ### The end of the running task -/

/-- What a queue keeps of a task when the report of its run has come, by what became of the task. -/
inductive Settled (q' : GroupQueue) (u : Task) (r : RunReport) : Disposition → Prop where
  /-- Somebody asked for its end: it is cancelled, whatever is reported. -/
  | withdrawn (v : Task) (h_v : v ∈ q'.history) (h_id : v.id = u.id) (h_status : v.status = .cancelled)
    (h_asked : u.cancelRequested = true) : Settled q' u r .cancelled
  /-- The run was completed, and its result is kept. -/
  | completed (v : Task) (h_v : v ∈ q'.history) (h_id : v.id = u.id) (h_status : v.status = .completed)
    (h_result : v.result = some r.result) (h_asked : u.cancelRequested = false)
    (h_state : r.state = .completed) : Settled q' u r .completed
  /-- The run was cancelled. -/
  | cancelled (v : Task) (h_v : v ∈ q'.history) (h_id : v.id = u.id) (h_status : v.status = .cancelled)
    (h_asked : u.cancelRequested = false) (h_state : r.state = .cancelled) : Settled q' u r .cancelled
  /-- The run failed, and the task waits for its next attempt with the error of the report. -/
  | retrying (v : Task) (h_v : v ∈ q'.pending) (h_id : v.id = u.id) (h_status : v.status = .pending)
    (h_error : v.lastError = r.error) (h_some : r.error.isSome = true) (h_asked : u.cancelRequested = false)
    (h_state : r.state = .failed) : Settled q' u r (.retrying (u.retryCount + 1))
  /-- The run failed, and so did the task, with the error of the report. -/
  | failed (v : Task) (h_v : v ∈ q'.history) (h_id : v.id = u.id) (h_status : v.status = .failed)
    (h_error : v.lastError = r.error) (h_some : r.error.isSome = true) (h_asked : u.cancelRequested = false)
    (h_state : r.state = .failed) : Settled q' u r .failed

/-- **A definite report is accepted** for the running task, and settles it. -/
theorem Roomy.complete (h : q.Roomy) (h_run : q.running = some u) {r : RunReport} (h_report : r.Definite)
    (now : Instant) : ∃ d q', q.complete u.id r.outcome now = .ok (d, q') ∧ q'.Settled u r d := by
  have h_kept : ∀ v : Task, v ∈ remember q.historyLimit q.history v := fun v =>
    mem_remember_self v h.history h.limit
  unfold GroupQueue.complete
  simp only [h_run, ne_eq, not_true_eq_false, if_false]
  by_cases h_marked : u.cancelRequested = true
  · rw [if_pos h_marked]
    exact ⟨_, _, rfl, .withdrawn _ (h_kept _) rfl rfl h_marked⟩
  · rw [if_neg h_marked]
    have h_asked : u.cancelRequested = false := Bool.of_not_eq_true h_marked
    rcases h_report.outcome with ⟨h_state, h_outcome⟩ | ⟨h_state, h_outcome⟩ |
      ⟨h_state, f, h_outcome, h_error, -⟩
    · rw [h_outcome]
      exact ⟨_, _, rfl, .completed _ (h_kept _) rfl rfl rfl h_asked h_state⟩
    · rw [h_outcome]
      exact ⟨_, _, rfl, .cancelled _ (h_kept _) rfl rfl h_asked h_state⟩
    · rw [h_outcome]
      have h_some : r.error.isSome = true := by rw [h_error]; rfl
      simp only
      split
      · -- the task is of the group, so the queue takes it back
        obtain ⟨q₁, h_retry⟩ : ∃ q₁, retry { q with running := none } { u with lastError := some f.error } now
            = .ok q₁ := ⟨_, enqueue_eq_ok_iff.mpr ⟨h.running u h_run, rfl⟩⟩
        rw [h_retry]
        obtain ⟨-, rfl⟩ := enqueue_eq_ok_iff.mp h_retry
        exact ⟨_, _, rfl, .retrying _ (mem_insertByPriority.mpr (.inl rfl)) rfl rfl h_error.symm h_some h_asked
          h_state⟩
      · exact ⟨_, _, rfl, .failed _ (h_kept _) rfl rfl h_error.symm h_some h_asked h_state⟩

end GroupQueue

end ScriptYard
