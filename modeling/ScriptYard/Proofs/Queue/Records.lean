import ScriptYard.Proofs.Queue.Lives

/-!
# What the records of tasks say

Every operation of a queue writes some fields of a record, and none writes all of them. `GroupQueue.records_coherent`
says that the fields agree with the status all the same: a task that waits is as blank as a new one (`Task.Blank`), also
if it was run before; a running one bears what was written since its last start and nothing from before
(`Task.Bears`); one that came to its end has a result exactly if it is completed (`Task.Closed`).

What is to be found in the record of a running task is read off the operations: `GroupQueue.Attempt` cuts a run of a
queue at the last start of the task, and `lastTie` is what the queue was told of the run of the task behind it. The
invariant is that every record is of this kind for its place (`GroupQueue.WaitsAfter`, `RunsAfter`, `EndedAfter`). In an
operation a record stays in its place, and then no passage of the task happens (`GroupQueue.Touch.pending_stays` and the
two beside it), or it moves, and there is one lemma for each such move.
-/

namespace ScriptYard

variable {t : String} {op : QueueOp} {ops : List QueueOp} {u v : Task}

/-! ### Fields of a record -/

/-- Nothing of a run, of an end, or of a wish to end it stands in the record. -/
structure Task.Blank (u : Task) : Prop where
  startedAt : u.startedAt = none
  completedAt : u.completedAt = none
  run : u.run = none
  token : u.token = none
  result : u.result = none
  cancelRequested : u.cancelRequested = false

/-- The record is of a task that came to its end. -/
structure Task.Closed (u : Task) : Prop where
  /-- It says when. -/
  completedAt : u.completedAt.isSome = true
  /-- There is a result of the run that was successful. -/
  result : u.result.isSome = true ↔ u.status = .completed
  /-- There is an error of the run that failed. -/
  lastError : u.status = .failed → u.lastError.isSome = true

/-- What an operation tells of the run of a task: its id and its token. -/
def QueueOp.tie? (t : String) : QueueOp → Option (String × CancelToken)
  | .attach i run token => if i = t then some (run, token) else none
  | _ => none

/-- What some operations told last of the run of a task. -/
def lastTie (t : String) (ops : List QueueOp) : Option (String × CancelToken) :=
  (ops.filterMap (QueueOp.tie? t)).getLast?

/-- The record is of a run that was started at a time, with what some operations told of it. -/
structure Task.Bears (u : Task) (now : Instant) (since : List QueueOp) : Prop where
  startedAt : u.startedAt = some now
  run : u.run = (lastTie u.id since).map (·.1)
  token : u.token = (lastTie u.id since).map (·.2)

/-- The second record is the first one with what an operation tells of the run of the task, and perhaps a mark. -/
structure Task.Noted (u : Task) (op : QueueOp) (v : Task) : Prop where
  id : v.id = u.id
  startedAt : v.startedAt = u.startedAt
  completedAt : v.completedAt = u.completedAt
  result : v.result = u.result
  run : v.run = ((op.tie? u.id).map (·.1)).or u.run
  token : v.token = ((op.tie? u.id).map (·.2)).or u.token

theorem lastTie_concat (t : String) (ops : List QueueOp) (op : QueueOp) :
    lastTie t (ops ++ [op]) = (op.tie? t).or (lastTie t ops) := by
  unfold lastTie
  rw [List.filterMap_append, List.getLast?_append]
  cases h : op.tie? t <;> simp [h]

theorem isSome_lastTie_iff : (lastTie t ops).isSome = true ↔ ∃ run token, .attach t run token ∈ ops := by
  unfold lastTie
  constructor
  · intro h
    obtain ⟨tie, h_last⟩ := Option.isSome_iff_exists.mp h
    obtain ⟨op, h_op, h_tie⟩ := List.mem_filterMap.mp (List.mem_of_getLast? h_last)
    cases op with
    | attach i run token =>
      obtain ⟨rfl, -⟩ := Option.ite_none_right_eq_some.mp h_tie
      exact ⟨run, token, h_op⟩
    -- no other operation ties a run to a task
    | _ => cases h_tie
  · rintro ⟨run, token, h_op⟩
    rw [List.getLast?_isSome]
    exact List.ne_nil_of_mem (List.mem_filterMap.mpr ⟨_, h_op, if_pos rfl⟩)

/-- An operation that tells nothing of the task leaves the record as it is. -/
theorem Task.Noted.refl (h : op.tie? u.id = none) : u.Noted op u := by
  constructor <;> simp [h]

/-- The record of a running task has no result, and has one at its end if the run was successful. -/
theorem Task.closed_concluded (h : u.result = none) (outcome : TaskOutcome) (now : Instant) :
    (u.concluded outcome now).Closed := by
  unfold Task.concluded
  split
  · constructor <;> simp [Task.ended, h]
  · cases outcome <;> constructor <;> simp [Task.ended, h]

theorem Task.closed_withdrawn (h : u.Blank) (now : Instant) : (GroupQueue.withdrawn u now).Closed := by
  constructor <;> simp [GroupQueue.withdrawn, Task.ended, h.result]

theorem Task.bears_concluded {now : Instant} {since : List QueueOp} (h : u.Bears now since) (outcome : TaskOutcome)
    (time : Instant) : (u.concluded outcome time).Bears now since := by
  unfold Task.concluded
  split
  · exact ⟨h.startedAt, h.run, h.token⟩
  · cases outcome <;> exact ⟨h.startedAt, h.run, h.token⟩

namespace GroupQueue

variable {q q' : GroupQueue}

/-! ### The last attempt -/

theorem run_concat (q : GroupQueue) (ops : List QueueOp) (op : QueueOp) :
    q.run (ops ++ [op]) = (q.run ops).after op := q.run_append ops [op]

theorem course_concat (q : GroupQueue) (t : String) (ops : List QueueOp) (op : QueueOp) :
    q.course t (ops ++ [op]) = q.course t ops ++ ((q.run ops).passage? t op).toList := by
  rw [course_append, course, course, List.append_nil]

/-- A task was given out at a time after some operations, and nothing happened to it in those behind. -/
structure Attempt (q : GroupQueue) (t : String) (before : List QueueOp) (now : Instant) (since : List QueueOp) :
    Prop where
  /-- The task was given out. -/
  start : (q.run before).passage? t (.dequeue now) = some .started
  /-- Neither was it given out again, nor did the run come to its end. -/
  quiet : ((q.run before).after (.dequeue now)).course t since = []

variable {before since : List QueueOp} {now : Instant}

theorem Attempt.course (h : q.Attempt t before now since) :
    q.course t (before ++ .dequeue now :: since) = q.course t before ++ [.started] := by
  rw [course_append, GroupQueue.course, h.start, h.quiet]
  rfl

theorem Attempt.concat (h : q.Attempt t before now since)
    (h_none : (q.run (before ++ .dequeue now :: since)).passage? t op = none) :
    q.Attempt t before now (since ++ [op]) where
  start := h.start
  quiet := by
    have h_run : q.run (before ++ .dequeue now :: since) = ((q.run before).after (.dequeue now)).run since := by
      rw [run_append]
      rfl
    rw [course_concat, h.quiet, ← h_run, h_none]
    rfl

/-! ### Records in their places -/

/-- The record is of a task that waits after some operations. -/
structure WaitsAfter (q : GroupQueue) (ops : List QueueOp) (u : Task) : Prop where
  /-- Nothing is left of an earlier run. -/
  blank : u.Blank
  /-- The task is not running. -/
  course : ∃ path p, q.course u.id ops = path ++ [p] ∧ p ≠ .started

/-- The record is of a task that is running after some operations. -/
structure RunsAfter (q : GroupQueue) (ops : List QueueOp) (u : Task) : Prop where
  /-- It has not come to its end. -/
  completedAt : u.completedAt = none
  /-- The run has not given anything. -/
  result : u.result = none
  /-- What is known of the run was told since it was started. -/
  attempt : ∃ before now since, ops = before ++ .dequeue now :: since ∧ q.Attempt u.id before now since ∧
    u.Bears now since

/-- The record is of a task that came to its end in some operations. -/
structure EndedAfter (q : GroupQueue) (ops : List QueueOp) (u : Task) : Prop where
  /-- It is the record of such a task. -/
  closed : u.Closed
  /-- It has the time of a start exactly if the task was running when it came to its end. -/
  course : ∃ path p, q.course u.id ops = path ++ [p, .ended u.status] ∧ (p = .started ↔ u.startedAt.isSome = true)
  /-- What is known of a run is of the last one, and was told before its end. -/
  attempt : (u.startedAt = none ∧ u.run = none ∧ u.token = none) ∨
    ∃ before now since outcome time rest, ops = before ++ .dequeue now :: since ++ .complete u.id outcome time :: rest ∧
      q.Attempt u.id before now since ∧ u.Bears now since

theorem WaitsAfter.concat (h : q.WaitsAfter ops u) (h_none : (q.run ops).passage? u.id op = none) :
    q.WaitsAfter (ops ++ [op]) u := by
  refine ⟨h.blank, ?_⟩
  rw [course_concat, h_none, Option.toList_none, List.append_nil]
  exact h.course

theorem EndedAfter.concat (h : q.EndedAfter ops u) (h_none : (q.run ops).passage? u.id op = none) :
    q.EndedAfter (ops ++ [op]) u := by
  refine ⟨h.closed, ?_, h.attempt.imp_right ?_⟩
  · rw [course_concat, h_none, Option.toList_none, List.append_nil]
    exact h.course
  · rintro ⟨before, now, since, outcome, time, rest, rfl, h_rest⟩
    exact ⟨before, now, since, outcome, time, rest ++ [op], by simp, h_rest⟩

theorem RunsAfter.noted (h : q.RunsAfter ops u) (h_none : (q.run ops).passage? u.id op = none) (h_v : u.Noted op v) :
    q.RunsAfter (ops ++ [op]) v := by
  obtain ⟨before, now, since, rfl, h_attempt, h_bears⟩ := h.attempt
  refine ⟨h_v.completedAt.trans h.completedAt, h_v.result.trans h.result, before, now, since ++ [op], by simp, ?_, ?_⟩
  · rw [h_v.id]
    exact h_attempt.concat h_none
  · have h_tie : lastTie v.id (since ++ [op]) = (op.tie? u.id).or (lastTie u.id since) := by
      rw [h_v.id, lastTie_concat]
    refine ⟨h_v.startedAt.trans h_bears.startedAt, ?_, ?_⟩
    · rw [h_tie, h_v.run, h_bears.run]
      cases op.tie? u.id <;> rfl
    · rw [h_tie, h_v.token, h_bears.token]
      cases op.tie? u.id <;> rfl

/-! ### Moves from place to place -/

theorem WaitsAfter.queued (h : u.Blank) (h_queued : (q.run ops).passage? u.id op = some .queued) :
    q.WaitsAfter (ops ++ [op]) { u with status := .pending } :=
  ⟨⟨h.startedAt, h.completedAt, h.run, h.token, h.result, h.cancelRequested⟩, q.course u.id ops, .queued,
    (course_concat q u.id ops op).trans (by rw [h_queued]; rfl), nofun⟩

/-- A task that is given out begins a new run, of which nothing is known yet. -/
theorem WaitsAfter.started (h : q.WaitsAfter ops u)
    (h_start : (q.run ops).passage? u.id (.dequeue now) = some .started) :
    q.RunsAfter (ops ++ [.dequeue now]) (u.started now) :=
  ⟨rfl, h.blank.result, ops, now, [], rfl, ⟨h_start, rfl⟩, rfl, h.blank.run, h.blank.token⟩

/-- A task that waits and is cancelled was not running. -/
theorem WaitsAfter.withdrawn (h : q.WaitsAfter ops u)
    (h_end : (q.run ops).passage? u.id op = some (.ended .cancelled)) (time : Instant) :
    q.EndedAfter (ops ++ [op]) (GroupQueue.withdrawn u time) := by
  obtain ⟨path, p, h_course, h_p⟩ := h.course
  refine ⟨Task.closed_withdrawn h.blank time, ⟨path, p, ?_, ?_⟩, .inl ⟨h.blank.startedAt, h.blank.run, h.blank.token⟩⟩
  · rw [withdrawn_id, course_concat, h_end, h_course]
    simp
  · have h_none : (GroupQueue.withdrawn u time).startedAt = none := h.blank.startedAt
    rw [h_none]
    exact iff_of_false h_p Bool.false_ne_true

/-- What the run of a task left is gone when the task is queued again. -/
theorem RunsAfter.requeued (h : q.RunsAfter ops u) (h_req : u.cancelRequested = false) {k : ℕ}
    (h_again : (q.run ops).passage? u.id op = some (.retried k)) (error : String) (time : Instant) :
    q.WaitsAfter (ops ++ [op])
      { (q.run ops).requeued { u with lastError := some error } time with status := .pending } := by
  refine ⟨⟨rfl, h.completedAt, rfl, rfl, h.result, h_req⟩, q.course u.id ops, .retried k, ?_, nofun⟩
  exact (course_concat q u.id ops op).trans (by rw [h_again]; rfl)

/-- A running task that comes to its end keeps what is known of its run. -/
theorem RunsAfter.concluded (h : q.RunsAfter ops u) {outcome : TaskOutcome} {time : Instant}
    (h_end : (q.run ops).passage? u.id (.complete u.id outcome time) =
      some (.ended (u.concluded outcome time).status)) :
    q.EndedAfter (ops ++ [.complete u.id outcome time]) (u.concluded outcome time) := by
  obtain ⟨before, now, since, rfl, h_attempt, h_bears⟩ := h.attempt
  have h_id := (concluded_same u outcome time).1
  have h_bears := Task.bears_concluded h_bears outcome time
  refine ⟨Task.closed_concluded h.result outcome time, ⟨q.course u.id before, .started, ?_, ?_⟩,
    .inr ⟨before, now, since, outcome, time, [], by rw [h_id], h_id ▸ h_attempt, h_bears⟩⟩
  · rw [h_id, course_concat, h_end, h_attempt.course]
    simp
  · rw [h_bears.startedAt]
    exact iff_of_true rfl rfl

/-! ### Records that stay where they are -/

namespace Touch

variable {p : Option Passage}

theorem pending_stays (h : q.Touch t q' p) (h_once : (taskIds q.tasks).Nodup) (h_u : u ∈ q.pending) (h_id : u.id = t)
    (h_v : v ∈ q'.pending) (h_id' : v.id = t) : p = none := by
  obtain ⟨-, h_busy, -⟩ := places_apart h_once
  cases h with
  | spared => rfl
  | started w h_w h_w_id h_rest => exact absurd h_id' (h_rest v h_v)
  | retried w x h_w h_w_id => exact absurd (h_w_id.trans h_id.symm) (h_busy w h_w u h_u)
  | ended w x s h_w h_w_id => exact absurd (h_w_id.trans h_id.symm) (h_busy w h_w u h_u)
  | withdrawn w h_w h_w_id h => exact (h.pending v h_v h_id').elim

theorem running_stays (h : q.Touch t q' p) (h_once : (taskIds q.tasks).Nodup) (h_u : u ∈ q.running) (h_id : u.id = t)
    (h_v : v ∈ q'.running) (h_id' : v.id = t) : p = none := by
  obtain ⟨-, h_busy, -⟩ := places_apart h_once
  cases h with
  | spared => rfl
  | started w h_w h_w_id => exact absurd (h_id.trans h_w_id.symm) (h_busy u h_u w h_w)
  | retried w x h_w h_w_id h_left h_counts h_q =>
    subst h_q
    cases h_v
  | ended w x s h_w h_w_id h_end h_status h_counts h_q =>
    subst h_q
    cases h_v
  | withdrawn w h_w h_w_id h => exact (h.running v h_v h_id').elim

theorem history_stays (h : q.Touch t q' p) (h_once : (taskIds q.tasks).Nodup) (h_u : u ∈ q.history)
    (h_id : u.id = t) : p = none := by
  obtain ⟨-, -, h_old⟩ := places_apart h_once
  cases h with
  | spared => rfl
  | started w h_w h_w_id => exact absurd (h_w_id.trans h_id.symm) ((h_old u h_u).1 w h_w)
  | retried w x h_w h_w_id => exact absurd (h_w_id.trans h_id.symm) ((h_old u h_u).2 w h_w)
  | ended w x s h_w h_w_id => exact absurd (h_w_id.trans h_id.symm) ((h_old u h_u).2 w h_w)
  | withdrawn w h_w h_w_id => exact absurd (h_w_id.trans h_id.symm) ((h_old u h_u).1 w h_w)

end Touch

/-! ### Every operation and every run -/

/-- The passage of the end of a run, for the task that was running. -/
theorem passage?_complete {outcome : TaskOutcome} {d : Disposition} (h : q.complete t outcome now = .ok (d, q')) :
    q.passage? t (.complete t outcome now) = some (match d with
      | .retrying k => .retried k
      | d => .ended d.status) := by
  simp only [passage?, h]
  cases d <;> simp

/-- All records are of the kind of their place. -/
structure Coherent (q : GroupQueue) (ops : List QueueOp) : Prop where
  pending : ∀ u ∈ (q.run ops).pending, q.WaitsAfter ops u
  running : ∀ u ∈ (q.run ops).running, q.RunsAfter ops u
  history : ∀ u ∈ (q.run ops).history, q.EndedAfter ops u

namespace Coherent

variable (h : q.Coherent ops) (h_new : ∀ u ∈ (q.run ops).tasks, u.id ∉ op.offered)
  (h_once : (taskIds (q.run ops).tasks).Nodup)

include h h_new h_once

/-- The records after an operation are of the kind of their place if those are that were not in it before. -/
theorem concat (h_after : (q.run ops).after op = q')
    (h_pending : ∀ v ∈ q'.pending, v ∈ (q.run ops).pending ∨ q.WaitsAfter (ops ++ [op]) v)
    (h_running : ∀ v ∈ q'.running, (∃ u ∈ (q.run ops).running, u.Noted op v) ∨ q.RunsAfter (ops ++ [op]) v)
    (h_history : ∀ v ∈ q'.history, v ∈ (q.run ops).history ∨ q.EndedAfter (ops ++ [op]) v) :
    q.Coherent (ops ++ [op]) := by
  have h_touch : ∀ u ∈ (q.run ops).tasks, (q.run ops).Touch u.id q' ((q.run ops).passage? u.id op) :=
    fun u h_u => h_after ▸ (q.run ops).touch (h_new u h_u) h_once
  refine ⟨fun v h_v => ?_, fun v h_v => ?_, fun v h_v => ?_⟩ <;> rw [run_concat, h_after] at h_v
  · -- a record that stayed in its place: its task was not touched, so it may be carried over
    rcases h_pending v h_v with h_old | h_moved
    · have h_none := (h_touch v (mem_tasks.mpr (.inr (.inl h_old)))).pending_stays h_once h_old rfl h_v rfl
      exact (h.pending v h_old).concat h_none
    · exact h_moved
  · -- the running record may have been noted in, but its task did not move
    rcases h_running v h_v with ⟨u, h_u, h_noted⟩ | h_moved
    · have h_none := (h_touch u (mem_tasks.mpr (.inl h_u))).running_stays h_once h_u rfl h_v h_noted.id
      exact (h.running u h_u).noted h_none h_noted
    · exact h_moved
  · rcases h_history v h_v with h_old | h_moved
    · have h_none := (h_touch v (mem_tasks.mpr (.inr (.inr h_old)))).history_stays h_once h_old rfl
      exact (h.history v h_old).concat h_none
    · exact h_moved

/-- An operation that is refused leaves all records in their places. -/
theorem refused (h_after : (q.run ops).after op = q.run ops)
    (h_tie : ∀ u ∈ (q.run ops).running, op.tie? u.id = none) : q.Coherent (ops ++ [op]) :=
  h.concat h_new h_once h_after (fun _ h_v => .inl h_v) (fun v h_v => .inl ⟨v, h_v, .refl (h_tie v h_v)⟩)
    fun _ h_v => .inl h_v

theorem after_dequeue (now : Instant) (h_op : op = .dequeue now) : q.Coherent (ops ++ [op]) := by
  subst h_op
  cases h_deq : (q.run ops).dequeue now with
  | none => exact h.refused h_new h_once (by simp only [GroupQueue.after, h_deq]) fun _ _ => rfl
  | some r =>
    obtain ⟨w, q'⟩ := r
    have h_after : (q.run ops).after (.dequeue now) = q' := by simp only [GroupQueue.after, h_deq]
    obtain ⟨-, -, l₁, u, l₂, h_pending, -, -, rfl, rfl⟩ := dequeue_eq_some_iff.mp h_deq
    have h_start : (q.run ops).passage? u.id (.dequeue now) = some .started := by
      simp [passage?, h_deq, Task.started]
    refine h.concat h_new h_once h_after (fun v h_v => .inl ?_) (fun v h_v => .inr ?_) fun v h_v => .inl h_v
    · exact mem_pending_of_rest h_pending h_v
    · cases h_v
      exact (h.pending u (by simp [h_pending])).started h_start

theorem after_complete (i : String) (outcome : TaskOutcome) (now : Instant)
    (h_op : op = .complete i outcome now) : q.Coherent (ops ++ [op]) := by
  subst h_op
  cases h_com : (q.run ops).complete i outcome now with
  | error e => exact h.refused h_new h_once (by simp only [GroupQueue.after, h_com]) fun _ _ => rfl
  | ok r =>
    obtain ⟨d, q'⟩ := r
    have h_after : (q.run ops).after (.complete i outcome now) = q' := by simp only [GroupQueue.after, h_com]
    have h_passage := passage?_complete h_com
    obtain ⟨u, h_run, rfl, -, ⟨h_end, h_status, rfl⟩ | ⟨f, rfl, rfl, h_req, -, rfl⟩⟩ := complete_answer h_com
    · refine h.concat h_new h_once h_after (fun v h_v => .inl h_v) (fun v h_v => absurd h_v (Option.not_mem_none v))
        fun v h_v => ?_
      rcases mem_remember h_v with rfl | h_v
      · refine .inr ((h.running u h_run).concluded ?_)
        rw [h_status]
        -- an end is no retry
        cases d with
        | retrying k => cases h_end
        | completed | failed | cancelled => exact h_passage
      · exact .inl h_v
    · refine h.concat h_new h_once h_after (fun v h_v => ?_) (fun v h_v => absurd h_v (Option.not_mem_none v))
        fun v h_v => .inl h_v
      rcases mem_insertByPriority.mp h_v with rfl | h_v
      · exact .inr ((h.running u h_run).requeued h_req h_passage f.error now)
      · exact .inl h_v

theorem after_cancel (i : String) (now : Instant) (h_op : op = .cancel i now) :
    q.Coherent (ops ++ [op]) := by
  subst h_op
  cases h_can : (q.run ops).cancel i now with
  | none => exact h.refused h_new h_once (by simp only [GroupQueue.after, h_can]) fun _ _ => rfl
  | some r =>
    obtain ⟨o, q'⟩ := r
    have h_after : (q.run ops).after (.cancel i now) = q' := by simp only [GroupQueue.after, h_can]
    obtain ⟨l₁, u, l₂, h_pending, rfl, -, rfl, rfl⟩ | ⟨-, u, h_run, -, -, rfl, rfl⟩ := cancel_cases h_can
    · -- a task that waits is withdrawn, and one that runs is marked
      have h_end : (q.run ops).passage? u.id (.cancel u.id now) = some (.ended .cancelled) := by
        simp [passage?, h_can]
      refine h.concat h_new h_once h_after (fun v h_v => .inl ?_) (fun v h_v => .inl ⟨v, h_v, .refl rfl⟩)
        fun v h_v => ?_
      · exact mem_pending_of_rest h_pending h_v
      · rcases mem_remember h_v with rfl | h_v
        · exact .inr ((h.pending u (by simp [h_pending])).withdrawn h_end now)
        · exact .inl h_v
    · refine h.concat h_new h_once h_after (fun v h_v => .inl h_v) (fun v h_v => .inl ⟨u, h_run, ?_⟩)
        fun v h_v => .inl h_v
      cases h_v
      exact ⟨rfl, rfl, rfl, rfl, rfl, rfl⟩

theorem after_cancelAll (now : Instant) (h_op : op = .cancelAll now) : q.Coherent (ops ++ [op]) := by
  subst h_op
  refine h.concat h_new h_once (cancelAll_snd (q.run ops) now) (fun v h_v => ?_) (fun v h_v => ?_) fun v h_v => ?_
  · rw [archiveAll_pending] at h_v
    exact absurd h_v List.not_mem_nil
  · obtain ⟨u, h_run, rfl⟩ := Option.map_eq_some_iff.mp h_v
    exact .inl ⟨u, h_run, rfl, rfl, rfl, rfl, rfl, rfl⟩
  · rcases mem_archiveAll h_v with h_v | h_v
    · exact .inl h_v
    · obtain ⟨u, h_u, rfl⟩ := List.mem_map.mp h_v
      have h_end : (q.run ops).passage? u.id (.cancelAll now) = some (.ended .cancelled) :=
        if_pos (List.mem_map_of_mem h_u)
      exact .inr ((h.pending u h_u).withdrawn h_end now)

/-- **Every operation leaves records of the kind of their place**, if the task that it offers is a new one. -/
theorem after (h_fresh : ∀ v, op = .enqueue v → v.Blank) : q.Coherent (ops ++ [op]) := by
  cases op with
  | enqueue w =>
    cases h_enq : (q.run ops).enqueue w with
    | error e => exact h.refused h_new h_once (by simp only [GroupQueue.after, h_enq]) fun _ _ => rfl
    | ok q' =>
      have h_after : (q.run ops).after (.enqueue w) = q' := by simp only [GroupQueue.after, h_enq]
      have h_queued : (q.run ops).passage? w.id (.enqueue w) = some .queued := by simp [passage?, h_enq]
      obtain ⟨-, rfl⟩ := enqueue_eq_ok_iff.mp h_enq
      refine h.concat h_new h_once h_after (fun v h_v => ?_) (fun v h_v => .inl ⟨v, h_v, .refl rfl⟩)
        fun v h_v => .inl h_v
      rcases mem_insertByPriority.mp h_v with rfl | h_v
      · exact .inr (.queued (h_fresh w rfl) h_queued)
      · exact .inl h_v
  | dequeue now => exact h.after_dequeue h_new h_once now rfl
  | attach i run token =>
    obtain ⟨u, h_run, rfl, h_att⟩ | ⟨h_not, h_att⟩ := attach_cases (q.run ops) i run token
    · have h_after : (q.run ops).after (.attach u.id run token) =
          { q.run ops with running := some (u.attached run token) } := by simp only [GroupQueue.after, h_att]
      refine h.concat h_new h_once h_after (fun v h_v => .inl h_v) (fun v h_v => .inl ⟨u, h_run, ?_⟩)
        fun v h_v => .inl h_v
      cases h_v
      constructor <;> simp [Task.attached, QueueOp.tie?]
    · exact h.refused h_new h_once (by simp only [GroupQueue.after, h_att]) fun u h_u => if_neg (h_not u h_u).symm
  | complete i outcome now => exact h.after_complete h_new h_once i outcome now rfl
  | cancel i now => exact h.after_cancel h_new h_once i now rfl
  | cancelAll now => exact h.after_cancelAll h_new h_once now rfl
  | setEnabled b =>
    exact h.concat h_new h_once rfl (fun _ h_v => .inl h_v) (fun v h_v => .inl ⟨v, h_v, .refl rfl⟩)
      fun _ h_v => .inl h_v
  | setExceptionScript script =>
    exact h.concat h_new h_once rfl (fun _ h_v => .inl h_v) (fun v h_v => .inl ⟨v, h_v, .refl rfl⟩)
      fun _ h_v => .inl h_v

end Coherent

/-- What a record of a task that was cancelled tells of its course. -/
theorem EndedAfter.isSome_startedAt_iff (h : q.EndedAfter ops u) :
    u.startedAt.isSome = true ↔ ∃ path, q.course u.id ops = path ++ [.started, .ended u.status] := by
  obtain ⟨path, p, h_course, h_p⟩ := h.course
  rw [← h_p]
  constructor
  · rintro rfl
    exact ⟨path, h_course⟩
  · rintro ⟨path', h_course'⟩
    have h_tail := List.append_inj_right' (h_course.symm.trans h_course') rfl
    exact (List.cons.inj h_tail).1

section FromTheStart

variable (id name : String) (limit : ℕ) (policy : RetryPolicy)

/-- A queue that began empty keeps only tasks that it was offered. -/
theorem mem_offeredIds_of_tasks (distinct : (offeredIds ops).Nodup)
    (h_u : u ∈ ((create id name limit policy).run ops).tasks) : u.id ∈ offeredIds ops := by
  by_contra h_out
  have h_start := records_create (t := u.id) id name limit policy
  obtain ⟨-, h_unknown⟩ := unknown_run h_start h_out (nodup_run id name limit policy distinct)
  rcases mem_tasks.mp h_u with h_u | h_u | h_u
  · exact h_unknown.running u h_u rfl
  · exact h_unknown.pending u h_u rfl
  · exact h_unknown.history u h_u rfl

theorem coherent_run (fresh : ∀ v, .enqueue v ∈ ops → v.Blank) (distinct : (offeredIds ops).Nodup) :
    (create id name limit policy).Coherent ops := by
  induction ops using List.reverseRecOn with
  | nil =>
    refine ⟨fun _ h_u => absurd h_u List.not_mem_nil, fun _ h_u => ?_, fun _ h_u => absurd h_u List.not_mem_nil⟩
    cases h_u
  | append_singleton ops op ih =>
    have h_ops := nodup_offeredIds_of_append distinct
    have h_once := nodup_run id name limit policy h_ops ops (List.prefix_refl ops)
    have h_coherent := ih (fun v h_v => fresh v (List.mem_append_left _ h_v)) h_ops
    refine h_coherent.after (fun u h_u h_in => ?_) h_once fun v h_v => fresh v (by simp [h_v])
    -- what the queue keeps was offered before, and is not offered twice
    have h_before := mem_offeredIds_of_tasks id name limit policy h_ops h_u
    unfold offeredIds at distinct
    rw [List.flatMap_append] at distinct
    exact (List.nodup_append.mp distinct).2.2 _ h_before _ (by simpa using h_in) rfl

/-- **Records agree with their status.** In any run of a queue that began empty, of blank tasks with ids of their own,

* a task that waits is blank;
* a running task has no end and no result, has the time of its last start, and the id and the token of its run that were
  told since that start, if any were;
* one that came to its end has the time of it, a result exactly if it is completed, and an error if it failed; a
  cancelled one has the time of a start exactly if it was running when it was cancelled;
* whatever stands in the record of an ended task of a run is of its last attempt. -/
theorem records_coherent (ops : List QueueOp) (fresh : ∀ v, .enqueue v ∈ ops → v.Blank)
    (distinct : (offeredIds ops).Nodup) :
    let q := create id name limit policy
    (∀ u ∈ (q.run ops).tasks, match u.status with
      | .pending => u.Blank
      | .running => u.completedAt = none ∧ u.result = none ∧
          ∃ before now since, ops = before ++ .dequeue now :: since ∧ q.Attempt u.id before now since ∧
            u.Bears now since ∧ (u.run.isSome = true ↔ ∃ run token, .attach u.id run token ∈ since)
      | .completed => u.result.isSome = true ∧ u.completedAt.isSome = true
      | .failed => u.lastError.isSome = true ∧ u.completedAt.isSome = true ∧ u.result = none
      | .cancelled => u.completedAt.isSome = true ∧ u.result = none ∧
          (u.startedAt.isSome = true ↔ ∃ path, q.course u.id ops = path ++ [.started, .ended .cancelled])) ∧
    ∀ u ∈ (q.run ops).tasks, u.status.isTerminal = true →
      (u.startedAt = none ∧ u.run = none ∧ u.token = none) ∨
      ∃ before now since outcome time rest,
        ops = before ++ .dequeue now :: since ++ .complete u.id outcome time :: rest ∧
        q.Attempt u.id before now since ∧ u.Bears now since := by
  intro q
  have h := coherent_run id name limit policy fresh distinct
  obtain ⟨l, h_balanced, h_queue⟩ := exists_balanced id name limit policy distinct
  -- the status of a record tells its place: the ledger is balanced
  have h_waits := h_balanced.pending_status
  have h_runs := h_balanced.running_status
  have h_ends := h_balanced.history_status
  rw [h_queue] at h_waits h_runs h_ends
  refine ⟨fun u h_u => ?_, fun u h_u h_end => ?_⟩
  · -- only a record of the history has a terminal status
    rcases mem_tasks.mp h_u with h_u | h_u | h_u
    · obtain ⟨h_completedAt, h_result, before, now, since, h_ops, h_attempt, h_bears⟩ := h.running u h_u
      rw [h_runs u h_u]
      refine ⟨h_completedAt, h_result, before, now, since, h_ops, h_attempt, h_bears, ?_⟩
      rw [h_bears.run, Option.isSome_map, isSome_lastTie_iff]
    · rw [h_waits u h_u]
      exact (h.pending u h_u).blank
    · -- what came to its end is closed, and its status says which fields it has
      have h_closed := (h.history u h_u).closed
      have h_started := (h.history u h_u).isSome_startedAt_iff
      have h_terminal := h_ends u h_u
      have h_none : u.status ≠ .completed → u.result = none := fun h_other =>
        Option.not_isSome_iff_eq_none.mp (mt h_closed.result.mp h_other)
      cases h_status : u.status with
      | pending | running => simp [h_status, TaskStatus.isTerminal] at h_terminal
      | completed => exact ⟨h_closed.result.mpr h_status, h_closed.completedAt⟩
      | failed => exact ⟨h_closed.lastError h_status, h_closed.completedAt, h_none (by simp [h_status])⟩
      | cancelled =>
        rw [h_status] at h_started
        exact ⟨h_closed.completedAt, h_none (by simp [h_status]), h_started⟩
  · rcases mem_tasks.mp h_u with h_u | h_u | h_u
    · rw [h_runs u h_u] at h_end
      cases h_end
    · rw [h_waits u h_u] at h_end
      cases h_end
    · exact (h.history u h_u).attempt

end FromTheStart

/-- A task is started, its queue is told of the run, the run fails, the task is started again, and its queue is told of
the second run. -/
def twoAttempts : List QueueOp :=
  [.enqueue (Ledger.plainTask "a"), .dequeue ⟨0, 0⟩, .attach "a" "first" ⟨1⟩,
    .complete "a" (.failed ⟨"lost", .transient⟩) ⟨1, 0⟩, .dequeue ⟨2, 0⟩, .attach "a" "second" ⟨2⟩]

/-- The record of the task is that of the second run, though the first one left its error. -/
theorem second_attempt_recorded :
    (∀ v, .enqueue v ∈ twoAttempts → v.Blank) ∧ (offeredIds twoAttempts).Nodup ∧
      ∃ u ∈ ((create "g" "G" 1 {}).run twoAttempts).tasks, u.status = .running ∧ u.lastError = some "lost" ∧
        u.run = some "second" ∧ u.token = some ⟨2⟩ ∧ u.completedAt = none ∧ u.result = none := by
  have h_fresh : ∀ v, .enqueue v ∈ twoAttempts → v.Blank := by
    intro v h_v
    obtain rfl : v = Ledger.plainTask "a" := by simpa [twoAttempts] using h_v
    exact ⟨rfl, rfl, rfl, rfl, rfl, rfl⟩
  have h_distinct : (offeredIds twoAttempts).Nodup := by decide
  obtain ⟨u, h_u⟩ : ∃ u, ((create "g" "G" 1 {}).run twoAttempts).running = some u := ⟨_, rfl⟩
  have h_tasks := mem_tasks.mpr (.inl h_u)
  have h_coherent := (records_coherent "g" "G" 1 {} twoAttempts h_fresh h_distinct).1 u h_tasks
  cases h_u
  exact ⟨h_fresh, h_distinct, _, h_tasks, rfl, rfl, rfl, rfl, h_coherent.1, h_coherent.2.1⟩

end GroupQueue

end ScriptYard
