import ScriptYard.Proofs.Queue.Events

/-!
# The lives of tasks

A `Passage` is a step in the life of a task: it is queued, started, queued again for an attempt with a
number, or comes to its end. `GroupQueue.passage?` reads the passage that an operation is for a task off
the answer of the operation, and `GroupQueue.course` lists the passages of a task over a run of a queue.
The place where the queue keeps the task is not looked at.

`Stage` ties the two together. After a course, the task is unknown, or waits for a start after so many
retries, or runs, or is at its end, and the records that the queue keeps of it are those of that place,
with the number of retries that the course tells. What an operation can do to the records of one task is
said once (`GroupQueue.Touch`), and every operation is of that kind (`GroupQueue.touch`); so a stage leads to a
stage (`Stage.after`), and with it every run (`Stage.run`).

`GroupQueue.life_of_task` puts the shape of a course, the bound on the starts, the numbers of the retries
and the reasons of the last end together. That a granted cancellation is never undone comes from
`GroupQueue.Withdrawn`.
-/

namespace ScriptYard

/-- A step in the life of a task. -/
inductive Passage where
  /-- It waits for its first start. -/
  | queued
  /-- It is running. -/
  | started
  /-- It waits for the retry of this number. -/
  | retried (attempt : ℕ)
  /-- It came to its end. -/
  | ended (status : TaskStatus)
deriving DecidableEq, Repr

namespace Passage

/-- The status of a task after a passage. -/
def status : Passage → TaskStatus
  | .queued | .retried _ => .pending
  | .started => .running
  | .ended s => s

/-- The number of the retry that a passage announces. -/
def attempt? : Passage → Option ℕ
  | .retried n => some n
  | .queued | .started | .ended _ => none

/-- The passages of a task that was retried so often and waits for its next start. -/
def begun (n : ℕ) : List Passage :=
  .queued :: (List.range' 1 n).flatMap fun k => [.started, .retried k]

theorem begun_succ (n : ℕ) : begun (n + 1) = begun n ++ [.started, .retried (n + 1)] := by
  simp [begun, List.range'_1_concat, Nat.add_comm]

theorem getLast?_begun (n : ℕ) : (begun n).getLast?.map status = some .pending := by
  cases n with
  | zero => rfl
  | succ n => simp [begun_succ, status]

theorem attempts_begun (n : ℕ) : (begun n).filterMap attempt? = List.range' 1 n := by
  induction n with
  | zero => rfl
  | succ n ih =>
    rw [begun_succ, List.filterMap_append, ih, List.range'_1_concat, Nat.add_comm 1 n]
    rfl

theorem count_started_begun (n : ℕ) : (begun n).count .started = n := by
  induction n with
  | zero => rfl
  | succ n ih =>
    rw [begun_succ, List.count_append, ih]
    rfl

end Passage

/-- What the end of a run makes of its task, if failures are retried by such a policy. -/
def Task.verdict (u : Task) (policy : RetryPolicy) (outcome : TaskOutcome) : Disposition :=
  if u.cancelRequested then .cancelled
  else match outcome with
    | .succeeded _ => .completed
    | .cancelled => .cancelled
    | .failed f =>
      if u.retryCount < u.maxRetries && policy.allows f.kind then .retrying (u.retryCount + 1) else .failed

/-- The record of a running task as it comes to its end with a run. -/
def Task.concluded (u : Task) (outcome : TaskOutcome) (now : Instant) : Task :=
  let cancelled := { u with lastError := some "cancelled" }.ended .cancelled now
  if u.cancelRequested then cancelled
  else match outcome with
    | .succeeded v => { u with result := some v }.ended .completed now
    | .cancelled => cancelled
    | .failed f => { u with lastError := some f.error }.ended .failed now

/-- The record is of a task that may be retried so often, and was so often. -/
structure Task.Counts (u : Task) (limit n : ℕ) : Prop where
  /-- How often the task may be retried. -/
  most : u.maxRetries = limit
  /-- How often it was. -/
  count : u.retryCount = n

namespace GroupQueue

/-- The passage that an operation is for a task. -/
def passage? (q : GroupQueue) (t : String) : QueueOp → Option Passage
  | .enqueue u => match q.enqueue u with
    | .ok _ => if u.id = t then some .queued else none
    | .error _ => none
  | .dequeue now => match q.dequeue now with
    | some (u, _) => if u.id = t then some .started else none
    | none => none
  | .complete i outcome now => match q.complete i outcome now with
    | .ok (.retrying k, _) => if i = t then some (.retried k) else none
    | .ok (d, _) => if i = t then some (.ended d.status) else none
    | .error _ => none
  | .cancel i now => match q.cancel i now with
    | some (.removed, _) => if i = t then some (.ended .cancelled) else none
    | _ => none
  | .cancelAll _ => if t ∈ taskIds q.pending then some (.ended .cancelled) else none
  | .attach .. | .setEnabled _ | .setExceptionScript _ => none

/-- The queue after some operations. -/
def run (q : GroupQueue) (ops : List QueueOp) : GroupQueue := ops.foldl after q

/-- The passages of a task in some operations. -/
def course (q : GroupQueue) (t : String) : List QueueOp → List Passage
  | [] => []
  | op :: ops => (q.passage? t op).toList ++ (q.after op).course t ops

/-- The operation is a cancellation that the queue accepts for a task. -/
def Grants (q : GroupQueue) (t : String) : QueueOp → Prop
  | .cancel i now => i = t ∧ q.cancel i now ≠ none
  | .cancelAll _ => (∃ u ∈ q.pending, u.id = t) ∨ ∃ u ∈ q.running, u.id = t
  | _ => False

variable {q q' : GroupQueue} {op : QueueOp} {ops : List QueueOp} {t : String} {u v : Task}

theorem run_append (q : GroupQueue) (ops ops' : List QueueOp) :
    q.run (ops ++ ops') = (q.run ops).run ops' := List.foldl_append

theorem course_append (q : GroupQueue) (t : String) (ops ops' : List QueueOp) :
    q.course t (ops ++ ops') = q.course t ops ++ (q.run ops).course t ops' := by
  induction ops generalizing q with
  | nil => rfl
  | cons op ops ih =>
    rw [List.cons_append, course, course, ih (q.after op), List.append_assoc]
    rfl

/-- No operation changes which failures of a queue are retried. -/
theorem after_retryPolicy (q : GroupQueue) (op : QueueOp) : (q.after op).retryPolicy = q.retryPolicy := by
  have h_change := q.change op
  generalize q.after op = q', q.tells op = evs at h_change
  cases h_change with
  | cleared now => simp [archiveAll_eq]
  | _ => rfl

theorem run_retryPolicy (q : GroupQueue) (ops : List QueueOp) :
    (q.run ops).retryPolicy = q.retryPolicy := by
  induction ops generalizing q with
  | nil => rfl
  | cons op ops ih => exact (ih (q.after op)).trans (q.after_retryPolicy op)

/-! ### The end of a run of the running task -/

/-- **What the end of a run answers and leaves.** The answer is the verdict on the running task. Its record comes to
the end that the verdict names, or is queued again without the traces of the run, which happens only to a task that
nobody asked to end. -/
theorem complete_answer {id : String} {outcome : TaskOutcome} {now : Instant} {d : Disposition}
    (h : q.complete id outcome now = .ok (d, q')) :
    ∃ u, q.running = some u ∧ u.id = id ∧ d = u.verdict q.retryPolicy outcome ∧
      ((d.status.isTerminal = true ∧ (u.concluded outcome now).status = d.status ∧
          q' = ({ q with running := none } : GroupQueue).archive (u.concluded outcome now)) ∨
        (∃ f, outcome = .failed f ∧ d = .retrying (u.retryCount + 1) ∧ u.cancelRequested = false ∧
          u.retryCount < u.maxRetries ∧
          q' = { q with
            running := none
            pending := insertByPriority
              { q.requeued { u with lastError := some f.error } now with status := .pending }
              q.pending })) := by
  unfold complete at h
  cases h_run : q.running with
  | none => simp [h_run] at h
  | some u =>
    simp only [h_run] at h
    split at h
    · cases h
    next h_id =>
    refine ⟨u, rfl, not_not.mp h_id, ?_⟩
    rw [Task.verdict.eq_def, Task.concluded.eq_def]
    by_cases h_req : u.cancelRequested = true
    · -- the mark decides, whatever the outcome
      rw [if_pos h_req] at h ⊢
      cases h
      exact ⟨rfl, .inl ⟨rfl, by rw [if_pos h_req]; rfl, by rw [if_pos h_req]⟩⟩
    · rw [if_neg h_req] at h ⊢
      rw [if_neg h_req]
      cases outcome with
      | succeeded w | cancelled =>
        cases h
        exact ⟨rfl, .inl ⟨rfl, rfl, rfl⟩⟩
      | failed f =>
        simp only at h ⊢
        split at h
        · next h_again =>
          -- the queue takes the task back
          rw [if_pos h_again]
          have h_left : u.retryCount < u.maxRetries := by
            have h_both := Bool.and_eq_true_iff.mp h_again
            exact of_decide_eq_true h_both.1
          cases h_retry : retry { q with running := none } { u with lastError := some f.error } now with
          | error e =>
            rw [h_retry] at h
            cases h
          | ok q₁ =>
            rw [h_retry] at h
            cases h
            obtain ⟨-, rfl⟩ := enqueue_eq_ok_iff.mp h_retry
            exact ⟨rfl, .inr ⟨f, rfl, rfl, Bool.of_not_eq_true h_req, h_left, rfl⟩⟩
        · next h_last =>
          rw [if_neg h_last]
          cases h
          exact ⟨rfl, .inl ⟨rfl, rfl, rfl⟩⟩

/-- A record keeps its id and its counts as it comes to its end. -/
theorem concluded_same (u : Task) (outcome : TaskOutcome) (now : Instant) :
    (u.concluded outcome now).id = u.id ∧ (u.concluded outcome now).Counts u.maxRetries u.retryCount := by
  unfold Task.concluded
  split
  · exact ⟨rfl, rfl, rfl⟩
  · cases outcome <;> exact ⟨rfl, rfl, rfl⟩

/-- The answer to the end of a run is the verdict on the running task, and the record that is made of
the task counts one more retry if it is queued again, and else as many as before. -/
theorem complete_verdict {id : String} {outcome : TaskOutcome} {now : Instant} {d : Disposition}
    (h : q.complete id outcome now = .ok (d, q')) :
    ∃ u, q.running = some u ∧ u.id = id ∧ d = u.verdict q.retryPolicy outcome ∧
      ∃ v : Task, v.id = u.id ∧
        ((∃ s, s.isTerminal = true ∧ d.status = s ∧ v.status = s ∧ v.Counts u.maxRetries u.retryCount ∧
            q' = ({ q with running := none } : GroupQueue).archive v) ∨
          (d = .retrying (u.retryCount + 1) ∧ u.retryCount < u.maxRetries ∧
            v.Counts u.maxRetries (u.retryCount + 1) ∧
            q' = { q with running := none, pending := insertByPriority v q.pending })) := by
  obtain ⟨u, h_run, h_id, h_d, ⟨h_end, h_status, h_q⟩ | ⟨f, -, h_again, -, h_left, h_q⟩⟩ := complete_answer h
  · obtain ⟨h_same, h_counts⟩ := concluded_same u outcome now
    exact ⟨u, h_run, h_id, h_d, _, h_same, .inl ⟨_, h_end, rfl, h_status, h_counts, h_q⟩⟩
  · exact ⟨u, h_run, h_id, h_d, { q.requeued { u with lastError := some f.error } now with status := .pending },
      rfl, .inr ⟨h_again, h_left, ⟨rfl, rfl⟩, h_q⟩⟩

end GroupQueue

/-- A task fails for good only by a failure that comes when no retry is left, or of a nature that is not
retried. -/
theorem Task.verdict_eq_failed {u : Task} {policy : RetryPolicy} {outcome : TaskOutcome}
    (h : u.verdict policy outcome = .failed) :
    ∃ f, outcome = .failed f ∧ (u.maxRetries ≤ u.retryCount ∨ policy.allows f.kind = false) := by
  unfold verdict at h
  split at h
  · cases h
  · cases outcome with
    | succeeded w => cases h
    | cancelled => cases h
    | failed f =>
      refine ⟨f, rfl, ?_⟩
      -- a retry needs an attempt that is left and a kind that is retried
      by_cases h_left : u.retryCount < u.maxRetries
      · cases h_kind : policy.allows f.kind with
        | false => exact .inr rfl
        | true => simp [h_left, h_kind] at h
      · exact .inl (Nat.le_of_not_lt h_left)

namespace GroupQueue

variable {q q' : GroupQueue} {op : QueueOp} {ops : List QueueOp} {t : String} {u v : Task}

/-! ### What an operation does to the records of one task -/

/-- The records of a task in the three places of a queue are of these kinds. -/
structure Records (q : GroupQueue) (t : String) (waiting running old : Task → Prop) : Prop where
  /-- Those that wait. -/
  pending : ∀ u ∈ q.pending, u.id = t → waiting u
  running : ∀ u ∈ q.running, u.id = t → running u
  /-- Those that are remembered. -/
  history : ∀ u ∈ q.history, u.id = t → old u

/-- No record of a task was made, and none changed its place or its counts. -/
def Spares (q q' : GroupQueue) (t : String) : Prop :=
  q'.Records t (· ∈ q.pending)
    (fun u => ∃ w ∈ q.running, w.id = t ∧ u.Counts w.maxRetries w.retryCount) (· ∈ q.history)

/-- What an operation can do to the records of a task, other than to queue it for the first time. -/
inductive Touch (q : GroupQueue) (t : String) (q' : GroupQueue) : Option Passage → Prop where
  /-- The operation is about other tasks, or notes something in the record of the running one. -/
  | spared (h : q.Spares q' t) : q.Touch t q' none
  /-- A record that waits becomes the running one. -/
  | started (u : Task) (h_u : u ∈ q.pending) (h_id : u.id = t) (h_rest : ∀ w ∈ q'.pending, w.id ≠ t)
    (h_run : ∃ now, q'.running = some (u.started now)) (h_old : q'.history = q.history) :
    q.Touch t q' (some .started)
  /-- The running record is queued again. -/
  | retried (u v : Task) (h_u : q.running = some u) (h_id : u.id = t) (h_left : u.retryCount < u.maxRetries)
    (h_counts : v.Counts u.maxRetries (u.retryCount + 1))
    (h_q : q' = { q with running := none, pending := insertByPriority v q.pending }) :
    q.Touch t q' (some (.retried (u.retryCount + 1)))
  /-- The running record is put among those that came to their end. -/
  | ended (u v : Task) (s : TaskStatus) (h_u : q.running = some u) (h_id : u.id = t)
    (h_end : s.isTerminal = true) (h_status : v.status = s) (h_counts : v.Counts u.maxRetries u.retryCount)
    (h_q : q' = ({ q with running := none } : GroupQueue).archive v) : q.Touch t q' (some (.ended s))
  /-- A record that waits is put among those that came to their end. -/
  | withdrawn (u : Task) (h_u : u ∈ q.pending) (h_id : u.id = t)
    (h : q'.Records t (fun _ => False) (fun _ => False)
      fun w => w ∈ q.history ∨ w.status = .cancelled ∧ ∃ x ∈ q.pending, x.id = t ∧
        w.Counts x.maxRetries x.retryCount) :
    q.Touch t q' (some (.ended .cancelled))

theorem Spares.refl (q : GroupQueue) (t : String) : q.Spares q t where
  pending := fun _ h_u _ => h_u
  running := fun u h_u h_id => ⟨u, h_u, h_id, rfl, rfl⟩
  history := fun _ h_u _ => h_u

/-- A change of the running record that keeps its id and its counts spares all tasks. -/
theorem Spares.noted (h_run : q.running = some u) (h_id : v.id = u.id)
    (h_counts : v.Counts u.maxRetries u.retryCount) : q.Spares { q with running := some v } t where
  pending := fun _ h_w _ => h_w
  running := fun w h_w h_eq => by
    cases h_w
    exact ⟨u, h_run, h_id.symm.trans h_eq, h_counts⟩
  history := fun _ h_w _ => h_w

theorem Spares.trans {q₁ : GroupQueue} (h : q.Spares q₁ t) (h' : q₁.Spares q' t) : q.Spares q' t where
  pending := fun u h_u h_id => h.pending u (h'.pending u h_u h_id) h_id
  running := fun u h_u h_id => by
    obtain ⟨w, h_w, h_w_id, h_counts⟩ := h'.running u h_u h_id
    obtain ⟨x, h_x, h_x_id, h_same⟩ := h.running w h_w h_w_id
    exact ⟨x, h_x, h_x_id, h_counts.most.trans h_same.most, h_counts.count.trans h_same.count⟩
  history := fun u h_u h_id => h.history u (h'.history u h_u h_id) h_id

/-- To take records out of a queue, or records of other tasks into the running place, spares a task. -/
theorem Spares.without (h_pending : ∀ u ∈ q'.pending, u ∈ q.pending)
    (h_running : ∀ u ∈ q'.running, u.id = t → u ∈ q.running) (h_history : q'.history = q.history) :
    q.Spares q' t where
  pending := fun u h_u _ => h_pending u h_u
  running := fun u h_u h_id => ⟨u, h_running u h_u h_id, h_id, rfl, rfl⟩
  history := fun _ h_u _ => h_history ▸ h_u

/-- To queue a task spares the others. -/
theorem Spares.queued (h_other : v.id ≠ t) :
    q.Spares { q with pending := insertByPriority v q.pending } t where
  pending := fun u h_u h_id => by
    rcases mem_insertByPriority.mp h_u with rfl | h_u
    · exact absurd h_id h_other
    · exact h_u
  running := (Spares.refl q t).running
  history := (Spares.refl q t).history

/-- To remember a task spares the others. -/
theorem Spares.archived (h_other : v.id ≠ t) : q.Spares (q.archive v) t where
  pending := (Spares.refl q t).pending
  running := (Spares.refl q t).running
  history := fun u h_u h_id => by
    rcases mem_remember h_u with rfl | h_u
    · exact absurd h_id h_other
    · exact h_u

theorem touch_enqueue (q : GroupQueue) (h_other : u.id ≠ t) :
    q.Touch t (q.after (.enqueue u)) (q.passage? t (.enqueue u)) := by
  simp only [after, passage?]
  cases h_enq : q.enqueue u with
  | error e => exact .spared (.refl q t)
  | ok q' =>
    obtain ⟨-, rfl⟩ := enqueue_eq_ok_iff.mp h_enq
    rw [if_neg h_other]
    exact .spared (.queued h_other)

theorem touch_dequeue (q : GroupQueue) (h_once : (taskIds q.pending).Nodup) (now : Instant) :
    q.Touch t (q.after (.dequeue now)) (q.passage? t (.dequeue now)) := by
  simp only [after, passage?]
  cases h_deq : q.dequeue now with
  | none => exact .spared (.refl q t)
  | some r =>
    obtain ⟨w, q'⟩ := r
    obtain ⟨-, h_idle, l₁, u, l₂, h_pending, -, -, rfl, rfl⟩ := dequeue_eq_some_iff.mp h_deq
    have h_u : u ∈ q.pending := by simp [h_pending]
    -- no second record of the task waits behind the one that was given out
    have h_rest : ∀ x ∈ l₁ ++ l₂, x.id ≠ u.id := ne_of_split (h_pending ▸ h_once)
    by_cases h_id : u.id = t
    · simp only [if_pos (show (u.started now).id = t from h_id)]
      exact .started u h_u h_id (h_id ▸ h_rest) ⟨now, rfl⟩ rfl
    · simp only [if_neg (show (u.started now).id ≠ t from h_id)]
      refine .spared (.without (fun x h_x => mem_pending_of_rest h_pending h_x) (fun x h_x h_eq => ?_) rfl)
      cases h_x
      exact absurd h_eq h_id

theorem touch_attach (q : GroupQueue) (t i run : String) (token : CancelToken) :
    q.Touch t (q.after (.attach i run token)) (q.passage? t (.attach i run token)) := by
  simp only [after, passage?]
  obtain ⟨u, h_run, -, h_att⟩ | ⟨-, h_att⟩ := attach_cases q i run token
  · rw [h_att]
    exact .spared (.noted h_run rfl ⟨rfl, rfl⟩)
  · rw [h_att]
    exact .spared (.refl q t)

theorem touch_complete (q : GroupQueue) (t i : String) (outcome : TaskOutcome) (now : Instant) :
    q.Touch t (q.after (.complete i outcome now)) (q.passage? t (.complete i outcome now)) := by
  simp only [after, passage?]
  cases h_com : q.complete i outcome now with
  | error e => exact .spared (.refl q t)
  | ok r =>
    obtain ⟨d, q'⟩ := r
    obtain ⟨u, h_run, rfl, -, v, h_v, h_cases⟩ := complete_verdict h_com
    by_cases h_id : u.id = t
    · rcases h_cases with ⟨s, h_end, h_d, h_status, h_counts, h_q⟩ | ⟨rfl, h_left, h_counts, h_q⟩
      · -- an end is no retry
        have h_ended : q.Touch t q' (some (.ended d.status)) :=
          .ended u v d.status h_run h_id (h_d ▸ h_end) (h_status.trans h_d.symm) h_counts h_q
        cases d with
        | retrying k =>
          subst h_d
          cases h_end
        | completed | failed | cancelled =>
          simp only [if_pos h_id]
          exact h_ended
      · simp only [if_pos h_id]
        exact .retried u v h_run h_id h_left h_counts h_q
    · -- another task was running, and its record alone went to another place
      have h_other : v.id ≠ t := fun h_eq => h_id (h_v.symm.trans h_eq)
      have h_idle : q.Spares { q with running := none } t :=
        .without (fun _ h_x => h_x) (fun _ h_x => absurd h_x.symm (Option.some_ne_none _)) rfl
      have h_spared : q.Spares q' t := by
        rcases h_cases with ⟨s, -, -, -, -, rfl⟩ | ⟨-, -, -, rfl⟩
        · exact h_idle.trans (.archived h_other)
        · exact h_idle.trans (.queued h_other)
      cases d <;> simp only [if_neg h_id] <;> exact .spared h_spared

theorem touch_cancel (q : GroupQueue) (h_once : (taskIds q.tasks).Nodup) (i : String) (now : Instant) :
    q.Touch t (q.after (.cancel i now)) (q.passage? t (.cancel i now)) := by
  obtain ⟨h_wait, h_busy, -⟩ := places_apart h_once
  simp only [after, passage?]
  cases h_can : q.cancel i now with
  | none => exact .spared (.refl q t)
  | some r =>
    obtain ⟨o, q'⟩ := r
    obtain ⟨l₁, u, l₂, h_pending, rfl, -, rfl, rfl⟩ | ⟨-, u, h_run, -, -, rfl, rfl⟩ := cancel_cases h_can
    · have h_u : u ∈ q.pending := by simp [h_pending]
      have h_rest : ∀ x ∈ l₁ ++ l₂, x.id ≠ u.id := ne_of_split (h_pending ▸ h_wait)
      by_cases h_id : u.id = t
      · simp only [if_pos h_id]
        refine .withdrawn u h_u h_id ⟨fun x h_x h_eq => ?_, fun x h_x h_eq => ?_, fun x h_x h_eq => ?_⟩
        · exact h_rest x h_x (h_eq.trans h_id.symm)
        · exact h_busy x h_x u h_u (h_eq.trans h_id.symm)
        · rcases mem_remember h_x with rfl | h_x
          · exact .inr ⟨rfl, u, h_u, h_id, rfl, rfl⟩
          · exact .inl h_x
      · simp only [if_neg h_id]
        have h_less : q.Spares { q with pending := l₁ ++ l₂ } t :=
          .without (fun _ h_x => mem_pending_of_rest h_pending h_x) (fun _ h_x _ => h_x) rfl
        exact .spared (h_less.trans (.archived h_id))
    · -- the running task is only marked
      exact .spared (.noted h_run rfl ⟨rfl, rfl⟩)

theorem touch_cancelAll (q : GroupQueue) (h_once : (taskIds q.tasks).Nodup) (now : Instant) :
    q.Touch t (q.after (.cancelAll now)) (q.passage? t (.cancelAll now)) := by
  obtain ⟨-, h_busy, -⟩ := places_apart h_once
  simp only [after, passage?, cancelAll_snd]
  -- what is remembered afterwards of the task was remembered before, or waited
  have h_old : ∀ x ∈ (({ q with pending := [] } : GroupQueue).archiveAll
        (q.pending.map (GroupQueue.withdrawn · now))).history,
      x.id = t → x ∈ q.history ∨ x.status = .cancelled ∧ ∃ w ∈ q.pending, w.id = t ∧
        x.Counts w.maxRetries w.retryCount := by
    intro x h_x h_eq
    rcases mem_archiveAll h_x with h_x | h_x
    · exact .inl h_x
    · obtain ⟨w, h_w, rfl⟩ := List.mem_map.mp h_x
      exact .inr ⟨rfl, w, h_w, h_eq, rfl, rfl⟩
  by_cases h_in : t ∈ taskIds q.pending
  · obtain ⟨u, h_u, h_id⟩ := List.mem_map.mp h_in
    rw [if_pos h_in]
    refine .withdrawn u h_u h_id ⟨fun x h_x _ => ?_, fun x h_x h_eq => ?_, h_old⟩
    · rw [archiveAll_pending] at h_x
      exact absurd h_x List.not_mem_nil
    · obtain ⟨w, h_run, rfl⟩ := Option.map_eq_some_iff.mp h_x
      exact h_busy w h_run u h_u (h_eq.trans h_id.symm)
  · rw [if_neg h_in]
    refine .spared ⟨fun x h_x _ => ?_, fun x h_x h_eq => ?_, fun x h_x h_eq => ?_⟩
    · rw [archiveAll_pending] at h_x
      exact absurd h_x List.not_mem_nil
    · obtain ⟨w, h_run, rfl⟩ := Option.map_eq_some_iff.mp h_x
      exact ⟨w, h_run, h_eq, rfl, rfl⟩
    · rcases h_old x h_x h_eq with h_x | ⟨-, w, h_w, h_id, -⟩
      · exact h_x
      · exact absurd (List.mem_map.mpr ⟨w, h_w, h_id⟩) h_in

/-- **Every operation touches the records of a task in one of these ways**, unless it offers the task. -/
theorem touch (q : GroupQueue) {op : QueueOp} (h_new : t ∉ op.offered)
    (h_once : (taskIds q.tasks).Nodup) : q.Touch t (q.after op) (q.passage? t op) := by
  cases op with
  | enqueue u => exact q.touch_enqueue fun h => h_new (by simp [QueueOp.offered, h])
  | dequeue now => exact q.touch_dequeue (places_apart h_once).1 now
  | attach i run token => exact q.touch_attach t i run token
  | complete i outcome now => exact q.touch_complete t i outcome now
  | cancel i now => exact q.touch_cancel h_once i now
  | cancelAll now => exact q.touch_cancelAll h_once now
  | setEnabled _ | setExceptionScript _ =>
    exact .spared (.without (fun _ h_u => h_u) (fun _ h_u _ => h_u) rfl)

/-! ### Stages -/

/-- How far a task that may be retried so often has come in its life after a course, and the records that
the queue keeps of it. -/
inductive Stage (q : GroupQueue) (t : String) (limit : ℕ) : List Passage → Prop where
  /-- The queue does not know the task. -/
  | unknown (h : q.Records t (fun _ => False) (fun _ => False) fun _ => False) : q.Stage t limit []
  /-- The task waits for a start. -/
  | waiting (n : ℕ) (h_n : n ≤ limit)
    (h : q.Records t (·.Counts limit n) (fun _ => False) fun _ => False) :
    q.Stage t limit (Passage.begun n)
  /-- The task is running. -/
  | running (n : ℕ) (h_n : n ≤ limit)
    (h : q.Records t (fun _ => False) (·.Counts limit n) fun _ => False) :
    q.Stage t limit (Passage.begun n ++ [.started])
  /-- The task is at its end. -/
  | settled (n : ℕ) (h_n : n ≤ limit) (s : TaskStatus) (rest : List Passage)
    (h_rest : rest = [.ended s] ∧ s = .cancelled ∨ rest = [.started, .ended s] ∧ s.isTerminal = true)
    (h : q.Records t (fun _ => False) (fun _ => False) fun u => u.Counts limit n ∧ u.status = s) :
    q.Stage t limit (Passage.begun n ++ rest)

/-- The records of a task that was spared are of the kinds of before, where the kind of the running one
depends on its counts alone. -/
theorem Records.spared {waiting running old : Task → Prop} (h : q.Records t waiting running old)
    (h_counts : ∀ u w : Task, u.Counts w.maxRetries w.retryCount → running w → running u)
    (h_spared : q.Spares q' t) : q'.Records t waiting running old where
  pending := fun u h_u h_id => h.pending u (h_spared.pending u h_u h_id) h_id
  running := fun u h_u h_id => by
    obtain ⟨w, h_w, h_eq, h_same⟩ := h_spared.running u h_u h_id
    exact h_counts u w h_same (h.running w h_w h_eq)
  history := fun u h_u h_id => h.history u (h_spared.history u h_u h_id) h_id

namespace Stage

variable {limit : ℕ} {path : List Passage} {p : Option Passage}

/-- **One operation.** A stage leads to a stage, by the passage that the operation is for the task. -/
theorem after (h : q.Stage t limit path) (h_touch : q.Touch t q' p) :
    q'.Stage t limit (path ++ p.toList) := by
  cases h_touch with
  | spared h_spared =>
    rw [Option.toList_none, List.append_nil]
    -- a record with the counts of another is of its kind
    have h_kind : ∀ n (u w : Task), u.Counts w.maxRetries w.retryCount → w.Counts limit n → u.Counts limit n :=
      fun n u w h_same h_w => ⟨h_same.most.trans h_w.most, h_same.count.trans h_w.count⟩
    cases h with
    | unknown h => exact .unknown (h.spared (fun _ _ _ h => h) h_spared)
    | waiting n h_n h => exact .waiting n h_n (h.spared (fun _ _ _ h => h) h_spared)
    | running n h_n h => exact .running n h_n (h.spared (h_kind n) h_spared)
    | settled n h_n s rest h_rest h =>
      exact .settled n h_n s rest h_rest (h.spared (fun _ _ _ h => h) h_spared)
  | started u h_u h_id h_rest h_run h_old =>
    obtain ⟨now, h_run⟩ := h_run
    cases h with
    | waiting n h_n h =>
      have h_counts := h.pending u h_u h_id
      refine .running n h_n ⟨fun x h_x h_eq => h_rest x h_x h_eq, fun x h_x _ => ?_, fun x h_x h_eq => ?_⟩
      · cases h_run.symm.trans h_x
        exact ⟨h_counts.most, h_counts.count⟩
      · exact h.history x (h_old ▸ h_x) h_eq
    | unknown h | running _ _ h | settled _ _ _ _ _ h => exact (h.pending u h_u h_id).elim
  | retried u v h_u h_id h_left h_counts h_q =>
    cases h with
    | running n h_n h =>
      obtain ⟨h_most, h_count⟩ := h.running u h_u h_id
      rw [h_most, h_count] at h_left
      have h_path : Passage.begun n ++ [.started] ++ (some (Passage.retried (u.retryCount + 1))).toList =
          Passage.begun (n + 1) := by
        rw [Passage.begun_succ, h_count]
        simp
      rw [h_path, h_q]
      refine .waiting (n + 1) h_left ⟨fun x h_x h_eq => ?_, fun x h_x _ => ?_, h.history⟩
      · rcases mem_insertByPriority.mp h_x with rfl | h_x
        · exact ⟨h_counts.most.trans h_most, h_counts.count.trans (by rw [h_count])⟩
        · exact (h.pending x h_x h_eq).elim
      · cases h_x
    | unknown h | waiting _ _ h | settled _ _ _ _ _ h => exact (h.running u h_u h_id).elim
  | ended u v s h_u h_id h_end h_status h_counts h_q =>
    cases h with
    | running n h_n h =>
      obtain ⟨h_most, h_count⟩ := h.running u h_u h_id
      rw [h_q, List.append_assoc]
      refine .settled n h_n s _ (.inr ⟨rfl, h_end⟩) ⟨h.pending, fun x h_x _ => ?_, fun x h_x h_eq => ?_⟩
      · cases h_x
      · rcases mem_remember h_x with rfl | h_x
        · exact ⟨⟨h_counts.most.trans h_most, h_counts.count.trans h_count⟩, h_status⟩
        · exact (h.history x h_x h_eq).elim
    | unknown h | waiting _ _ h | settled _ _ _ _ _ h => exact (h.running u h_u h_id).elim
  | withdrawn u h_u h_id h_records =>
    cases h with
    | waiting n h_n h =>
      refine .settled n h_n .cancelled _ (.inl ⟨rfl, rfl⟩)
        ⟨h_records.pending, h_records.running, fun x h_x h_eq => ?_⟩
      rcases h_records.history x h_x h_eq with h_old | ⟨h_status, w, h_w, h_w_id, h_same⟩
      · exact (h.history x h_old h_eq).elim
      · have h_counts := h.pending w h_w h_w_id
        exact ⟨⟨h_same.most.trans h_counts.most, h_same.count.trans h_counts.count⟩, h_status⟩
    | unknown h | running _ _ h | settled _ _ _ _ _ h => exact (h.pending u h_u h_id).elim

/-- The first passage of a task that the queue does not know, and that was never retried. -/
theorem enqueued (h : q.Records v.id (fun _ => False) (fun _ => False) fun _ => False)
    (h_fresh : v.retryCount = 0) :
    (q.after (.enqueue v)).Stage v.id v.maxRetries (q.passage? v.id (.enqueue v)).toList := by
  simp only [GroupQueue.after, passage?]
  cases h_enq : q.enqueue v with
  | error e => exact .unknown h
  | ok q' =>
    obtain ⟨-, rfl⟩ := enqueue_eq_ok_iff.mp h_enq
    simp only [if_pos, Option.toList_some]
    refine .waiting 0 (Nat.zero_le _) ⟨fun x h_x h_eq => ?_, h.running, h.history⟩
    rcases mem_insertByPriority.mp h_x with rfl | h_x
    · exact ⟨rfl, h_fresh⟩
    · exact (h.pending x h_x h_eq).elim

/-- A course runs through all its retries in order, and then it waits, or the task was started once more,
or withdrawn, or started and brought to an end. -/
theorem shape (h : q.Stage t limit path) :
    path = [] ∨ ∃ n ≤ limit, ∃ rest, path = Passage.begun n ++ rest ∧
      (rest = [] ∨ rest = [.started] ∨ rest = [.ended .cancelled] ∨
        ∃ s, s.isTerminal = true ∧ rest = [.started, .ended s]) := by
  cases h with
  | unknown => exact .inl rfl
  | waiting n h_n => exact .inr ⟨n, h_n, [], (List.append_nil _).symm, .inl rfl⟩
  | running n h_n => exact .inr ⟨n, h_n, _, rfl, .inr (.inl rfl)⟩
  | settled n h_n s rest h_rest =>
    refine .inr ⟨n, h_n, rest, rfl, ?_⟩
    rcases h_rest with ⟨rfl, rfl⟩ | ⟨rfl, h_end⟩
    · exact .inr (.inr (.inl rfl))
    · exact .inr (.inr (.inr ⟨s, h_end, rfl⟩))

/-- Between two starts there is a retry. -/
theorem count_started_le (h : q.Stage t limit path) : path.count .started ≤ limit + 1 := by
  rcases h.shape with rfl | ⟨n, h_n, rest, rfl, h_rest⟩
  · exact Nat.zero_le _
  · have h_last : rest.count .started ≤ 1 := by
      rcases h_rest with rfl | rfl | rfl | ⟨s, -, rfl⟩ <;> simp
    rw [List.count_append, Passage.count_started_begun]
    omega

/-- A record that the queue keeps of a task says what the course says. -/
theorem record (h : q.Stage t limit path) (h_wait : ∀ u ∈ q.pending, u.status = .pending)
    (h_run : ∀ u ∈ q.running, u.status = .running) (h_u : u ∈ q.tasks) (h_id : u.id = t) :
    u.maxRetries = limit ∧ u.retryCount ≤ limit ∧
      path.filterMap Passage.attempt? = List.range' 1 u.retryCount ∧
      path.getLast?.map Passage.status = some u.status := by
  -- each stage names the one place in which the task is kept; the other two hold no record of it
  cases h with
  | unknown h =>
    rcases mem_tasks.mp h_u with h_u | h_u | h_u
    · exact (h.running u h_u h_id).elim
    · exact (h.pending u h_u h_id).elim
    · exact (h.history u h_u h_id).elim
  | waiting n h_n h =>
    rcases mem_tasks.mp h_u with h_u | h_u | h_u
    · exact (h.running u h_u h_id).elim
    · obtain ⟨h_most, h_count⟩ := h.pending u h_u h_id
      rw [h_most, h_count, h_wait u h_u]
      exact ⟨rfl, h_n, Passage.attempts_begun n, Passage.getLast?_begun n⟩
    · exact (h.history u h_u h_id).elim
  | running n h_n h =>
    rcases mem_tasks.mp h_u with h_u | h_u | h_u
    · obtain ⟨h_most, h_count⟩ := h.running u h_u h_id
      rw [h_most, h_count, h_run u h_u, List.filterMap_append, Passage.attempts_begun]
      exact ⟨rfl, h_n, List.append_nil _, by simp [Passage.status]⟩
    · exact (h.pending u h_u h_id).elim
    · exact (h.history u h_u h_id).elim
  | settled n h_n s rest h_rest h =>
    rcases mem_tasks.mp h_u with h_u | h_u | h_u
    · exact (h.running u h_u h_id).elim
    · exact (h.pending u h_u h_id).elim
    · obtain ⟨⟨h_most, h_count⟩, h_status⟩ := h.history u h_u h_id
      rw [h_most, h_count, h_status, List.filterMap_append, Passage.attempts_begun]
      rcases h_rest with ⟨rfl, -⟩ | ⟨rfl, -⟩
      · exact ⟨rfl, h_n, List.append_nil _, by simp [Passage.status]⟩
      · exact ⟨rfl, h_n, List.append_nil _, by simp [Passage.status]⟩

end Stage

/-! ### Runs -/

/-- Nothing happens to a task that the queue does not know, as long as it is not offered. -/
theorem unknown_run (h : q.Records t (fun _ => False) (fun _ => False) fun _ => False)
    (h_out : t ∉ offeredIds ops) (h_once : ∀ pre, pre <+: ops → (taskIds (q.run pre).tasks).Nodup) :
    q.course t ops = [] ∧
      (q.run ops).Records t (fun _ => False) (fun _ => False) fun _ => False := by
  induction ops generalizing q with
  | nil => exact ⟨rfl, h⟩
  | cons op ops ih =>
    have h_op : t ∉ op.offered := fun h_in => h_out (List.mem_append_left _ h_in)
    have h_rest : t ∉ offeredIds ops := fun h_in => h_out (List.mem_append_right _ h_in)
    have h_touch := q.touch h_op (h_once [] List.nil_prefix)
    have h_tail : ∀ pre, pre <+: ops → (taskIds ((q.after op).run pre).tasks).Nodup :=
      fun pre h_pre => h_once (op :: pre) (List.cons_prefix_cons.mpr ⟨rfl, h_pre⟩)
    -- every way but the first needs a record of the task
    generalize h_q' : q.after op = q', h_p : q.passage? t op = p at h_touch
    rw [h_q'] at h_tail
    cases h_touch with
    | spared h_spared =>
      obtain ⟨h_course, h_after⟩ := ih (h.spared (fun _ _ _ h => h) h_spared) h_rest h_tail
      refine ⟨?_, ?_⟩
      · rw [course, h_p, h_q', h_course]
        rfl
      · rw [run, List.foldl_cons, h_q']
        exact h_after
    | started u h_u h_id | withdrawn u h_u h_id => exact (h.pending u h_u h_id).elim
    | retried u v h_u h_id | ended u v s h_u h_id => exact (h.running u h_u h_id).elim

/-- **A whole run.** A stage leads to a stage, as long as the task is not offered. -/
theorem Stage.run {limit : ℕ} {path : List Passage} (h : q.Stage t limit path)
    (h_out : t ∉ offeredIds ops) (h_once : ∀ pre, pre <+: ops → (taskIds (q.run pre).tasks).Nodup) :
    (q.run ops).Stage t limit (path ++ q.course t ops) := by
  induction ops generalizing q path with
  | nil =>
    rw [course, List.append_nil]
    exact h
  | cons op ops ih =>
    have h_op : t ∉ op.offered := fun h_in => h_out (List.mem_append_left _ h_in)
    have h_rest : t ∉ offeredIds ops := fun h_in => h_out (List.mem_append_right _ h_in)
    have h_after := h.after (q.touch h_op (h_once [] List.nil_prefix))
    rw [course, ← List.append_assoc]
    exact ih h_after h_rest fun pre h_pre =>
      h_once (op :: pre) (List.cons_prefix_cons.mpr ⟨rfl, h_pre⟩)

/-- A cancellation that was granted stays so over a run that does not offer the task. -/
theorem Withdrawn.run (h : q.Withdrawn t) (h_out : t ∉ offeredIds ops) : (q.run ops).Withdrawn t := by
  induction ops generalizing q with
  | nil => exact h
  | cons op ops ih =>
    have h_op : t ∉ op.offered := fun h_in => h_out (List.mem_append_left _ h_in)
    exact ih (h.after h_op) fun h_in => h_out (List.mem_append_right _ h_in)

/-- A queue accepts no cancellation of a task that it does not know. -/
theorem Grants.known (h : q.Grants t op) : ¬ q.Records t (fun _ => False) (fun _ => False) fun _ => False := by
  intro h_unknown
  cases op with
  | cancel i now =>
    obtain ⟨rfl, h_some⟩ := h
    obtain ⟨⟨o, q'⟩, h_can⟩ := Option.ne_none_iff_exists'.mp h_some
    -- what was cancelled was kept somewhere
    obtain ⟨l₁, u, l₂, h_pending, h_id, -⟩ | ⟨-, u, h_run, h_id, -⟩ := cancel_cases h_can
    · exact h_unknown.pending u (by simp [h_pending]) h_id
    · exact h_unknown.running u h_run h_id
  | cancelAll now =>
    rcases h with ⟨u, h_u, h_id⟩ | ⟨u, h_u, h_id⟩
    · exact h_unknown.pending u h_u h_id
    · exact h_unknown.running u h_u h_id
  | enqueue | dequeue | attach | complete | setEnabled | setExceptionScript => exact h.elim

/-- A cancellation that a queue accepts withdraws the task. -/
theorem Grants.withdrawn (h : q.Grants t op) (h_once : (taskIds q.tasks).Nodup) :
    (q.after op).Withdrawn t := by
  cases op with
  | cancel i now =>
    obtain ⟨rfl, h_some⟩ := h
    refine (q.change (.cancel i now)).withdrawn_of_granted ?_ h_once
    simp only [tells]
    cases h_can : q.cancel i now with
    | none => exact absurd h_can h_some
    | some r =>
      obtain ⟨o, q'⟩ := r
      cases o with
      | removed => exact List.mem_cons_self
      | requested run token => exact List.mem_cons_self
  | cancelAll now =>
    obtain ⟨-, -, h_old⟩ := places_apart h_once
    simp only [after, cancelAll_snd]
    refine ⟨fun x h_x => ?_, fun x h_x _ => ?_, fun x h_x h_eq => ?_⟩
    · rw [archiveAll_pending] at h_x
      exact absurd h_x List.not_mem_nil
    · obtain ⟨w, -, rfl⟩ := Option.map_eq_some_iff.mp h_x
      rfl
    · rcases mem_archiveAll h_x with h_x | h_x
      · -- what came to its end before is in no other place
        rcases h with ⟨u, h_u, h_id⟩ | ⟨u, h_u, h_id⟩
        · exact absurd (h_id.trans h_eq.symm) ((h_old x h_x).1 u h_u)
        · exact absurd (h_id.trans h_eq.symm) ((h_old x h_x).2 u h_u)
      · obtain ⟨w, -, rfl⟩ := List.mem_map.mp h_x
        rfl
  | enqueue | dequeue | attach | complete | setEnabled | setExceptionScript => exact h.elim

end GroupQueue

/-! ### Whole lives -/

theorem mem_offeredIds : t ∈ offeredIds ops ↔ ∃ w, .enqueue w ∈ ops ∧ w.id = t := by
  unfold offeredIds
  rw [List.mem_flatMap]
  constructor
  · rintro ⟨op, h_op, h_t⟩
    cases op with
    | enqueue w => exact ⟨w, h_op, (List.mem_singleton.mp h_t).symm⟩
    | _ => exact absurd h_t List.not_mem_nil
  · rintro ⟨w, h_w, rfl⟩
    exact ⟨.enqueue w, h_w, List.mem_singleton_self _⟩

theorem nodup_offeredIds_of_append {ops' : List QueueOp} (distinct : (offeredIds (ops ++ ops')).Nodup) :
    (offeredIds ops).Nodup := by
  unfold offeredIds at distinct
  rw [List.flatMap_append] at distinct
  exact (List.nodup_append.mp distinct).1

/-- Of no two tasks with the same id both are offered. -/
theorem eq_of_offered_once (distinct : (offeredIds ops).Nodup) (h_u : .enqueue u ∈ ops)
    (h_v : .enqueue v ∈ ops) (h_id : u.id = v.id) : u = v := by
  induction ops with
  | nil => exact absurd h_u List.not_mem_nil
  | cons op ops ih =>
    obtain ⟨-, h_rest, h_apart⟩ := List.nodup_append.mp (show (op.offered ++ offeredIds ops).Nodup from
      distinct)
    -- an id that this operation offers is not offered again
    have h_twice : ∀ w w' : Task, .enqueue w = op → .enqueue w' ∈ ops → w.id ≠ w'.id := by
      rintro w w' rfl h_w'
      exact h_apart w.id (List.mem_singleton_self _) w'.id (mem_offeredIds.mpr ⟨w', h_w', rfl⟩)
    rcases List.mem_cons.mp h_u with h_op | h_u
    · rcases List.mem_cons.mp h_v with h_op' | h_v
      · exact QueueOp.enqueue.inj (h_op.trans h_op'.symm)
      · exact absurd h_id (h_twice u v h_op h_v)
    · rcases List.mem_cons.mp h_v with h_op | h_v
      · exact absurd h_id.symm (h_twice v u h_op h_u)
      · exact ih h_rest h_u h_v

theorem Ledger.queue_run (l : Ledger) (ops : List QueueOp) : (l.run ops).queue = l.queue.run ops := by
  induction ops generalizing l with
  | nil => rfl
  | cons op ops ih => exact ih (l.after op)

namespace GroupQueue

section FromTheStart

variable (id name : String) (limit : ℕ) (policy : RetryPolicy)

theorem exists_balanced (distinct : (offeredIds ops).Nodup) :
    ∃ l : Ledger, l.Balanced ∧ l.queue = (create id name limit policy).run ops := by
  let l₀ : Ledger := ⟨.create id name limit policy, [], []⟩
  have h_balanced : (l₀.run ops).Balanced :=
    (Ledger.Balanced.create id name limit policy).run distinct fun _ _ => List.not_mem_nil
  exact ⟨l₀.run ops, h_balanced, l₀.queue_run ops⟩

/-- A queue that began empty never keeps two tasks of the same id. -/
theorem nodup_run (distinct : (offeredIds ops).Nodup) :
    ∀ pre, pre <+: ops → (taskIds ((create id name limit policy).run pre).tasks).Nodup := by
  rintro pre ⟨post, rfl⟩
  have h_pre : (offeredIds pre).Nodup := nodup_offeredIds_of_append distinct
  obtain ⟨l, h_balanced, h_queue⟩ := exists_balanced id name limit policy h_pre
  rw [← h_queue]
  exact h_balanced.nodup_tasks

theorem records_create : (create id name limit policy).Records t (fun _ => False) (fun _ => False)
    fun _ => False where
  pending := fun _ h_u => absurd h_u List.not_mem_nil
  running := fun _ h_u => by cases h_u
  history := fun _ h_u => absurd h_u List.not_mem_nil

/-- **The stage of a task after a run from the start.** The task is the only one offered under its id,
and it was never retried when it was. -/
theorem stage_run (distinct : (offeredIds ops).Nodup) (fresh : v.retryCount = 0)
    (h_only : ∀ w, .enqueue w ∈ ops → w.id = v.id → w = v) :
    ((create id name limit policy).run ops).Stage v.id v.maxRetries
      ((create id name limit policy).course v.id ops) := by
  have h_once := nodup_run id name limit policy distinct
  have h_start := records_create (t := v.id) id name limit policy
  generalize create id name limit policy = q at h_once h_start ⊢
  by_cases h_in : v.id ∈ offeredIds ops
  · obtain ⟨w, h_w, h_id⟩ := mem_offeredIds.mp h_in
    obtain rfl := h_only w h_w h_id
    obtain ⟨pre, post, rfl⟩ := List.append_of_mem h_w
    -- neither the part before the offer nor the part behind it offers the task
    have h_split : offeredIds (pre ++ .enqueue w :: post) = offeredIds pre ++ w.id :: offeredIds post := by
      simp [offeredIds, QueueOp.offered]
    rw [h_split] at distinct
    obtain ⟨-, h_tail, h_apart⟩ := List.nodup_append.mp distinct
    have h_pre : w.id ∉ offeredIds pre := fun h => h_apart _ h _ List.mem_cons_self rfl
    have h_post : w.id ∉ offeredIds post := (List.nodup_cons.mp h_tail).1
    obtain ⟨h_course, h_unknown⟩ := unknown_run h_start h_pre fun p h_p =>
      h_once p (h_p.trans (List.prefix_append _ _))
    have h_first := Stage.enqueued h_unknown fresh
    have h_last := h_first.run h_post fun p h_p => by
      have h_all := h_once (pre ++ .enqueue w :: p)
        (List.prefix_append_right_inj pre |>.mpr (List.cons_prefix_cons.mpr ⟨rfl, h_p⟩))
      rw [run_append] at h_all
      exact h_all
    rw [run_append, course_append, h_course]
    exact h_last
  · obtain ⟨h_course, h_unknown⟩ := unknown_run h_start h_in h_once
    rw [h_course]
    exact .unknown h_unknown

/-- What the queue keeps of a task after a run from the start says what its stage says. -/
theorem record_run {most : ℕ} {path : List Passage} (distinct : (offeredIds ops).Nodup)
    (h_stage : ((create id name limit policy).run ops).Stage t most path)
    (h_u : u ∈ ((create id name limit policy).run ops).tasks) (h_id : u.id = t) :
    u.maxRetries = most ∧ u.retryCount ≤ most ∧
      path.filterMap Passage.attempt? = List.range' 1 u.retryCount ∧
      path.getLast?.map Passage.status = some u.status := by
  obtain ⟨l, h_balanced, h_queue⟩ := exists_balanced id name limit policy distinct
  have h_wait := h_balanced.pending_status
  have h_run := h_balanced.running_status
  rw [h_queue] at h_wait h_run
  exact h_stage.record h_wait h_run h_u h_id

/-- A task whose cancellation was accepted in a run from the start is marked as long as it runs. -/
theorem marked_run {b c : List QueueOp} (distinct : (offeredIds (b ++ op :: c)).Nodup)
    (h_grants : ((create id name limit policy).run b).Grants t op)
    (h_u : u ∈ ((create id name limit policy).run (b ++ op :: c)).running) (h_id : u.id = t) :
    u.cancelRequested = true := by
  have h_once := nodup_run id name limit policy distinct
  have h_b : b <+: b ++ op :: c := List.prefix_append _ _
  -- the task was offered before it could be cancelled, so it is not offered again
  have h_in : t ∈ offeredIds b := by
    by_contra h_out
    have h_unknown := unknown_run (records_create id name limit policy) h_out fun pre h_pre =>
      h_once pre (h_pre.trans h_b)
    exact h_grants.known h_unknown.2
  have h_out : t ∉ offeredIds c := by
    intro h_c
    have h_split : offeredIds (b ++ op :: c) = offeredIds b ++ (op.offered ++ offeredIds c) := by
      simp [offeredIds]
    rw [h_split] at distinct
    exact (List.nodup_append.mp distinct).2.2 t h_in t (List.mem_append_right _ h_c) rfl
  have h_withdrawn := (h_grants.withdrawn (h_once b h_b)).run h_out
  rw [run_append] at h_u
  exact h_withdrawn.running u h_u h_id

/-- **The life of a task.** In any run of a queue that began empty, of which no two offered tasks have
the same id, a task that was never retried before it is offered

* is queued, then started and retried some times, the retries numbered from one and no more of them than
  the task allows, then perhaps started or withdrawn, and after a last start perhaps ended, with nothing
  behind an end; so it is started at most once more than it may be retried;
* at every moment has the record that these passages tell: its status, and how often it was retried;
* fails for good only by a failure that comes when no retry is left or is of a nature that is not retried;
* is cancelled, whatever the outcome of its run, when a cancellation was accepted before, and when the
  outcome is that the run was cancelled. -/
theorem life_of_task (ops : List QueueOp) (v : Task) (distinct : (offeredIds ops).Nodup)
    (offered : .enqueue v ∈ ops) (fresh : v.retryCount = 0) :
    let q := create id name limit policy
    (q.course v.id ops = [] ∨ ∃ n ≤ v.maxRetries, ∃ rest, q.course v.id ops = Passage.begun n ++ rest ∧
      (rest = [] ∨ rest = [.started] ∨ rest = [.ended .cancelled] ∨
        ∃ s, s.isTerminal = true ∧ rest = [.started, .ended s])) ∧
    (q.course v.id ops).count .started ≤ v.maxRetries + 1 ∧
    (∀ before after, ops = before ++ after → ∀ u ∈ (q.run before).tasks, u.id = v.id →
      u.maxRetries = v.maxRetries ∧ u.retryCount ≤ v.maxRetries ∧
        (q.course v.id before).filterMap Passage.attempt? = List.range' 1 u.retryCount ∧
        (q.course v.id before).getLast?.map Passage.status = some u.status) ∧
    ∀ before outcome now after d q', ops = before ++ .complete v.id outcome now :: after →
      (q.run before).complete v.id outcome now = .ok (d, q') →
      (d = .failed → ∃ f, outcome = .failed f ∧
        ((∃ u ∈ (q.run before).running, u.id = v.id ∧ u.retryCount = u.maxRetries) ∨
          policy.allows f.kind = false)) ∧
      (outcome = .cancelled → d = .cancelled) ∧
      ∀ b op c, before = b ++ op :: c → (q.run b).Grants v.id op → d = .cancelled := by
  intro q
  -- what is known of the whole run is known of its beginnings
  have h_part : ∀ before after, ops = before ++ after → (offeredIds before).Nodup ∧
      (q.run before).Stage v.id v.maxRetries (q.course v.id before) := by
    rintro before after rfl
    have h_before : (offeredIds before).Nodup := nodup_offeredIds_of_append distinct
    refine ⟨h_before, stage_run id name limit policy h_before fresh fun w h_w h_id => ?_⟩
    exact eq_of_offered_once distinct (List.mem_append_left _ h_w) offered h_id
  have h_stage := (h_part ops [] (List.append_nil ops).symm).2
  refine ⟨h_stage.shape, h_stage.count_started_le, ?_, ?_⟩
  · intro before after h_ops u h_u h_id
    obtain ⟨h_before, h_stage⟩ := h_part before after h_ops
    exact record_run id name limit policy h_before h_stage h_u h_id
  · intro before outcome now after d q' h_ops h_com
    obtain ⟨h_before, h_stage⟩ := h_part before _ h_ops
    obtain ⟨u, h_u, h_id, h_d, -⟩ := complete_verdict h_com
    rw [run_retryPolicy] at h_d
    refine ⟨fun h_failed => ?_, fun h_cancelled => ?_, ?_⟩
    · obtain ⟨f, h_f, h_most | h_kind⟩ := Task.verdict_eq_failed (h_d.symm.trans h_failed)
      · -- the count never passes the bound
        have h_record := record_run id name limit policy h_before h_stage (mem_tasks.mpr (.inl h_u)) h_id
        have h_le : u.retryCount ≤ v.maxRetries := h_record.2.1
        rw [← h_record.1] at h_le
        exact ⟨f, h_f, .inl ⟨u, h_u, h_id, Nat.le_antisymm h_le h_most⟩⟩
      · exact ⟨f, h_f, .inr h_kind⟩
    · rw [h_d, h_cancelled, Task.verdict.eq_def]
      split <;> rfl
    · rintro b op c rfl h_grants
      have h_marked := marked_run id name limit policy h_before h_grants h_u h_id
      rw [h_d, Task.verdict.eq_def, if_pos h_marked]

end FromTheStart

/-- A task is started, fails, is started again, is cancelled while it runs, and fails once more. -/
def cancelledRetry : List QueueOp :=
  [.enqueue { Ledger.plainTask "a" with maxRetries := 2 }, .dequeue ⟨0, 0⟩,
    .complete "a" (.failed ⟨"lost", .transient⟩) ⟨1, 0⟩, .dequeue ⟨2, 0⟩, .cancel "a" ⟨3, 0⟩,
    .complete "a" (.failed ⟨"lost", .transient⟩) ⟨4, 0⟩]

/-- The task is retried once, and not after its cancellation, though a retry was left. -/
theorem life_of_cancelled_retry :
    let q := create "g" "G" 1 {}
    let v := { Ledger.plainTask "a" with maxRetries := 2 }
    (offeredIds cancelledRetry).Nodup ∧ .enqueue v ∈ cancelledRetry ∧ v.retryCount = 0 ∧
      q.course "a" cancelledRetry = Passage.begun 1 ++ [.started, .ended .cancelled] ∧
      (q.course "a" cancelledRetry).count .started ≤ v.maxRetries + 1 :=
  ⟨by decide, List.mem_cons_self, rfl, by decide,
    (life_of_task "g" "G" 1 {} cancelledRetry _ (by decide) List.mem_cons_self rfl).2.1⟩

end GroupQueue

end ScriptYard
