import Mathlib.Data.List.Perm.Basic
import ScriptYard.Queue.GroupQueue

/-!
# What the operations of a queue do

`QueueOp` writes the operations of a `GroupQueue` down as data, and `GroupQueue.after` is the queue
after one of them; an operation that is refused, or that finds nothing to do, leaves the queue as it
was. A run of a queue is the list of its operations.

The lemmas of this file say once what each operation does to the three places where a queue keeps
tasks: those that wait (`pending`), the one that is running, and those that came to their end
(`history`). The searches and the insertion are described by splits of lists
(`GroupQueue.takeFirst_eq_some_iff`, `GroupQueue.insertByPriority_split`), the operations by what they
give when they succeed: `GroupQueue.dequeue_eq_some_iff`, `GroupQueue.complete_cases`,
`GroupQueue.cancel_cases` and `GroupQueue.cancelAll_snd`. Whatever is proved about runs of queues and
of engines uses these and does not look into the operations again.
-/

namespace ScriptYard

/-- An operation of a queue, with its arguments. -/
inductive QueueOp where
  | enqueue (task : Task)
  | dequeue (now : Instant)
  | attach (task run : String) (token : CancelToken)
  | complete (task : String) (outcome : TaskOutcome) (now : Instant)
  | cancel (task : String) (now : Instant)
  | cancelAll (now : Instant)
  | setEnabled (enabled : Bool)
  | setExceptionScript (script : Option String)

def taskIds (ts : List Task) : List String := ts.map (·.id)

/-- The status of a task of which a run ended in this way. -/
def Disposition.status : Disposition → TaskStatus
  | .completed => .completed
  | .retrying _ => .pending
  | .failed => .failed
  | .cancelled => .cancelled

/-- The record of a running task when its queue was told of the run. -/
def Task.attached (t : Task) (run : String) (token : CancelToken) : Task :=
  { t with run := some run, token := some token }

namespace GroupQueue

/-- The queue after an operation. -/
def after (q : GroupQueue) : QueueOp → GroupQueue
  | .enqueue t => match q.enqueue t with
    | .ok q' => q'
    | .error _ => q
  | .dequeue now => match q.dequeue now with
    | some (_, q') => q'
    | none => q
  | .attach t run token => (q.attach t run token).2
  | .complete t outcome now => match q.complete t outcome now with
    | .ok (_, q') => q'
    | .error _ => q
  | .cancel t now => match q.cancel t now with
    | some (_, q') => q'
    | none => q
  | .cancelAll now => (q.cancelAll now).2
  | .setEnabled b => { q with enabled := b }
  | .setExceptionScript script => { q with exceptionScript := script }

/-! ### Searches and insertions -/

theorem takeFirst_eq_some_iff {p : Task → Bool} {l : List Task} {t : Task} {rest : List Task} :
    takeFirst p l = some (t, rest) ↔
      ∃ l₁ l₂, l = l₁ ++ t :: l₂ ∧ rest = l₁ ++ l₂ ∧ p t = true ∧ ∀ x ∈ l₁, p x = false := by
  induction l generalizing rest with
  | nil => simp [takeFirst]
  | cons a l ih =>
    by_cases ha : p a = true
    · constructor
      · intro h
        simp only [takeFirst, ha, if_true, Option.some.injEq, Prod.mk.injEq] at h
        obtain ⟨rfl, rfl⟩ := h
        exact ⟨[], l, rfl, rfl, ha, fun x hx => absurd hx List.not_mem_nil⟩
      · rintro ⟨l₁, l₂, h_l, h_rest, h_t, h_none⟩
        cases l₁ with
        | nil =>
          obtain ⟨rfl, rfl⟩ := List.cons.inj h_l
          rw [h_rest, takeFirst, if_pos ha]
          rfl
        | cons b l₁ =>
          -- `a` itself would be one of those passed over
          obtain ⟨rfl, -⟩ := List.cons.inj h_l
          exact absurd (h_none a List.mem_cons_self) (by simp [ha])
    · rw [takeFirst, if_neg ha, Option.map_eq_some_iff]
      constructor
      · rintro ⟨⟨t', r⟩, h, h_eq⟩
        obtain ⟨rfl, rfl⟩ := Prod.mk.inj h_eq
        obtain ⟨l₁, l₂, rfl, rfl, h_t, h_none⟩ := ih.mp h
        refine ⟨a :: l₁, l₂, rfl, rfl, h_t, fun x hx => ?_⟩
        rcases List.mem_cons.mp hx with rfl | hx
        · exact Bool.of_not_eq_true ha
        · exact h_none x hx
      · rintro ⟨l₁, l₂, h_l, rfl, h_t, h_none⟩
        cases l₁ with
        | nil =>
          obtain ⟨rfl, -⟩ := List.cons.inj h_l
          exact absurd h_t ha
        | cons b l₁ =>
          obtain ⟨rfl, rfl⟩ := List.cons.inj h_l
          exact ⟨(t, l₁ ++ l₂), ih.mpr ⟨l₁, l₂, rfl, rfl, h_t, fun x hx =>
            h_none x (List.mem_cons_of_mem _ hx)⟩, rfl⟩

theorem takeFirst_eq_none_iff {p : Task → Bool} {l : List Task} :
    takeFirst p l = none ↔ ∀ x ∈ l, p x = false := by
  induction l with
  | nil => simp [takeFirst]
  | cons a l ih =>
    by_cases ha : p a = true
    · simp [takeFirst, ha]
    · rw [takeFirst, if_neg ha, Option.map_eq_none_iff, ih, List.forall_mem_cons]
      exact ⟨fun h => ⟨Bool.of_not_eq_true ha, h⟩, fun h => h.2⟩

/-- A task goes behind all those of its own or a higher priority that stand at the front. -/
theorem insertByPriority_split (t : Task) (l : List Task) :
    ∃ l₁ l₂, l = l₁ ++ l₂ ∧ insertByPriority t l = l₁ ++ t :: l₂ ∧
      (∀ x ∈ l₁, t.priority ≤ x.priority) ∧ ∀ y ∈ l₂.head?, y.priority < t.priority := by
  induction l with
  | nil => exact ⟨[], [], rfl, rfl, by simp, by simp⟩
  | cons a l ih =>
    by_cases ha : a.priority < t.priority
    · exact ⟨[], a :: l, rfl, by simp [insertByPriority, ha], by simp, by simpa using ha⟩
    · obtain ⟨l₁, l₂, rfl, h_ins, h_front, h_back⟩ := ih
      refine ⟨a :: l₁, l₂, rfl, by simp [insertByPriority, ha, h_ins], fun x hx => ?_, h_back⟩
      rcases List.mem_cons.mp hx with rfl | hx
      · exact Int.not_lt.mp ha
      · exact h_front x hx

theorem insertByPriority_perm (t : Task) (l : List Task) : (insertByPriority t l).Perm (t :: l) := by
  obtain ⟨l₁, l₂, rfl, h_ins, -, -⟩ := insertByPriority_split t l
  rw [h_ins]
  exact List.perm_middle

@[simp] theorem mem_insertByPriority {t x : Task} {l : List Task} :
    x ∈ insertByPriority t l ↔ x = t ∨ x ∈ l := by
  rw [(insertByPriority_perm t l).mem_iff, List.mem_cons]

/-- A queue keeps tasks in three places. -/
theorem mem_tasks {q : GroupQueue} {t : Task} :
    t ∈ q.tasks ↔ q.running = some t ∨ t ∈ q.pending ∨ t ∈ q.history := by
  simp [tasks]

/-- A task that is found is one of the queue. -/
theorem mem_tasks_of_find? {q : GroupQueue} {t : String} {u : Task} (h : q.find? t = some u) : u ∈ q.tasks ∧ u.id = t := by
  unfold find? at h
  rcases Option.or_eq_some_iff.mp h with h | ⟨-, h⟩
  · rcases Option.or_eq_some_iff.mp h with h | ⟨-, h⟩
    · obtain ⟨h_run, h_id⟩ := Option.filter_eq_some_iff.mp h
      exact ⟨mem_tasks.mpr (.inl h_run), beq_iff_eq.mp h_id⟩
    · exact ⟨mem_tasks.mpr (.inr (.inl (List.mem_of_find?_eq_some h))), by simpa using List.find?_some h⟩
  · exact ⟨mem_tasks.mpr (.inr (.inr (List.mem_of_find?_eq_some h))), by simpa using List.find?_some h⟩

/-- A task that is not kept is not found. -/
theorem find?_eq_none_of_absent {q : GroupQueue} {t : String} (h : ∀ u ∈ q.tasks, u.id ≠ t) : q.find? t = none := by
  refine Option.eq_none_iff_forall_ne_some.mpr fun u h_u => ?_
  obtain ⟨h_mem, h_id⟩ := mem_tasks_of_find? h_u
  exact h u h_mem h_id

/-- A task that waits beside one that is taken out waited before. -/
theorem mem_pending_of_rest {q : GroupQueue} {t x : Task} {l₁ l₂ : List Task} (h : q.pending = l₁ ++ t :: l₂)
    (h_x : x ∈ l₁ ++ l₂) : x ∈ q.pending := by
  rw [h]
  exact ((List.sublist_cons_self t l₂).append_left l₁).subset h_x

/-! ### Tasks that came to their end -/

/-- The task that is remembered last is the one that came to its end last. -/
theorem mem_remember {limit : Nat} {history : List Task} {t x : Task}
    (h : x ∈ remember limit history t) : x = t ∨ x ∈ history := by
  have h_all := List.mem_of_mem_drop h
  split at h_all
  · obtain ⟨y, hy, h_eq⟩ := List.mem_map.mp h_all
    split at h_eq
    · exact .inl h_eq.symm
    · exact .inr (h_eq ▸ hy)
  · rcases List.mem_append.mp h_all with hx | hx
    · exact .inr hx
    · exact .inl (List.mem_singleton.mp hx)

section Archive

variable (q : GroupQueue) (t : Task)

@[simp] theorem archive_id : (q.archive t).id = q.id := rfl

@[simp] theorem archive_pending : (q.archive t).pending = q.pending := rfl

@[simp] theorem archive_running : (q.archive t).running = q.running := rfl

@[simp] theorem archive_historyLimit : (q.archive t).historyLimit = q.historyLimit := rfl

@[simp] theorem archive_history :
    (q.archive t).history = remember q.historyLimit q.history t := rfl

end Archive

/-! ### Queueing and starting -/

variable {q q' : GroupQueue} {t u : Task} {id run : String} {now : Instant}

theorem enqueue_eq_ok_iff :
    q.enqueue t = .ok q' ↔ t.group = q.id ∧
      q' = { q with pending := insertByPriority { t with status := .pending } q.pending } := by
  unfold enqueue
  split
  · next h => simp [h, eq_comm]
  · next h => simp [h]

/-- A queue that is enabled and has no running task starts the first task that is due. -/
theorem dequeue_eq_some_iff :
    q.dequeue now = some (t, q') ↔
      q.enabled = true ∧ q.running = none ∧
        ∃ l₁ u l₂, q.pending = l₁ ++ u :: l₂ ∧ u.isDue now = true ∧
          (∀ x ∈ l₁, x.isDue now = false) ∧ t = u.started now ∧
          q' = { q with pending := l₁ ++ l₂, running := some (u.started now) } := by
  unfold dequeue
  split
  · next h =>
    obtain ⟨h_on, h_idle⟩ : q.enabled = true ∧ q.running = none := by simpa using h
    rw [Option.map_eq_some_iff]
    constructor
    · -- `takeFirst` splits the tasks that wait at the first that is due
      rintro ⟨⟨u, rest⟩, h_take, h_eq⟩
      obtain ⟨l₁, l₂, h_l, rfl, h_due, h_first⟩ := takeFirst_eq_some_iff.mp h_take
      obtain ⟨rfl, rfl⟩ := Prod.mk.inj h_eq
      exact ⟨h_on, h_idle, l₁, u, l₂, h_l, h_due, h_first, rfl, rfl⟩
    · rintro ⟨-, -, l₁, u, l₂, h_l, h_due, h_first, rfl, rfl⟩
      exact ⟨(u, l₁ ++ l₂), takeFirst_eq_some_iff.mpr ⟨l₁, l₂, h_l, rfl, h_due, h_first⟩, rfl⟩
  · next h =>
    refine ⟨fun h_none => (nomatch h_none), fun ⟨h_on, h_idle, _⟩ => ?_⟩
    exact absurd (show (q.enabled && q.running.isNone) = true by simp [h_on, h_idle]) h

theorem dequeue_eq_none_iff :
    q.dequeue now = none ↔
      q.enabled = false ∨ q.running ≠ none ∨ ∀ x ∈ q.pending, x.isDue now = false := by
  unfold dequeue
  split
  · next h =>
    obtain ⟨h_on, h_idle⟩ : q.enabled = true ∧ q.running = none := by simpa using h
    simp [h_on, h_idle, takeFirst_eq_none_iff]
  · next h =>
    refine ⟨fun _ => ?_, fun _ => rfl⟩
    by_cases h_on : q.enabled = true
    · exact .inr (.inl fun h_idle => h (by simp [h_on, h_idle]))
    · exact .inl (Bool.of_not_eq_true h_on)

/-- Telling a queue of a run changes the record of the running task at most, of which it writes
down the run and the token. -/
theorem attach_cases (q : GroupQueue) (id run : String) (token : CancelToken) :
    (∃ u, q.running = some u ∧ u.id = id ∧
      q.attach id run token =
        (u.cancelRequested, { q with running := some (u.attached run token) })) ∨
    ((∀ u, q.running = some u → u.id ≠ id) ∧ q.attach id run token = (false, q)) := by
  cases h_run : q.running with
  | none => exact .inr ⟨fun _ h => (nomatch h), by simp [attach, h_run]⟩
  | some u =>
    by_cases h_id : u.id = id
    · exact .inl ⟨u, rfl, h_id, by simp [attach, h_run, h_id, Task.attached]⟩
    · refine .inr ⟨fun v h => Option.some.inj h ▸ h_id, by simp [attach, h_run, h_id]⟩

theorem attach_running (h_run : q.running = some u) (run : String) (token : CancelToken) :
    q.attach u.id run token = (u.cancelRequested, { q with running := some (u.attached run token) }) := by
  obtain ⟨v, h_v, -, h_att⟩ | ⟨h_not, -⟩ := attach_cases q u.id run token
  · cases h_v.symm.trans h_run
    exact h_att
  · exact absurd rfl (h_not u h_run)

/-! ### Ends of runs -/

/-- What becomes of the running task when its run ends: it comes to its end and is remembered, or
it is queued again for its next attempt, which is never so for a task that was to be cancelled. -/
theorem complete_cases {outcome : TaskOutcome} {d : Disposition}
    (h : q.complete id outcome now = .ok (d, q')) :
    ∃ u, q.running = some u ∧ u.id = id ∧
      ((∃ v, v.id = u.id ∧ v.group = u.group ∧ v.status = d.status ∧ d.status.isTerminal = true ∧
          (u.cancelRequested = true → d = .cancelled) ∧
          q' = ({ q with running := none } : GroupQueue).archive v) ∨
        (∃ f, outcome = .failed f ∧ d = .retrying (u.retryCount + 1) ∧ u.cancelRequested = false ∧
          q' = { q with
            running := none
            pending := insertByPriority
              { q.requeued { u with lastError := some f.error } now with status := .pending }
              q.pending })) := by
  unfold complete at h
  cases h_run : q.running with
  | none => simp [h_run] at h
  | some u =>
    simp only [h_run] at h
    split at h
    · cases h
    next h_id =>
    refine ⟨u, rfl, not_not.mp h_id, ?_⟩
    -- the mark comes before the outcome, whatever that is
    by_cases h_req : u.cancelRequested = true
    · rw [if_pos h_req] at h
      cases h
      exact .inl ⟨{ u with lastError := some "cancelled" }.ended .cancelled now,
        rfl, rfl, rfl, rfl, fun _ => rfl, rfl⟩
    rw [if_neg h_req] at h
    cases outcome with
    | succeeded v =>
      cases h
      exact .inl ⟨{ u with result := some v }.ended .completed now,
        rfl, rfl, rfl, rfl, fun h => absurd h h_req, rfl⟩
    | cancelled =>
      cases h
      exact .inl ⟨{ u with lastError := some "cancelled" }.ended .cancelled now,
        rfl, rfl, rfl, rfl, fun _ => rfl, rfl⟩
    | failed f =>
      simp only at h
      split at h
      · -- there are attempts left
        cases h_retry : retry _ _ now with
        | error e => rw [h_retry] at h; cases h
        | ok q₁ =>
          rw [h_retry] at h
          cases h
          obtain ⟨-, rfl⟩ := enqueue_eq_ok_iff.mp h_retry
          exact .inr ⟨f, rfl, rfl, Bool.of_not_eq_true h_req, rfl⟩
      · cases h
        exact .inl ⟨{ u with lastError := some f.error }.ended .failed now,
          rfl, rfl, rfl, rfl, fun h => absurd h h_req, rfl⟩

/-- The end of a run of the running task is always accepted, if the task is of the queue's group. -/
theorem complete_isOk (h_run : q.running = some u) (h_group : u.group = q.id) (outcome : TaskOutcome)
    (now : Instant) : ∃ d q', q.complete u.id outcome now = .ok (d, q') := by
  unfold complete
  simp only [h_run, ne_eq, not_true_eq_false, if_false]
  split
  · exact ⟨_, _, rfl⟩
  · cases outcome with
    | succeeded v => exact ⟨_, _, rfl⟩
    | cancelled => exact ⟨_, _, rfl⟩
    | failed f =>
      simp only
      split
      · -- a retry is an enqueue, which refuses a task of another group only
        obtain ⟨q₁, h₁⟩ : ∃ q₁, retry { q with running := none } { u with lastError := some f.error } now
            = .ok q₁ := ⟨_, enqueue_eq_ok_iff.mpr ⟨h_group, rfl⟩⟩
        exact ⟨_, _, by rw [h₁]; rfl⟩
      · exact ⟨_, _, rfl⟩

/-! ### Cancellations -/

@[simp] theorem withdrawn_id (t : Task) (now : Instant) : (withdrawn t now).id = t.id := rfl

@[simp] theorem withdrawn_group (t : Task) (now : Instant) : (withdrawn t now).group = t.group := rfl

@[simp] theorem withdrawn_status (t : Task) (now : Instant) :
    (withdrawn t now).status = .cancelled := rfl

theorem cancelRunning_eq_some_iff {o : CancelOutcome} :
    q.cancelRunning id = some (o, q') ↔
      ∃ u, q.running = some u ∧ u.id = id ∧ u.cancelRequested = false ∧ o = .requested u.run u.token ∧
        q' = { q with running := some { u with cancelRequested := true } } := by
  unfold cancelRunning
  cases h_run : q.running with
  | none => simp
  | some u =>
    simp only [Option.some.injEq, exists_eq_left']
    split
    · next h =>
      obtain ⟨h_id, h_req⟩ : u.id = id ∧ u.cancelRequested = false := by simpa using h
      simp [h_id, h_req, eq_comm]
    · next h =>
      refine ⟨fun h_none => (nomatch h_none), fun ⟨h_id, h_req, _⟩ => ?_⟩
      exact absurd (by simp [h_id, h_req]) h

/-- A cancellation that is granted takes the task from those that wait, or marks the running one. -/
theorem cancel_cases {o : CancelOutcome} (h : q.cancel id now = some (o, q')) :
    (∃ l₁ u l₂, q.pending = l₁ ++ u :: l₂ ∧ u.id = id ∧ (∀ x ∈ l₁, x.id ≠ id) ∧ o = .removed ∧
      q' = ({ q with pending := l₁ ++ l₂ } : GroupQueue).archive (withdrawn u now)) ∨
    ((∀ x ∈ q.pending, x.id ≠ id) ∧
      ∃ u, q.running = some u ∧ u.id = id ∧ u.cancelRequested = false ∧ o = .requested u.run u.token ∧
        q' = { q with running := some { u with cancelRequested := true } }) := by
  unfold cancel at h
  split at h
  · next u rest h_take =>
    obtain ⟨l₁, l₂, h_l, rfl, h_id, h_first⟩ := takeFirst_eq_some_iff.mp h_take
    cases h
    exact .inl ⟨l₁, u, l₂, h_l, by simpa using h_id, fun x hx => by simpa using h_first x hx, rfl, rfl⟩
  · next h_take =>
    refine .inr ⟨fun x hx => ?_, cancelRunning_eq_some_iff.mp h⟩
    simpa using takeFirst_eq_none_iff.mp h_take x hx

theorem cancel_eq_none_iff :
    q.cancel id now = none ↔
      (∀ x ∈ q.pending, x.id ≠ id) ∧ ∀ u ∈ q.running, u.id = id → u.cancelRequested = true := by
  unfold cancel
  cases h_take : takeFirst (·.id == id) q.pending with
  -- a task that waits is always withdrawn
  | some r =>
    obtain ⟨l₁, l₂, h_l, -, h_id, -⟩ := takeFirst_eq_some_iff.mp h_take
    exact iff_of_false nofun fun h => h.1 r.1 (by simp [h_l]) (beq_iff_eq.mp h_id)
  | none =>
    have h_waits : ∀ x ∈ q.pending, x.id ≠ id := fun x h_x => by simpa using takeFirst_eq_none_iff.mp h_take x h_x
    unfold cancelRunning
    cases h_run : q.running with
    | none => simpa using h_waits
    | some u =>
      simp only [Option.mem_some_iff, forall_eq', and_iff_right h_waits]
      -- the running task is refused if it is marked already
      split
      · next h => exact iff_of_false nofun fun h_marked => by simp_all
      · next h => exact iff_of_true rfl fun h_id => by simpa [h_id] using h

/-- The queue with some more tasks that came to their end. -/
def archiveAll (q : GroupQueue) (ts : List Task) : GroupQueue := ts.foldl archive q

section ArchiveAll

variable (q : GroupQueue) (ts : List Task)

theorem archiveAll_eq :
    q.archiveAll ts = { q with history := ts.foldl (remember q.historyLimit) q.history } := by
  induction ts generalizing q with
  | nil => rfl
  | cons t ts ih => exact ih (q.archive t)

@[simp] theorem archiveAll_id : (q.archiveAll ts).id = q.id := by rw [archiveAll_eq]

@[simp] theorem archiveAll_pending : (q.archiveAll ts).pending = q.pending := by rw [archiveAll_eq]

@[simp] theorem archiveAll_running : (q.archiveAll ts).running = q.running := by rw [archiveAll_eq]

@[simp] theorem archiveAll_historyLimit : (q.archiveAll ts).historyLimit = q.historyLimit := by
  rw [archiveAll_eq]

/-- What is remembered then was remembered before, or is one of these tasks. -/
theorem mem_archiveAll {q : GroupQueue} {ts : List Task} {t : Task}
    (h : t ∈ (q.archiveAll ts).history) : t ∈ q.history ∨ t ∈ ts := by
  induction ts generalizing q with
  | nil => exact .inl h
  | cons a ts ih =>
    rcases ih (q := q.archive a) h with h_t | h_t
    · rcases mem_remember h_t with rfl | h_t
      · exact .inr List.mem_cons_self
      · exact .inl h_t
    · exact .inr (List.mem_cons_of_mem _ h_t)

end ArchiveAll

/-- The running task of a queue, marked as one that is to be cancelled. -/
def flagged (q : GroupQueue) : Option Task :=
  q.running.map fun u => { u with cancelRequested := true }

theorem foldl_archive_withdrawn (q : GroupQueue) (now : Instant) :
    q.pending.foldl (fun q t => q.archive (withdrawn t now)) { q with pending := [] } =
      { q with
        pending := []
        history := (q.pending.map (withdrawn · now)).foldl (remember q.historyLimit) q.history } := by
  rw [← List.foldl_map (f := (withdrawn · now)) (g := archive)]
  exact archiveAll_eq _ _

/-- When all tasks are cancelled, the answer is about the running one, unless its cancellation was
asked for before. -/
theorem cancelAll_fst (q : GroupQueue) (now : Instant) :
    (q.cancelAll now).1 = (q.running.filter fun u => !u.cancelRequested).map fun u =>
      .requested u.run u.token := by
  unfold cancelAll
  rw [foldl_archive_withdrawn]
  cases h_run : q.running with
  | none => rfl
  | some u => cases h_req : u.cancelRequested <;> simp [cancelRunning, Option.filter, h_req]

/-- When all tasks are cancelled, those that wait come to their end in the order in which they would
have been served, and the running one is marked. -/
theorem cancelAll_snd (q : GroupQueue) (now : Instant) :
    (q.cancelAll now).2 =
      { ({ q with pending := [] } : GroupQueue).archiveAll (q.pending.map (withdrawn · now)) with
        running := q.flagged } := by
  unfold cancelAll flagged
  rw [foldl_archive_withdrawn, archiveAll_eq]
  cases h_run : q.running with
  | none => rfl
  | some u =>
    cases h_req : u.cancelRequested with
    | false => simp [cancelRunning, h_req]
    | true =>
      have h_same : ({ u with cancelRequested := true } : Task) = u := by rw [← h_req]
      simp [cancelRunning, h_req, h_same]

end GroupQueue

end ScriptYard
