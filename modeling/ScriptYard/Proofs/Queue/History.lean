import ScriptYard.Proofs.Queue.Lives
import ScriptYard.Proofs.Queue.ServiceOrder

/-!
# The history of a queue

`GroupQueue.closings` lists the records of all tasks that come to their end in a run of a queue, in the
order in which they do and as they are then. It is written from the answers of the operations and the
places that the tasks leave, and says nothing of the history; `GroupQueue.told` lists what is seen of the
same run from outside, and the two tell of the same ends.

A task can come to its end in four ways, and one operation may bring any number of tasks there. All of
them put the records into the history one behind the other and let it forget from its front
(`GroupQueue.closing`). `Ledger.Recalls` is the invariant: the history is the end of the list of all
records, as long as the limit allows. An id that is new to the list makes the list longer
(`foldl_remember`); one that is not would change a record in its place, and that is the only reason why
the ids have to differ.

`GroupQueue.history_is_latest_ends` reads off it what the queue remembers of a task and for how long.
-/

namespace ScriptYard

/-- The end of a task that an event tells of, with its status. -/
def Event.ending? : Event → Option (String × TaskStatus)
  | .ended t status => some (t, status)
  | .granted _ | .queued _ | .started _ | .fired _ | .called .. => none

namespace GroupQueue

/-- The records of the tasks that an operation brings to their end. -/
def closes (q : GroupQueue) : QueueOp → List Task
  | .complete t outcome now => match q.complete t outcome now with
    | .ok (d, _) => if d.status.isTerminal then q.running.toList.map (·.concluded outcome now) else []
    | .error _ => []
  | .cancel t now => match q.cancel t now with
    | some (.removed, _) => (q.pending.find? (·.id == t)).toList.map (withdrawn · now)
    | _ => []
  | .cancelAll now => q.pending.map (withdrawn · now)
  | .enqueue _ | .dequeue _ | .attach .. | .setEnabled _ | .setExceptionScript _ => []

/-- The records of the tasks that come to their end in some operations. -/
def closings (q : GroupQueue) : List QueueOp → List Task
  | [] => []
  | op :: ops => q.closes op ++ (q.after op).closings ops

/-- What happens in some operations. -/
def told (q : GroupQueue) : List QueueOp → List Event
  | [] => []
  | op :: ops => q.tells op ++ (q.after op).told ops

/-- These are the records of the tasks that an operation brings to their end, as its answer, its events
and the history after it have them. -/
structure Closing (q : GroupQueue) (op : QueueOp) (ts : List Task) : Prop where
  /-- The answer names these tasks. -/
  ids : taskIds ts = q.ends op
  /-- The events name them, and the ways in which they came to their end. -/
  told : ts.map (fun u => (u.id, u.status)) = (q.tells op).filterMap Event.ending?
  /-- None of them leaves its status again. -/
  terminal : ∀ u ∈ ts, u.status.isTerminal = true
  /-- They are remembered one behind the other. -/
  history : (q.after op).history = ts.foldl (remember q.historyLimit) q.history

variable {q : GroupQueue} {op : QueueOp} {ops : List QueueOp} {t : String} {u : Task}

/-! ### One operation -/

theorem ending?_fired (token : Option CancelToken) :
    (token.toList.map Event.fired).filterMap Event.ending? = [] := by
  cases token <;> rfl

/-- An operation that is not seen to end a task leaves the history alone. -/
theorem Change.history_eq {q' : GroupQueue} {evs : List Event} (h : q.Change op q' evs)
    (h_none : evs.filterMap Event.ending? = []) : q'.history = q.history := by
  cases h with
  | ended | withdrawn => cases h_none
  | cleared now =>
    -- nothing waited
    have h_pending : q.pending = [] := by
      cases h_cons : q.pending with
      | nil => rfl
      | cons u rest =>
        rw [h_cons] at h_none
        cases h_none
    rw [h_pending]
    rfl
  | _ => rfl

/-- An operation that ends no task. -/
theorem Closing.nothing {ts : List Task} (h_ts : ts = []) (h_ends : q.ends op = [])
    (h_tells : (q.tells op).filterMap Event.ending? = []) : q.Closing op ts := by
  subst h_ts
  exact ⟨h_ends.symm, h_tells.symm, fun _ h => absurd h List.not_mem_nil, (q.change op).history_eq h_tells⟩

/-- The end of a run brings its task to an end, with the verdict on it, or is no end. -/
theorem closing_complete (q : GroupQueue) (i : String) (outcome : TaskOutcome) (now : Instant) :
    q.Closing (.complete i outcome now) (q.closes (.complete i outcome now)) := by
  cases h_com : q.complete i outcome now with
  | error e =>
    exact .nothing (by simp only [closes, h_com]) (by simp only [ends, h_com]) (by simp [tells, h_com])
  | ok r =>
    obtain ⟨d, q'⟩ := r
    obtain ⟨u, h_run, rfl, -, ⟨h_end, h_status, rfl⟩ | ⟨f, rfl, rfl, -⟩⟩ := complete_answer h_com
    · have h_id : (u.concluded outcome now).id = u.id := (concluded_same u outcome now).1
      have h_one : q.closes (.complete u.id outcome now) = [u.concluded outcome now] := by
        simp [closes, h_com, h_end, h_run]
      rw [h_one]
      refine ⟨?_, ?_, fun v h_v => ?_, by simp only [after, h_com]; rfl⟩
      · simp [ends, h_com, h_end, taskIds, h_id]
      · simp only [List.map_cons, List.map_nil, h_id, h_status, tells, h_com]
        -- an end is no retry
        cases d with
        | retrying k => cases h_end
        | completed | failed | cancelled => rfl
      · rw [List.mem_singleton.mp h_v, h_status]
        exact h_end
    · have h_waits : (Disposition.retrying (u.retryCount + 1)).status.isTerminal = false := rfl
      exact .nothing (by simp [closes, h_com, h_waits]) (by simp [ends, h_com, h_waits])
        (by simp [tells, h_com, Event.ending?])

/-- A cancellation ends the task that it finds waiting, and only marks the running one. -/
theorem closing_cancel (q : GroupQueue) (i : String) (now : Instant) :
    q.Closing (.cancel i now) (q.closes (.cancel i now)) := by
  cases h_can : q.cancel i now with
  | none => exact .nothing (by simp only [closes, h_can]) (by simp only [ends, h_can]) (by simp [tells, h_can])
  | some r =>
    obtain ⟨o, q'⟩ := r
    -- a waiting task is withdrawn, the running one is only marked
    obtain ⟨l₁, u, l₂, h_pending, rfl, h_first, rfl, rfl⟩ | ⟨-, u, -, -, -, rfl, rfl⟩ := cancel_cases h_can
    · have h_find : q.pending.find? (·.id == u.id) = some u :=
        List.find?_eq_some_iff_append.mpr
          ⟨beq_self_eq_true _, l₁, l₂, h_pending, fun x h_x => by simp [h_first x h_x]⟩
      have h_one : q.closes (.cancel u.id now) = [withdrawn u now] := by simp [closes, h_can, h_find]
      rw [h_one]
      refine ⟨by simp [ends, h_can, taskIds], ?_, fun v h_v => ?_, by simp only [after, h_can]; rfl⟩
      · simp only [tells, h_can]
        rfl
      · rw [List.mem_singleton.mp h_v]
        rfl
    · refine .nothing (by simp only [closes, h_can]) (by simp only [ends, h_can]) ?_
      simp only [tells, h_can]
      exact ending?_fired u.token

/-- All that wait come to their end together, in the order of service. -/
theorem closing_cancelAll (q : GroupQueue) (now : Instant) :
    q.Closing (.cancelAll now) (q.closes (.cancelAll now)) := by
  refine ⟨by simp [closes, ends, taskIds], ?_, fun v h_v => ?_, ?_⟩
  · have h_ended : ((taskIds q.pending).map (Event.ended · .cancelled)).filterMap Event.ending? =
        (taskIds q.pending).map fun i => (i, .cancelled) := by
      rw [List.filterMap_map, ← List.filterMap_eq_map]
      rfl
    have h_records : (q.closes (.cancelAll now)).map (fun u => (u.id, u.status)) =
        (taskIds q.pending).map fun i => (i, .cancelled) := by
      simp [closes, taskIds]
    rw [h_records, tells, List.filterMap_append, h_ended, cancelAll_fst]
    -- besides the ends, at most the token of the running task is told of
    cases q.running.filter fun u => !u.cancelRequested with
    | none => exact (List.append_nil _).symm
    | some u => simp only [Option.map_some, ending?_fired, List.append_nil]
  · obtain ⟨u, -, rfl⟩ := List.mem_map.mp h_v
    rfl
  · simp only [after, closes, cancelAll_snd, archiveAll_eq]

/-- **The records that an operation closes** are those that its answer and its events name, and those that it puts
into the history. -/
theorem closing (q : GroupQueue) (op : QueueOp) : q.Closing op (q.closes op) := by
  cases op with
  | complete i outcome now => exact q.closing_complete i outcome now
  | cancel i now => exact q.closing_cancel i now
  | cancelAll now => exact q.closing_cancelAll now
  -- none of the others ends a task
  | enqueue v =>
    refine .nothing rfl rfl ?_
    simp only [tells]
    cases q.enqueue v <;> rfl
  | dequeue now =>
    refine .nothing rfl rfl ?_
    simp only [tells]
    cases q.dequeue now <;> rfl
  | attach i run token =>
    refine .nothing rfl rfl ?_
    simp only [tells]
    split <;> rfl
  | setEnabled _ | setExceptionScript _ => exact .nothing rfl rfl rfl

/-! ### The list of all records -/

/-- Records under ids that are new stand behind the others, of which the limit drops the first. -/
theorem foldl_remember {closed ts : List Task} (limit : ℕ) (h_new : (taskIds (closed ++ ts)).Nodup) :
    ts.foldl (remember limit) (closed.rtake limit) = (closed ++ ts).rtake limit := by
  induction ts generalizing closed with
  | nil => rw [List.append_nil]; rfl
  | cons t ts ih =>
    have h_split : closed ++ t :: ts = closed ++ [t] ++ ts := by simp
    rw [h_split] at h_new ⊢
    -- as the id is new, `remember` appends and does not replace
    have h_out : ¬ (closed.rtake limit).any (·.id == t.id) = true := by
      intro h_any
      obtain ⟨x, h_x, h_eq⟩ := List.any_eq_true.mp h_any
      rw [taskIds, List.append_assoc, List.map_append] at h_new
      exact (List.nodup_append.mp h_new).2.2 x.id (List.mem_map_of_mem (mem_of_mem_rtake h_x)) t.id
        List.mem_cons_self (beq_iff_eq.mp h_eq)
    rw [List.foldl_cons]
    have h_step : remember limit (closed.rtake limit) t = (closed ++ [t]).rtake limit := by
      unfold remember
      rw [if_neg h_out]
      exact rtake_rtake_append closed limit t
    rw [h_step]
    exact ih h_new

theorem closings_append (q : GroupQueue) (ops ops' : List QueueOp) :
    q.closings (ops ++ ops') = q.closings ops ++ (q.run ops).closings ops' := by
  induction ops generalizing q with
  | nil => rfl
  | cons op ops ih =>
    rw [List.cons_append, closings, closings, ih (q.after op), List.append_assoc]
    rfl

/-- The records are those of the ends that are seen from outside. -/
theorem closings_told (q : GroupQueue) (ops : List QueueOp) :
    (q.closings ops).map (fun u => (u.id, u.status)) = (q.told ops).filterMap Event.ending? := by
  induction ops generalizing q with
  | nil => rfl
  | cons op ops ih =>
    rw [closings, told, List.map_append, List.filterMap_append, (q.closing op).told, ih]

theorem closings_terminal (q : GroupQueue) (ops : List QueueOp) :
    ∀ u ∈ q.closings ops, u.status.isTerminal = true := by
  induction ops generalizing q with
  | nil => exact fun _ h => absurd h List.not_mem_nil
  | cons op ops ih =>
    intro u h_u
    rcases List.mem_append.mp h_u with h_u | h_u
    · exact (q.closing op).terminal u h_u
    · exact ih (q.after op) u h_u

end GroupQueue

namespace Ledger

open GroupQueue

variable {l : Ledger} {closed : List Task}

/-- These are the records of all tasks that came to their end, and the history is the end of their list. -/
structure Recalls (l : Ledger) (closed : List Task) : Prop where
  /-- The records are of the tasks in the books. -/
  ids : taskIds closed = l.ended
  /-- The last of them are remembered. -/
  history : l.queue.history = closed.rtake l.queue.historyLimit

/-- **One operation.** The records that it closes are remembered behind the others. -/
theorem Recalls.after (h : l.Recalls closed) {op : QueueOp} (h_books : (l.after op).Balanced) :
    (l.after op).Recalls (closed ++ l.queue.closes op) := by
  have h_closing := l.queue.closing op
  have h_ids : taskIds (closed ++ l.queue.closes op) = l.ended ++ l.queue.ends op := by
    rw [← h.ids, ← h_closing.ids, taskIds, List.map_append]
    rfl
  -- no id ends twice: the books keep the ids of all ends distinct
  have h_new : (taskIds (closed ++ l.queue.closes op)).Nodup := by
    rw [h_ids]
    exact (List.nodup_append.mp (h_books.places.nodup_iff.mpr h_books.distinct)).2.1
  refine ⟨h_ids, ?_⟩
  calc (l.after op).queue.history
      = (l.queue.closes op).foldl (remember l.queue.historyLimit) (closed.rtake l.queue.historyLimit) := by
        rw [← h.history]
        exact h_closing.history
    _ = (closed ++ l.queue.closes op).rtake l.queue.historyLimit := foldl_remember _ h_new
    _ = (closed ++ l.queue.closes op).rtake (l.after op).queue.historyLimit := by
        rw [show (l.after op).queue.historyLimit = l.queue.historyLimit from (after_fixed l.queue op).2]

/-- The records of a run of a queue that began empty are of the tasks in its books, and the history is the
end of their list. -/
theorem recalls_run (id name : String) (limit : ℕ) (policy : RetryPolicy) {ops : List QueueOp}
    (distinct : (offeredIds ops).Nodup) :
    ((⟨.create id name limit policy, [], []⟩ : Ledger).run ops).Recalls
      ((create id name limit policy).closings ops) := by
  induction ops using List.reverseRecOn with
  | nil => exact ⟨rfl, (List.rtake_nil _).symm⟩
  | append_singleton ops op ih =>
    have h_books := (Balanced.create id name limit policy).run distinct fun _ _ => List.not_mem_nil
    have h_before := ih (nodup_offeredIds_of_append distinct)
    rw [run, List.foldl_append] at h_books ⊢
    rw [closings_append, closings, closings, List.append_nil, ← queue_run ⟨.create id name limit policy, [], []⟩]
    exact h_before.after h_books

theorem Recalls.forgotten (h : l.Recalls closed) : l.forgotten = taskIds (closed.rdrop l.queue.historyLimit) := by
  rw [Ledger.forgotten, ← h.ids, List.rdrop, List.rdrop, taskIds, taskIds, List.map_take, List.length_map]

end Ledger

theorem NumberedQueue.queue_run (n : NumberedQueue) (ops : List QueueOp) :
    (n.run ops).queue = n.queue.run ops := by
  induction ops generalizing n with
  | nil => rfl
  | cons op ops ih => exact ih (n.after op)

namespace GroupQueue

variable {q : GroupQueue} {t : String} {u : Task}

/-! ### What is found -/

theorem isSome_find?_of_mem (h : u ∈ q.tasks) : (q.find? u.id).isSome = true := by
  unfold find?
  rw [Option.isSome_or, Option.isSome_or]
  rcases mem_tasks.mp h with h | h | h
  · simp [h, Option.filter]
  · have h_found : (q.pending.find? (·.id == u.id)).isSome = true :=
      List.find?_isSome.mpr ⟨u, h, beq_self_eq_true _⟩
    simp [h_found]
  · have h_found : (q.history.find? (·.id == u.id)).isSome = true :=
      List.find?_isSome.mpr ⟨u, h, beq_self_eq_true _⟩
    simp [h_found]

/-- A queue that keeps no two tasks of the same id finds the one that it keeps, wherever that is. -/
theorem find?_eq_some_iff (h_once : (taskIds q.tasks).Nodup) :
    q.find? t = some u ↔ u ∈ q.tasks ∧ u.id = t := by
  refine ⟨mem_tasks_of_find?, fun ⟨h_u, h_id⟩ => ?_⟩
  obtain ⟨w, h_w⟩ := Option.isSome_iff_exists.mp (isSome_find?_of_mem h_u)
  obtain ⟨h_mem, h_same⟩ := mem_tasks_of_find? h_w
  rw [← h_id, h_w, List.inj_on_of_nodup_map h_once h_mem h_u h_same]

/-- What has few others behind it is in the last part of a list. -/
theorem mem_rtake_of_split {α : Type} (earlier later : List α) (x : α) {n : ℕ} (h : later.length < n) :
    x ∈ (earlier ++ x :: later).rtake n := by
  rw [List.rtake, List.length_append, List.length_cons, List.drop_append_of_le_length (by omega)]
  simp

/-- What has many others behind it is in front of the last part. -/
theorem mem_rdrop_of_split {α : Type} (earlier later : List α) (x : α) {n : ℕ} (h : n ≤ later.length) :
    x ∈ (earlier ++ x :: later).rdrop n := by
  obtain ⟨k, h_k⟩ : ∃ k, (earlier ++ x :: later).length - n = earlier.length + (k + 1) :=
    ⟨later.length - n, by simp only [List.length_append, List.length_cons]; omega⟩
  rw [List.rdrop, h_k, List.take_length_add_append]
  simp

/-- A task that came to its end is found exactly as long as fewer others came to theirs since than are remembered. -/
theorem find?_of_split {l : Ledger} {closed : List Task} (h : l.Recalls closed) (h_books : l.Balanced)
    {earlier later : List Task} (h_split : closed = earlier ++ u :: later) :
    l.queue.find? u.id = if later.length < l.queue.historyLimit then some u else none := by
  split
  · next h_few =>
    refine (find?_eq_some_iff h_books.nodup_tasks).mpr ⟨mem_tasks.mpr (.inr (.inr ?_)), rfl⟩
    rw [h.history, h_split]
    exact mem_rtake_of_split earlier later u h_few
  · next h_many =>
    have h_gone : u.id ∈ l.forgotten := by
      rw [h.forgotten, h_split]
      exact List.mem_map_of_mem (mem_rdrop_of_split earlier later u (Nat.le_of_not_lt h_many))
    refine find?_eq_none_of_absent fun w h_w h_id => ?_
    exact (h_books.mem_tasks_iff.mp (h_id ▸ List.mem_map_of_mem h_w)).2 h_gone

/-- **The history is the latest ends.** In every run of a queue that began empty and remembers so many
tasks, at least one, of tasks with ids of their own,

* the records of the tasks that came to their end so far are those of the ends that are seen from outside,
  in the order of time;
* the history is the last part of their list, as long as the limit allows;
* a task that came to its end is found, with its record as it was then, until so many others have come to
  their end after it as the limit says, and from then on not;
* the tasks of the queue are the running one, those that wait in the order of service, and the history with
  the last one first;
* among them is every task that was accepted and is not forgotten, once, and no other; these are the tasks
  that are found. -/
theorem history_is_latest_ends (id name : String) (limit : ℕ) (policy : RetryPolicy) (ops : List QueueOp)
    (distinct : (offeredIds ops).Nodup) :
    let start := create id name limit policy
    let q := start.run ops
    let ended := start.closings ops
    let room := ((⟨start, {}⟩ : NumberedQueue).run ops).room
    let accepted := ((⟨start, [], []⟩ : Ledger).run ops).accepted
    (ended.map (fun u => (u.id, u.status)) = (start.told ops).filterMap Event.ending? ∧
        ∀ u ∈ ended, u.status.isTerminal = true) ∧
      (q.history <:+ ended ∧ q.history.length = min ended.length (max limit 1)) ∧
      (∀ earlier u later, ended = earlier ++ u :: later →
        q.find? u.id = if later.length < max limit 1 then some u else none) ∧
      (∃ line : List Ticket, line.Perm room.waiting ∧ line.Pairwise Ticket.Before ∧
        q.tasks = q.running.toList ++ line.map (·.task) ++ q.history.reverse) ∧
      (taskIds q.tasks).Nodup ∧
      (∀ i, i ∈ taskIds q.tasks ↔ i ∈ accepted ∧ i ∉ taskIds (ended.take (ended.length - max limit 1))) ∧
      ∀ t u, q.find? t = some u ↔ u ∈ q.tasks ∧ u.id = t := by
  intro start q ended room accepted
  -- the ledger beside the queue counts what was accepted and what ended
  let l := (⟨start, [], []⟩ : Ledger).run ops
  have h_books : l.Balanced :=
    (Ledger.Balanced.create id name limit policy).run distinct fun _ _ => List.not_mem_nil
  have h_recalls : l.Recalls ended := Ledger.recalls_run id name limit policy distinct
  have h_queue : l.queue = q := Ledger.queue_run _ ops
  have h_limit : l.queue.historyLimit = max limit 1 := (Ledger.run_fixed _ ops).2
  have h_history : q.history = ended.rtake (max limit 1) := by
    rw [← h_queue, ← h_limit]
    exact h_recalls.history
  have h_once : (taskIds q.tasks).Nodup := by
    rw [← h_queue]
    exact h_books.nodup_tasks
  refine ⟨⟨start.closings_told ops, start.closings_terminal ops⟩, ⟨?_, ?_⟩, fun earlier u later h_split => ?_, ?_,
    h_once, fun i => ?_, fun _ _ => find?_eq_some_iff h_once⟩
  · rw [h_history]
    exact List.drop_suffix _ _
  · rw [h_history, List.rtake, List.length_drop]
    omega
  · rw [← h_queue, ← h_limit]
    exact find?_of_split h_recalls h_books h_split
  · -- the order of service is that of the numbered queue, which has the same tasks waiting
    obtain ⟨line, h_line⟩ := (NumberedQueue.Lined.create id name limit policy).run ops
    have h_pending := h_line.pending
    rw [NumberedQueue.queue_run] at h_pending
    refine ⟨line, h_line.same, h_line.sorted, ?_⟩
    rw [tasks, ← h_pending]
  · have h_forgotten : taskIds (ended.take (ended.length - max limit 1)) = l.forgotten := by
      rw [h_recalls.forgotten, h_limit]
      rfl
    rw [← h_queue, h_forgotten]
    exact h_books.mem_tasks_iff

/-- The first of three tasks is completed and the second withdrawn, a fourth fails for good when it was
tried twice, and then all others are cancelled. -/
def fourEnds : List QueueOp :=
  [.enqueue (Ledger.plainTask "a"), .enqueue (Ledger.plainTask "b"), .enqueue (Ledger.plainTask "c"),
    .dequeue ⟨0, 0⟩, .complete "a" (.succeeded .null) ⟨1, 0⟩, .cancel "b" ⟨2, 0⟩,
    .enqueue { Ledger.plainTask "d" with priority := 1, maxRetries := 1 },
    .dequeue ⟨3, 0⟩, .complete "d" (.failed ⟨"lost", .transient⟩) ⟨4, 0⟩,
    .dequeue ⟨5, 0⟩, .complete "d" (.failed ⟨"lost", .transient⟩) ⟨6, 0⟩, .cancelAll ⟨7, 0⟩]

/-- A queue that remembers two tasks has the last two, and finds the second one no longer. -/
theorem last_two_of_four_ends :
    let start := create "g" "G" 2 {}
    (offeredIds fourEnds).Nodup ∧ taskIds (start.closings fourEnds) = ["a", "b", "d", "c"] ∧
      taskIds (start.run fourEnds).history = ["d", "c"] ∧ (start.run fourEnds).find? "b" = none ∧
      (start.run fourEnds).history <:+ start.closings fourEnds := by
  have h_distinct : (offeredIds fourEnds).Nodup := by decide
  have h_history := history_is_latest_ends "g" "G" 2 {} fourEnds h_distinct
  refine ⟨h_distinct, by decide, by decide, ?_, h_history.2.1.1⟩
  exact h_history.2.2.1 [_] _ [_, _] rfl

end GroupQueue

end ScriptYard
