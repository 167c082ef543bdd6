import Mathlib.Data.List.Nodup
import ScriptYard.Proofs.Queue.Operations

/-!
# The order of service

A `WaitingRoom` is a priority queue that settles ties by the order of arrival, described without any
order of its own: every task that is queued takes a `Ticket` with the next number, the tickets stay in
the order in which they were taken, and `WaitingRoom.first` looks for the one that goes before all
others. `Ticket.Before` is the order of service, by falling priority and among tasks of one priority by
rising number.

A `NumberedQueue` runs a queue beside such a room. Whatever an operation puts among the tasks that wait,
be it new or a task that is to be retried (`GroupQueue.inserted`), takes a ticket; a start and a
cancellation take the first ticket of those they look for. `NumberedQueue.Lined` is the invariant: the
tickets of the room, lined up in the order of service, are what the queue keeps as its pending tasks.
Every operation keeps it (`NumberedQueue.Lined.after`). The insertion in front of the first task of a
lower priority is the only place where the order is made, and a ticket taken out of the middle leaves the
others as they stood.

`NumberedQueue.served_in_order` says what this means for a start: it answers with a task exactly if the
queue may start one and some ticket is ready, and then with that ready ticket which goes before all other
ready ones, whatever stands in front of it and is not ready yet.
-/

namespace ScriptYard

/-- Whether the time before which a task is not started, if it has one, has come. -/
def Task.Ready (t : Task) (now : Instant) : Prop := ∀ time ∈ t.scheduledAt, time ≤ now

theorem Task.isDue_eq_true_iff {t : Task} {now : Instant} (h : t.status = .pending) :
    t.isDue now = true ↔ t.Ready now := by
  unfold isDue Ready
  rw [h]
  cases t.scheduledAt <;> simp

/-- A task that waits, with the number under which it was queued. -/
structure Ticket where
  number : ℕ
  task : Task

namespace Ticket

/-- Of two tickets the one with the higher priority is served before the other, and of two with the
same priority the one with the smaller number. -/
def Before (e f : Ticket) : Prop :=
  f.task.priority < e.task.priority ∨ e.task.priority = f.task.priority ∧ e.number < f.number

instance (e f : Ticket) : Decidable (e.Before f) := inferInstanceAs (Decidable (_ ∨ _))

theorem Before.asymm {e f : Ticket} (h : e.Before f) : ¬ f.Before e := by
  unfold Before at *
  omega

end Ticket

/-- The tickets of the tasks that wait, in the order in which they were taken. -/
structure WaitingRoom where
  /-- How many tickets were taken. -/
  issued : ℕ := 0
  /-- The tickets of the tasks that still wait. -/
  waiting : List Ticket := []

namespace WaitingRoom

/-- A task takes the next ticket. -/
def enter (r : WaitingRoom) (t : Task) : WaitingRoom :=
  ⟨r.issued + 1, r.waiting ++ [⟨r.issued, t⟩]⟩

/-- The ticket that is served before all others, among those of tasks with a property. -/
def first (r : WaitingRoom) (p : Task → Bool) : Option Ticket :=
  r.waiting.find? fun e =>
    p e.task && r.waiting.all fun f => !p f.task || f.number == e.number || decide (e.Before f)

/-- The room without that ticket. -/
def without (r : WaitingRoom) (p : Task → Bool) : WaitingRoom :=
  match r.first p with
  | some e => { r with waiting := r.waiting.filter (·.number != e.number) }
  | none => r

end WaitingRoom

namespace GroupQueue

/-- The record of a task that the queue puts among those that wait in an operation. -/
def inserted (q : GroupQueue) : QueueOp → Option Task
  | .enqueue t => match q.enqueue t with
    | .ok _ => some { t with status := .pending }
    | .error _ => none
  | .complete id outcome now => match q.complete id outcome now, q.running, outcome with
    | .ok (.retrying _, _), some u, .failed f =>
      some { q.requeued { u with lastError := some f.error } now with status := .pending }
    | _, _, _ => none
  | _ => none

end GroupQueue

/-- A queue and the tickets of the tasks that wait in it. -/
structure NumberedQueue where
  queue : GroupQueue
  /-- The tickets. -/
  room : WaitingRoom := {}

namespace NumberedQueue

/-- The tickets after an operation of the queue. -/
def roomAfter (n : NumberedQueue) : QueueOp → WaitingRoom
  | .dequeue now => if n.queue.enabled && n.queue.running.isNone then n.room.without (·.isDue now)
    else n.room
  | .cancel id _ => n.room.without (·.id == id)
  | .cancelAll _ => { n.room with waiting := [] }
  | op => match n.queue.inserted op with
    | some t => n.room.enter t
    | none => n.room

/-- The queue and the tickets after an operation. -/
def after (n : NumberedQueue) (op : QueueOp) : NumberedQueue := ⟨n.queue.after op, n.roomAfter op⟩

/-- The queue and the tickets after some operations. -/
def run (n : NumberedQueue) (ops : List QueueOp) : NumberedQueue := ops.foldl after n

/-- The tickets of the room, lined up in the order of service, are the pending tasks of the queue. -/
structure Lined (n : NumberedQueue) (line : List Ticket) : Prop where
  /-- The tickets that are lined up are those of the room. -/
  same : line.Perm n.room.waiting
  /-- They are in the order of service. -/
  sorted : line.Pairwise Ticket.Before
  /-- The pending tasks of the queue are in that order. -/
  pending : n.queue.pending = line.map (·.task)
  /-- The numbers rise in the order in which the tickets were taken. -/
  numbers : n.room.waiting.Pairwise (·.number < ·.number)
  /-- Only numbers of tickets that were taken occur. -/
  issued : ∀ e ∈ n.room.waiting, e.number < n.room.issued
  waits : ∀ e ∈ line, e.task.status = .pending

end NumberedQueue

/-! ### The first ticket -/

namespace WaitingRoom

variable {r : WaitingRoom} {p : Task → Bool}

/-- Tickets of a room with the same number are the same. -/
theorem eq_of_number_eq (h : r.waiting.Pairwise (·.number < ·.number)) {e f : Ticket}
    (h_e : e ∈ r.waiting) (h_f : f ∈ r.waiting) (h_eq : e.number = f.number) : e = f := by
  have h_nodup : (r.waiting.map (·.number)).Nodup :=
    (List.pairwise_map.mpr h).imp fun h => Nat.ne_of_lt h
  exact List.inj_on_of_nodup_map h_nodup h_e h_f h_eq

theorem first_eq_some (h : r.waiting.Pairwise (·.number < ·.number)) {e : Ticket}
    (h_mem : e ∈ r.waiting) (h_p : p e.task = true)
    (h_first : ∀ f ∈ r.waiting, p f.task = true → f ≠ e → e.Before f) : r.first p = some e := by
  have h_good : (p e.task && r.waiting.all fun f =>
      !p f.task || f.number == e.number || decide (e.Before f)) = true := by
    rw [h_p, Bool.true_and, List.all_eq_true]
    intro f h_f
    by_cases h_pf : p f.task = true
    · by_cases h_ne : f = e
      · simp [h_ne]
      · simp [h_first f h_f h_pf h_ne]
    · simp [h_pf]
  cases h_find : r.first p with
  | none => exact absurd h_good (List.find?_eq_none.mp h_find e h_mem)
  | some g =>
    -- two tickets cannot both go before all others
    have h_g := List.find?_some h_find
    have h_gmem := List.mem_of_find?_eq_some h_find
    simp only [Bool.and_eq_true, List.all_eq_true] at h_g
    by_cases h_ne : g = e
    · rw [h_ne]
    · have h_before := h_first g h_gmem h_g.1 h_ne
      have h_back := h_g.2 e h_mem
      have h_num : e.number ≠ g.number := fun h_eq => h_ne (eq_of_number_eq h h_gmem h_mem h_eq.symm)
      simp only [h_p, Bool.not_true, Bool.false_or, Bool.or_eq_true, beq_iff_eq, h_num, false_or,
        decide_eq_true_eq] at h_back
      exact absurd h_back h_before.asymm

theorem first_eq_none (h : ∀ e ∈ r.waiting, p e.task = false) : r.first p = none := by
  refine List.find?_eq_none.mpr fun e h_e => ?_
  rw [h e h_e]
  simp

end WaitingRoom

/-! ### One operation -/

namespace NumberedQueue.Lined

variable {n : NumberedQueue} {line : List Ticket} {q' : GroupQueue}

/-- A queue without tasks, and a room without tickets. -/
theorem create (id name : String) (limit : ℕ) (policy : RetryPolicy) :
    Lined ⟨.create id name limit policy, {}⟩ [] where
  same := List.Perm.refl _
  sorted := List.Pairwise.nil
  pending := rfl
  numbers := List.Pairwise.nil
  issued := fun _ h => absurd h List.not_mem_nil
  waits := fun _ h => absurd h List.not_mem_nil

/-- Only the pending tasks of the queue matter. -/
theorem frame (h : Lined n line) (h_pending : q'.pending = n.queue.pending) :
    Lined ⟨q', n.room⟩ line :=
  ⟨h.same, h.sorted, h_pending.trans h.pending, h.numbers, h.issued, h.waits⟩

/-- A task that is queued is lined up behind those of its own or a higher priority. -/
theorem enter (h : Lined n line) {t : Task} (h_status : t.status = .pending)
    (h_pending : q'.pending = GroupQueue.insertByPriority t n.queue.pending) :
    ∃ line', Lined ⟨q', n.room.enter t⟩ line' := by
  obtain ⟨p₁, p₂, h_split, h_ins, h_front, h_back⟩ :=
    GroupQueue.insertByPriority_split t n.queue.pending
  rw [h.pending] at h_split
  obtain ⟨l₁, l₂, rfl, rfl, rfl⟩ := List.map_eq_append_iff.mp h_split
  have h_new : ∀ e ∈ l₁ ++ l₂, e.number < n.room.issued := fun e h_e => h.issued e (h.same.mem_iff.mp h_e)
  have h_sorted := List.pairwise_append.mp h.sorted
  -- the order makes all priorities behind the place as low as the first one there
  have h_low : ∀ f ∈ l₂, f.task.priority < t.priority := by
    cases l₂ with
    | nil => exact fun _ h => absurd h List.not_mem_nil
    | cons f₀ l₂ =>
      have h_head : f₀.task.priority < t.priority := h_back f₀.task rfl
      intro f h_f
      rcases List.mem_cons.mp h_f with rfl | h_f
      · exact h_head
      · have h_before := (List.pairwise_cons.mp h_sorted.2.1).1 f h_f
        unfold Ticket.Before at h_before
        omega
  refine ⟨l₁ ++ ⟨n.room.issued, t⟩ :: l₂, ?_, ?_, ?_, ?_, ?_, ?_⟩
  · exact List.perm_middle.trans ((h.same.cons _).trans (List.perm_append_singleton _ _).symm)
  · refine List.pairwise_append.mpr ⟨h_sorted.1, List.pairwise_cons.mpr ⟨fun f h_f => ?_,
      h_sorted.2.1⟩, fun e h_e f h_f => ?_⟩
    · exact .inl (h_low f h_f)
    · rcases List.mem_cons.mp h_f with rfl | h_f
      · -- a ticket of the same priority in front of the new one has a smaller number
        have h_high := h_front e.task (List.mem_map_of_mem h_e)
        rcases Int.lt_or_eq_of_le h_high with h_lt | h_eq
        · exact .inl h_lt
        · exact .inr ⟨h_eq.symm, h_new e (List.mem_append_left _ h_e)⟩
      · exact h_sorted.2.2 e h_e f h_f
  · simp [h_pending, h_ins]
  · refine List.pairwise_append.mpr ⟨h.numbers, List.pairwise_singleton _ _, fun e h_e f h_f => ?_⟩
    rw [List.mem_singleton.mp h_f]
    exact h.issued e h_e
  · intro e h_e
    rcases List.mem_append.mp h_e with h_e | h_e
    · exact Nat.lt_succ_of_lt (h.issued e h_e)
    · rw [List.mem_singleton.mp h_e]
      exact Nat.lt_succ_self _
  · intro e h_e
    rcases List.mem_append.mp h_e with h_e | h_e
    · exact h.waits e (List.mem_append_left _ h_e)
    · rcases List.mem_cons.mp h_e with rfl | h_e
      · exact h_status
      · exact h.waits e (List.mem_append_right _ h_e)

/-- The first of the lined up tickets whose tasks have a property goes before all others of them. -/
theorem before_of_split {p : Task → Bool} {l₁ l₂ : List Ticket} {e : Ticket}
    (h : Lined n (l₁ ++ e :: l₂)) (h_skip : ∀ x ∈ l₁, p x.task = false) {f : Ticket}
    (h_f : f ∈ l₁ ++ e :: l₂) (h_p : p f.task = true) (h_ne : f ≠ e) : e.Before f := by
  rcases List.mem_append.mp h_f with h_f | h_f
  · exact absurd h_p (by simp [h_skip f h_f])
  · rcases List.mem_cons.mp h_f with rfl | h_f
    · exact absurd rfl h_ne
    · exact (List.pairwise_cons.mp (List.pairwise_append.mp h.sorted).2.1).1 f h_f

/-- The ticket that is taken is the first of those that are lined up and looked for, and the others
stay as they stood. -/
theorem without (h : Lined n line) (q' : GroupQueue) {p : Task → Bool} {p₁ p₂ : List Task} {u : Task}
    (h_split : n.queue.pending = p₁ ++ u :: p₂) (h_u : p u = true)
    (h_skip : ∀ x ∈ p₁, p x = false) (h_pending : q'.pending = p₁ ++ p₂) :
    ∃ l₁ e l₂, line = l₁ ++ e :: l₂ ∧ e.task = u ∧ p₁ = l₁.map (·.task) ∧ p₂ = l₂.map (·.task) ∧
      Lined ⟨q', n.room.without p⟩ (l₁ ++ l₂) := by
  rw [h.pending] at h_split
  obtain ⟨l₁, l₃, rfl, rfl, h_l₃⟩ := List.map_eq_append_iff.mp h_split
  obtain ⟨e, l₂, rfl, rfl, rfl⟩ := List.map_eq_cons_iff.mp h_l₃
  refine ⟨l₁, e, l₂, rfl, rfl, rfl, rfl, ?_⟩
  have h_passed : ∀ x ∈ l₁, p x.task = false := fun x hx => h_skip x.task (List.mem_map_of_mem hx)
  have h_first : n.room.first p = some e :=
    WaitingRoom.first_eq_some h.numbers (h.same.mem_iff.mp (by simp)) h_u fun f h_f h_p h_ne =>
      h.before_of_split h_passed (h.same.mem_iff.mpr h_f) h_p h_ne
  have h_room : n.room.without p = { n.room with waiting := n.room.waiting.filter (·.number != e.number) } := by
    rw [WaitingRoom.without, h_first]
  rw [h_room]
  have h_sub : (l₁ ++ l₂).Sublist (l₁ ++ e :: l₂) := (List.sublist_cons_self e l₂).append_left l₁
  -- no other ticket has the number of the one that is taken
  have h_nodup : ((l₁ ++ e :: l₂).map (·.number)).Nodup :=
    (h.same.map _).nodup_iff.mpr ((List.pairwise_map.mpr h.numbers).imp fun h => Nat.ne_of_lt h)
  have h_other : ∀ f ∈ l₁ ++ l₂, (f.number != e.number) = true := by
    intro f h_f
    rw [(List.perm_middle.map _).nodup_iff, List.map_cons, List.nodup_cons] at h_nodup
    exact bne_iff_ne.mpr fun h_eq => h_nodup.1 (h_eq ▸ List.mem_map_of_mem h_f)
  have h_filter : (l₁ ++ e :: l₂).filter (·.number != e.number) = l₁ ++ l₂ := by
    rw [List.filter_append, List.filter_cons_of_neg (by simp), ← List.filter_append,
      List.filter_eq_self.mpr h_other]
  exact
  { same := h_filter ▸ h.same.filter _
    sorted := h.sorted.sublist h_sub
    pending := by rw [h_pending, List.map_append]
    numbers := h.numbers.sublist List.filter_sublist
    issued := fun f h_f => h.issued f (List.mem_of_mem_filter h_f)
    waits := fun f h_f => h.waits f (h_sub.subset h_f) }

/-- A search that finds no task takes no ticket. -/
theorem without_none (h : Lined n line) {p : Task → Bool} (h_none : ∀ x ∈ n.queue.pending, p x = false) :
    n.room.without p = n.room := by
  have h_first : n.room.first p = none := WaitingRoom.first_eq_none fun e h_e => by
    refine h_none e.task ?_
    rw [h.pending]
    exact List.mem_map_of_mem (h.same.mem_iff.mpr h_e)
  rw [WaitingRoom.without, h_first]

theorem after_dequeue (h : Lined n line) (now : Instant) : ∃ line', Lined (n.after (.dequeue now)) line' := by
  simp only [NumberedQueue.after, GroupQueue.after, roomAfter]
  cases h_deq : n.queue.dequeue now with
  | none =>
    refine ⟨line, ?_⟩
    by_cases h_may : (n.queue.enabled && n.queue.running.isNone) = true
    · -- the queue may start a task and did not, so that none is due
      have h_none : ∀ x ∈ n.queue.pending, x.isDue now = false := by
        obtain ⟨h_on, h_idle⟩ : n.queue.enabled = true ∧ n.queue.running = none := by simpa using h_may
        obtain h_off | h_busy | h_none := GroupQueue.dequeue_eq_none_iff.mp h_deq
        · exact absurd h_on (by simp [h_off])
        · exact absurd h_idle h_busy
        · exact h_none
      rw [if_pos h_may, h.without_none h_none]
      exact h
    · rw [if_neg h_may]
      exact h
  | some r =>
    obtain ⟨t, q'⟩ := r
    obtain ⟨h_on, h_idle, p₁, u, p₂, h_split, h_due, h_skip, -, rfl⟩ :=
      GroupQueue.dequeue_eq_some_iff.mp h_deq
    rw [if_pos (by simp [h_on, h_idle])]
    obtain ⟨l₁, e, l₂, -, -, -, -, h_lined⟩ :=
      h.without { n.queue with pending := p₁ ++ p₂, running := some (u.started now) } h_split h_due
        h_skip rfl
    exact ⟨l₁ ++ l₂, h_lined⟩

theorem after_complete (h : Lined n line) (t : String) (outcome : TaskOutcome) (now : Instant) :
    ∃ line', Lined (n.after (.complete t outcome now)) line' := by
  simp only [NumberedQueue.after, GroupQueue.after, roomAfter, GroupQueue.inserted]
  cases h_com : n.queue.complete t outcome now with
  | error e => exact ⟨line, h⟩
  | ok r =>
    obtain ⟨d, q'⟩ := r
    obtain ⟨u, h_run, -, ⟨v, -, -, -, h_end, -, rfl⟩ | ⟨f, rfl, rfl, -, rfl⟩⟩ :=
      GroupQueue.complete_cases h_com
    · cases d with
      | retrying k => exact absurd h_end (by simp [Disposition.status, TaskStatus.isTerminal])
      | _ => exact ⟨line, h.frame rfl⟩
    · -- a task that is to be retried takes a new ticket
      rw [h_run]
      exact h.enter rfl rfl

theorem after_cancel (h : Lined n line) (t : String) (now : Instant) :
    ∃ line', Lined (n.after (.cancel t now)) line' := by
  simp only [NumberedQueue.after, GroupQueue.after, roomAfter]
  cases h_can : n.queue.cancel t now with
  | none =>
    have h_none : ∀ x ∈ n.queue.pending, (x.id == t) = false := by
      unfold GroupQueue.cancel at h_can
      split at h_can
      · exact absurd h_can (by simp)
      · next h_take => exact GroupQueue.takeFirst_eq_none_iff.mp h_take
    refine ⟨line, ?_⟩
    rw [h.without_none h_none]
    exact h
  | some r =>
    obtain ⟨o, q'⟩ := r
    obtain ⟨p₁, u, p₂, h_split, h_id, h_skip, -, rfl⟩ | ⟨h_none, u, -, -, -, -, rfl⟩ :=
      GroupQueue.cancel_cases h_can
    · obtain ⟨l₁, e, l₂, -, -, -, -, h_lined⟩ :=
        h.without (p := (·.id == t)) { n.queue with pending := p₁ ++ p₂ } h_split (by simp [h_id])
          (fun x hx => by simp [h_skip x hx]) rfl
      exact ⟨l₁ ++ l₂, h_lined.frame rfl⟩
    · -- the running task has no ticket any more
      refine ⟨line, ?_⟩
      rw [h.without_none fun x hx => by simp [h_none x hx]]
      exact h.frame rfl

/-- **One operation.** After it the tickets are again lined up as the queue keeps its tasks. -/
theorem after (h : Lined n line) (op : QueueOp) : ∃ line', Lined (n.after op) line' := by
  cases op with
  | enqueue t =>
    simp only [NumberedQueue.after, GroupQueue.after, roomAfter, GroupQueue.inserted]
    cases h_enq : n.queue.enqueue t with
    | error e => exact ⟨line, h⟩
    | ok q' =>
      obtain ⟨-, rfl⟩ := GroupQueue.enqueue_eq_ok_iff.mp h_enq
      exact h.enter rfl rfl
  | dequeue now => exact h.after_dequeue now
  | attach t run token =>
    -- only the running task is written, if any
    simp only [NumberedQueue.after, GroupQueue.after, roomAfter, GroupQueue.inserted]
    obtain ⟨u, -, -, h_att⟩ | ⟨-, h_att⟩ := GroupQueue.attach_cases n.queue t run token
    · exact ⟨line, h.frame (by rw [h_att])⟩
    · exact ⟨line, h.frame (by rw [h_att])⟩
  | complete t outcome now => exact h.after_complete t outcome now
  | cancel t now => exact h.after_cancel t now
  | cancelAll now =>
    simp only [NumberedQueue.after, GroupQueue.after, roomAfter, GroupQueue.cancelAll_snd]
    refine ⟨[], List.Perm.refl _, List.Pairwise.nil, ?_, List.Pairwise.nil,
      fun _ h => absurd h List.not_mem_nil, fun _ h => absurd h List.not_mem_nil⟩
    exact GroupQueue.archiveAll_pending _ _
  | setEnabled _ | setExceptionScript _ => exact ⟨line, h.frame rfl⟩

end NumberedQueue.Lined

/-! ### Runs -/

namespace NumberedQueue

/-- The tickets are lined up after any operations. -/
theorem Lined.run {n : NumberedQueue} {line : List Ticket} (h : Lined n line) (ops : List QueueOp) :
    ∃ line', Lined (n.run ops) line' := by
  induction ops generalizing n line with
  | nil => exact ⟨line, h⟩
  | cons op ops ih =>
    obtain ⟨line₁, h₁⟩ := h.after op
    exact ih h₁

/-- **Tasks are served by priority, and then in the order in which they were queued.** After any
operations of a queue that began empty, its pending tasks are those with tickets, in the order of
service. At every time it starts no task exactly if it is disabled, if a task is running or if no pending
task is ready; and otherwise it starts the ready one that goes before all other ready ones, and leaves the
rest as it stood. -/
theorem served_in_order (id name : String) (limit : ℕ) (policy : RetryPolicy) (ops : List QueueOp) :
    let n := (⟨.create id name limit policy, {}⟩ : NumberedQueue).run ops
    n.room.waiting.Pairwise (·.number < ·.number) ∧
      ∃ line : List Ticket, line.Perm n.room.waiting ∧ line.Pairwise Ticket.Before ∧
        n.queue.pending = line.map (·.task) ∧
        ∀ now,
          (n.queue.dequeue now = none ↔
            n.queue.enabled = false ∨ n.queue.running ≠ none ∨ ∀ e ∈ line, ¬ e.task.Ready now) ∧
          ∀ t q', n.queue.dequeue now = some (t, q') → ∃ l₁ e l₂, line = l₁ ++ e :: l₂ ∧
            e.task.Ready now ∧ (∀ f ∈ l₁ ++ l₂, f.task.Ready now → e.Before f) ∧
            t = e.task.started now ∧
            q' = { n.queue with pending := (l₁ ++ l₂).map (·.task), running := some t } := by
  intro n
  obtain ⟨line, h⟩ : ∃ line, Lined n line := (Lined.create id name limit policy).run ops
  have h_due : ∀ e ∈ line, ∀ now, e.task.isDue now = true ↔ e.task.Ready now :=
    fun e h_e now => Task.isDue_eq_true_iff (h.waits e h_e)
  refine ⟨h.numbers, line, h.same, h.sorted, h.pending, fun now => ⟨?_, fun t q' h_deq => ?_⟩⟩
  · -- a task that waits is pending, so that it is due exactly if it is ready
    rw [GroupQueue.dequeue_eq_none_iff, h.pending, List.forall_mem_map]
    refine or_congr_right (or_congr_right (forall₂_congr fun e h_e => ?_))
    rw [← h_due e h_e now, Bool.not_eq_true]
  · obtain ⟨-, -, p₁, u, p₂, h_split, h_u, h_skip, rfl, rfl⟩ := GroupQueue.dequeue_eq_some_iff.mp h_deq
    obtain ⟨l₁, e, l₂, rfl, rfl, rfl, rfl, -⟩ :=
      h.without { n.queue with pending := p₁ ++ p₂ } h_split h_u h_skip rfl
    refine ⟨l₁, e, l₂, rfl, (h_due e (by simp) now).mp h_u, fun f h_f h_ready => ?_, rfl, ?_⟩
    · rcases List.mem_append.mp h_f with h_f | h_f
      · -- in front of it nothing is ready
        have h_not := h_skip f.task (List.mem_map_of_mem h_f)
        rw [← h_due f (by simp [h_f]) now, h_not] at h_ready
        exact absurd h_ready Bool.false_ne_true
      · exact (List.pairwise_cons.mp (List.pairwise_append.mp h.sorted).2.1).1 f h_f
    · rw [List.map_append]

end NumberedQueue

end ScriptYard
