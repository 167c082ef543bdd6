import Mathlib.Algebra.GroupWithZero.Nat
import ScriptYard.Proofs.Queue.Backoff
import ScriptYard.Proofs.Queue.Records

/-!
# Draining a queue

A `GroupQueue.round` is one turn of a worker that stays at one point in time: the queue gives out a task, the
task is run, and the queue is told how the run ended. A failed task goes back among those that wait, possibly
in front of the others, so that their number need not fall from round to round. What falls is the number of
starts that all of them have left together (`GroupQueue.budget`): the end of a task takes away all that it had
left, and a retry takes one.

Without a delay a retried task is due again at the time of its failure, so that nothing that waits ever holds
the queue up. `GroupQueue.Draining` keeps this over the rounds (`Draining.round`), and
`GroupQueue.drains_within_budget` counts them.
-/

namespace ScriptYard

/-- How often a task that waits may still be started. -/
def Task.startsLeft (u : Task) : ℕ := u.maxRetries - u.retryCount + 1

namespace GroupQueue

/-- How often the tasks that wait may still be started, all together. -/
def budget (q : GroupQueue) : ℕ := (q.pending.map (·.startsLeft)).sum

/-- A task is given out, and its run ends at once in this way: the id of the task with what became of it, and
the queue afterwards. There is nothing if no task is given out, if the end is not accepted, or if the engine
breaks down. -/
def round (q : GroupQueue) (now : Instant) (outcome : TaskOutcome) : Option ((String × Disposition) × GroupQueue) :=
  match q.dequeue now with
  | none => none
  | some (t, q₁) =>
    if q₁.overruns t.id outcome now then none
    else match q₁.complete t.id outcome now with
      | .ok (d, q₂) => some ((t.id, d), q₂)
      | .error _ => none

/-- Rounds one behind the other, with the outcomes of their runs. -/
def rounds (q : GroupQueue) (now : Instant) : List TaskOutcome → Option (List (String × Disposition) × GroupQueue)
  | [] => some ([], q)
  | outcome :: outcomes =>
    (q.round now outcome).bind fun (answer, q₁) =>
      (q₁.rounds now outcomes).map fun (answers, q₂) => (answer :: answers, q₂)

/-- The ids of the tasks that came to their end in some rounds. -/
def finished (answers : List (String × Disposition)) : List String :=
  (answers.filter (·.2.status.isTerminal)).map (·.1)

/-- A queue without backoff that may start any of its tasks. -/
structure Draining (q : GroupQueue) (now : Instant) : Prop where
  /-- Tasks are started. -/
  enabled : q.enabled = true
  idle : q.running = none
  /-- All that wait may be started. -/
  due : ∀ u ∈ q.pending, u.isDue now = true
  /-- They are of the group of the queue. -/
  group : ∀ u ∈ q.pending, u.group = q.id
  /-- Retries are not delayed. -/
  backoff : q.retryPolicy.backoff = .immediate

variable {q q' : GroupQueue} {now : Instant} {u : Task}

/-! ### No delay -/

theorem retryTime_immediate (h_clock : now.nanos < 2000000000) (attempt : ℕ) :
    retryTime now (Backoff.immediate.delay attempt) = now :=
  ((retryTime_eq_after_iff now .zero).mpr (Nat.zero_le _)).trans (now.after_zero h_clock)

/-- Without a delay the calendar does not end before an attempt. -/
theorem overruns_immediate (h_backoff : q.retryPolicy.backoff = .immediate) (h_clock : now.nanos < 2000000000)
    (h_calendar : now.isOnCalendar = true) (id : String) (outcome : TaskOutcome) :
    q.overruns id outcome now = false := by
  unfold overruns
  split
  · rw [h_backoff, retryTime_immediate h_clock, h_calendar, Bool.not_true, Bool.and_false]
  · rfl

/-! ### Rounds -/

theorem finished_cons (answer : String × Disposition) (answers : List (String × Disposition)) :
    finished (answer :: answers) = finished [answer] ++ finished answers := by
  rw [finished, finished, finished, ← List.map_append, ← List.filter_append]
  rfl

theorem finished_end (id : String) {d : Disposition} (h_end : d.status.isTerminal = true) :
    finished [(id, d)] = [id] := by
  rw [finished, List.filter_cons_of_pos (by exact h_end)]
  rfl

theorem startsLeft_pos (u : Task) : 0 < u.startsLeft := Nat.succ_pos _

theorem budget_insertByPriority (x : Task) (l : List Task) :
    ((insertByPriority x l).map (·.startsLeft)).sum = x.startsLeft + (l.map (·.startsLeft)).sum := by
  rw [((insertByPriority_perm x l).map _).sum_nat, List.map_cons, List.sum_cons]

/-- **One round.** As long as a task waits there is a round. It takes from the budget, and either brings a task
to its end that is then the only one missing, or lets the same tasks wait as before. -/
theorem Draining.round (h : q.Draining now) (h_clock : now.nanos < 2000000000) (h_calendar : now.isOnCalendar = true)
    (h_waits : q.pending ≠ []) (outcome : TaskOutcome) :
    ∃ id d q', q.round now outcome = some ((id, d), q') ∧ q'.Draining now ∧ q'.budget < q.budget ∧
      (taskIds q.pending).Perm (finished [(id, d)] ++ taskIds q'.pending) := by
  obtain ⟨u, rest, h_pending⟩ := List.exists_cons_of_ne_nil h_waits
  have h_u : u ∈ q.pending := by simp [h_pending]
  have h_rest : ∀ x ∈ rest, x ∈ q.pending := fun x h_x => by simp [h_pending, h_x]
  let q₁ : GroupQueue := { q with pending := rest, running := some (u.started now) }
  have h_deq : q.dequeue now = some (u.started now, q₁) :=
    dequeue_eq_some_iff.mpr ⟨h.enabled, h.idle, [], u, rest, h_pending, h.due u h_u,
      fun _ h_x => absurd h_x List.not_mem_nil, rfl, rfl⟩
  obtain ⟨d, q₂, h_com⟩ := complete_isOk (q := q₁) rfl (h.group u h_u) outcome now
  have h_round : q.round now outcome = some ((u.id, d), q₂) := by
    have h_calm : q₁.overruns (u.started now).id outcome now = false :=
      overruns_immediate (q := q₁) h.backoff h_clock h_calendar _ _
    simp only [GroupQueue.round, h_deq, h_calm, h_com, Bool.false_eq_true, if_false]
    rfl
  have h_budget : q.budget = u.startsLeft + (rest.map (·.startsLeft)).sum := by
    rw [budget, h_pending, List.map_cons, List.sum_cons]
  refine ⟨u.id, d, q₂, h_round, ?_⟩
  obtain ⟨v, h_v, -, -, ⟨h_end, -, rfl⟩ | ⟨f, rfl, rfl, -, h_left, rfl⟩⟩ := complete_answer h_com
  · -- the task came to its end, and takes with it what it had left
    refine ⟨⟨h.enabled, rfl, fun x h_x => h.due x (h_rest x h_x), fun x h_x => h.group x (h_rest x h_x), h.backoff⟩,
      ?_, ?_⟩
    · rw [h_budget]
      exact Nat.lt_add_of_pos_left (startsLeft_pos u)
    · rw [h_pending, finished_end u.id h_end]
      exact List.Perm.refl _
  · -- the task waits again, due at once, with one start less
    obtain rfl : u.started now = v := Option.some.inj h_v
    let x : Task := { q₁.requeued { u.started now with lastError := some f.error } now with status := .pending }
    have h_x_due : x.isDue now = true := by
      have h_at : x.scheduledAt = some now := by
        refine congrArg some ?_
        rw [show q₁.retryPolicy.backoff = .immediate from h.backoff]
        exact retryTime_immediate h_clock _
      simp [Task.isDue, h_at, show x.status = .pending from rfl, now.le_refl]
    have h_x_left : x.startsLeft < u.startsLeft := by
      have h_less : u.retryCount < u.maxRetries := h_left
      change u.maxRetries - (u.retryCount + 1) + 1 < u.maxRetries - u.retryCount + 1
      omega
    refine ⟨⟨h.enabled, rfl, fun y h_y => ?_, fun y h_y => ?_, h.backoff⟩, ?_, ?_⟩
    · rcases mem_insertByPriority.mp h_y with rfl | h_y
      · exact h_x_due
      · exact h.due y (h_rest y h_y)
    · rcases mem_insertByPriority.mp h_y with rfl | h_y
      · exact h.group u h_u
      · exact h.group y (h_rest y h_y)
    · calc (insertByPriority x rest |>.map (·.startsLeft)).sum
          = x.startsLeft + (rest.map (·.startsLeft)).sum := budget_insertByPriority x rest
        _ < u.startsLeft + (rest.map (·.startsLeft)).sum := Nat.add_lt_add_right h_x_left _
        _ = q.budget := h_budget.symm
    · rw [h_pending]
      exact ((insertByPriority_perm x rest).map (·.id)).symm

/-- **All rounds.** A queue is empty after no more rounds than it has starts left. -/
theorem Draining.rounds (h_clock : now.nanos < 2000000000) (h_calendar : now.isOnCalendar = true) (most : ℕ) :
    ∀ {q : GroupQueue}, q.Draining now → q.budget ≤ most → ∀ outcomes : ℕ → TaskOutcome,
      ∃ n ≤ most, ∃ answers q', q.rounds now ((List.range n).map outcomes) = some (answers, q') ∧
        q'.Draining now ∧ q'.pending = [] ∧ (finished answers).Perm (taskIds q.pending) := by
  -- by the number of starts that are left; `Draining.round` makes it less in each round
  induction most with
  | zero =>
    intro q h h_budget outcomes
    have h_empty : q.pending = [] := by
      by_contra h_waits
      obtain ⟨_, _, _, -, -, h_less, -⟩ := h.round h_clock h_calendar h_waits (outcomes 0)
      omega
    exact ⟨0, Nat.le_refl 0, [], q, rfl, h, h_empty, by rw [h_empty]; exact List.Perm.refl _⟩
  | succ most ih =>
    intro q h h_budget outcomes
    by_cases h_empty : q.pending = []
    · exact ⟨0, Nat.zero_le _, [], q, rfl, h, h_empty, by rw [h_empty]; exact List.Perm.refl _⟩
    · -- one round here, the rest with the outcomes that come after the first
      obtain ⟨id, d, q₁, h_round, h₁, h_less, h_perm⟩ := h.round h_clock h_calendar h_empty (outcomes 0)
      obtain ⟨n, h_n, answers, q', h_rounds, h', h_pending, h_finished⟩ :=
        ih h₁ (by omega) fun k => outcomes (k + 1)
      refine ⟨n + 1, Nat.succ_le_succ h_n, (id, d) :: answers, q', ?_, h', h_pending, ?_⟩
      · rw [List.range_succ_eq_map, List.map_cons, List.map_map, GroupQueue.rounds, h_round, Option.bind_some]
        simp only [Function.comp_def, Nat.succ_eq_add_one, h_rounds, Option.map_some]
      · rw [finished_cons]
        exact (h_finished.append_left _).trans h_perm.symm

/-- A task that was never retried when it was queued is never retried more often than it may be. -/
theorem retryCount_le_of_run {id name : String} {limit : ℕ} {policy : RetryPolicy} {ops : List QueueOp}
    (distinct : (offeredIds ops).Nodup) (fresh : ∀ v, .enqueue v ∈ ops → v.retryCount = 0)
    (h_u : u ∈ ((create id name limit policy).run ops).tasks) : u.retryCount ≤ u.maxRetries := by
  obtain ⟨v, h_v, h_id⟩ := mem_offeredIds.mp (mem_offeredIds_of_tasks id name limit policy distinct h_u)
  have h_stage := stage_run id name limit policy distinct (fresh v h_v)
    fun w h_w h_same => eq_of_offered_once distinct h_w h_v h_same
  obtain ⟨h_most, h_count, -⟩ := record_run id name limit policy distinct h_stage h_u h_id.symm
  rw [h_most]
  exact h_count

/-- **Draining a queue terminates.** The queue began empty, its retries are not delayed, it was offered tasks
with ids of their own that were never retried before, it is enabled, no task is running, and all that wait are
due. Then, whatever the outcomes of the runs, rounds at that time follow one another until nothing is given out,
and there are at most so many as the tasks that wait have retries left, and one more for each task. After them
nothing waits and nothing runs, and every task that waited has come to its end, in one of the rounds. -/
theorem drains_within_budget (id name : String) (limit : ℕ) (policy : RetryPolicy) (ops : List QueueOp)
    (q : GroupQueue) (now : Instant) (outcomes : ℕ → TaskOutcome) (immediate : policy.backoff = .immediate)
    (distinct : (offeredIds ops).Nodup) (fresh : ∀ v, .enqueue v ∈ ops → v.retryCount = 0)
    (reached : q = (create id name limit policy).run ops) (enabled : q.enabled = true) (idle : q.running = none)
    (due : ∀ u ∈ q.pending, u.isDue now = true) (h_clock : now.nanos < 2000000000)
    (h_calendar : now.isOnCalendar = true) :
    (∀ u ∈ q.pending, u.retryCount ≤ u.maxRetries) ∧
      ∃ n ≤ (q.pending.map fun u => u.maxRetries - u.retryCount + 1).sum, ∃ answers q',
        q.rounds now ((List.range n).map outcomes) = some (answers, q') ∧ q'.dequeue now = none ∧
        q'.pending = [] ∧ q'.running = none ∧ (finished answers).Perm (taskIds q.pending) := by
  refine ⟨fun u h_u => ?_, ?_⟩
  · rw [reached] at h_u
    exact retryCount_le_of_run distinct fresh (mem_tasks.mpr (.inr (.inl h_u)))
  · -- the ledger knows that all tasks are of the group, so a retry is never refused
    obtain ⟨l, h_books, h_queue⟩ := exists_balanced id name limit policy distinct
    rw [← reached] at h_queue
    have h_group : ∀ u ∈ q.pending, u.group = q.id := by
      rw [← h_queue]
      exact fun u h_u => h_books.group u (mem_tasks.mpr (.inr (.inl h_u)))
    have h_backoff : q.retryPolicy.backoff = .immediate := by
      rw [reached, run_retryPolicy]
      exact immediate
    obtain ⟨n, h_n, answers, q', h_rounds, h', h_pending, h_finished⟩ :=
      Draining.rounds h_clock h_calendar q.budget ⟨enabled, idle, due, h_group, h_backoff⟩ (Nat.le_refl _) outcomes
    refine ⟨n, h_n, answers, q', h_rounds, ?_, h_pending, h'.idle, h_finished⟩
    exact dequeue_eq_none_iff.mpr (.inr (.inr fun x h_x => by simp [h_pending] at h_x))

/-- Two tasks wait, of which the second was queued again after a failure. -/
def oneRetried : List QueueOp :=
  [.enqueue { Ledger.plainTask "a" with maxRetries := 2 }, .dequeue ⟨0, 0⟩,
    .complete "a" (.failed ⟨"lost", .transient⟩) ⟨1, 0⟩,
    .enqueue { Ledger.plainTask "b" with maxRetries := 0, priority := 1 }]

/-- They are at their end after at most three rounds, of which every other one fails. -/
theorem one_retried_is_drained :
    let q := (create "g" "G" 1 {}).run oneRetried
    let outcomes : ℕ → TaskOutcome := fun k => if k % 2 = 1 then .succeeded .null else .failed ⟨"lost", .transient⟩
    taskIds q.pending = ["b", "a"] ∧ (q.pending.map fun u => u.maxRetries - u.retryCount + 1).sum = 3 ∧
      ∃ n ≤ 3, ∃ answers q', q.rounds ⟨2, 0⟩ ((List.range n).map outcomes) = some (answers, q') ∧
        q'.dequeue ⟨2, 0⟩ = none ∧ q'.pending = [] ∧ (finished answers).Perm ["b", "a"] := by
  intro q outcomes
  have h_fresh : ∀ v, .enqueue v ∈ oneRetried → v.retryCount = 0 := by
    intro v h_v
    simp only [oneRetried, List.mem_cons, QueueOp.enqueue.injEq, reduceCtorEq, List.not_mem_nil, or_false,
      false_or] at h_v
    obtain rfl | rfl := h_v <;> rfl
  have h_drains := drains_within_budget "g" "G" 1 {} oneRetried q ⟨2, 0⟩ outcomes rfl (by decide) h_fresh rfl rfl rfl
    (by decide) (by decide) (by decide)
  obtain ⟨n, h_n, answers, q', h_rounds, h_none, h_pending, -, h_finished⟩ := h_drains.2
  exact ⟨by decide, by decide, n, h_n, answers, q', h_rounds, h_none, h_pending, h_finished⟩

end GroupQueue

end ScriptYard
