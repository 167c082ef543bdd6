import ScriptYard.Proofs.Queue.Lives

/-!
# Waiting for the next attempt

A task that is to be retried waits under a time that is the delay of its backoff away. No dequeue gives out a task
before its time, and as long as all dequeues are before it, the task can only be cancelled (`GroupQueue.Waits.run`).

Two things can go wrong with the time itself. A delay of more milliseconds than 63 bits count is taken for none, and the
calendar may end before the time comes, where the engine breaks down (`GroupQueue.overruns`). `retried_task_waits_iff`
says that a retried task is held back (`GroupQueue.HeldBack`) exactly where neither happens.
-/

namespace ScriptYard

/-! ### Time -/

namespace Instant

theorem le_refl (t : Instant) : t ≤ t := .inr ⟨rfl, Nat.le_refl _⟩

theorem le_iff {s t : Instant} : s ≤ t ↔ s.secs < t.secs ∨ s.secs = t.secs ∧ s.nanos ≤ t.nanos := Iff.rfl

/-- Any time at all leads to a later instant. -/
theorem not_after_le {s : Span} (t : Instant) (h : 0 < s.nanos) : ¬t.after s ≤ t := by
  rw [le_iff]
  unfold after toNanos ofNanos
  -- the nanoseconds differ by the span, or are fewer than those of a leap second
  split
  · dsimp only
    omega
  · split
    · dsimp only
      omega
    · dsimp only
      omega

theorem after_ne {s : Span} (t : Instant) (h : 0 < s.nanos) : t.after s ≠ t :=
  fun h_same => t.not_after_le h (h_same.symm ▸ t.le_refl)

/-- On a clock whose seconds have at most a leap second more, no time leads to the same instant. -/
theorem after_zero (t : Instant) (h_clock : t.nanos < 2000000000) : t.after .zero = t := by
  have h_none : Span.zero.nanos = 0 := rfl
  unfold after toNanos ofNanos
  rw [h_none, Nat.add_zero, if_pos h_clock]
  split
  · have h_secs : (t.secs * 1000000000 + t.nanos + (0 : ℕ)) / 1000000000 = t.secs := by omega
    have h_nanos : ((t.secs * 1000000000 + t.nanos + (0 : ℕ)) % 1000000000).toNat = t.nanos := by omega
    rw [h_secs, h_nanos]
  · rfl

theorem after_zero_le (t : Instant) (h_clock : t.nanos < 2000000000) : t.after .zero ≤ t := by
  rw [t.after_zero h_clock]
  exact t.le_refl

end Instant

/-- The time of the next attempt is later by the delay exactly where the delay is kept. -/
theorem retryTime_eq_after_iff (now : Instant) (delay : Span) :
    retryTime now delay = now.after delay ↔ delay ≤ longestRetryDelay := by
  unfold retryTime
  split
  · next h => exact iff_of_true rfl h
  · next h =>
    have h_long : 0 < delay.nanos := (Nat.zero_le _).trans_lt (Nat.lt_of_not_le h)
    exact iff_of_false (now.after_ne h_long).symm h

/-- The operation is no dequeue from a time on. -/
def QueueOp.IsBefore (due : Instant) : QueueOp → Prop
  | .dequeue now => ¬due ≤ now
  | _ => True

namespace GroupQueue

variable {q q' : GroupQueue} {t : Task} {f : Failure} {now due : Instant} {attempt : ℕ} {id : String}

/-! ### The record that waits -/

/-- A failed run that is to be retried overruns the calendar exactly where the time of the attempt does. -/
theorem overruns_of_complete (h_run : q.running = some t)
    (h : q.complete t.id (.failed f) now = .ok (.retrying attempt, q')) :
    q.overruns t.id (.failed f) now = !(retryTime now (q.retryPolicy.backoff.delay attempt)).isOnCalendar := by
  obtain ⟨u, h_u, -, h_verdict, -⟩ := complete_verdict h
  obtain rfl : t = u := Option.some.inj (h_run.symm.trans h_u)
  unfold Task.verdict at h_verdict
  split at h_verdict
  · cases h_verdict
  · next h_wanted =>
    simp only at h_verdict
    split at h_verdict
    · next h_again =>
      cases h_verdict
      -- the only verdict that retries: both sides read the same time
      obtain ⟨h_left, h_allowed⟩ := Bool.and_eq_true_iff.mp h_again
      simp [overruns, h_run, h_wanted, h_left, h_allowed]
    · cases h_verdict

/-- A retried task stands among those that wait, under the time of the attempt. -/
theorem exists_retried (h_run : q.running = some t)
    (h : q.complete t.id (.failed f) now = .ok (.retrying attempt, q')) :
    ∃ x l₁ l₂, x.id = t.id ∧ x.status = .pending ∧ x.retryCount = attempt ∧
      x.scheduledAt = some (retryTime now (q.retryPolicy.backoff.delay attempt)) ∧
      q.pending = l₁ ++ l₂ ∧ q' = { q with running := none, pending := l₁ ++ x :: l₂ } := by
  obtain ⟨u, h_u, -, ⟨v, -, -, h_status, h_end, -⟩ | ⟨f', h_f, h_d, -, h_q'⟩⟩ := complete_cases h
  · exact absurd h_end (by simp [Disposition.status, TaskStatus.isTerminal])
  · obtain rfl : t = u := Option.some.inj (h_run.symm.trans h_u)
    cases h_f
    cases h_d
    let x : Task := { q.requeued { t with lastError := some f.error } now with status := .pending }
    obtain ⟨l₁, l₂, h_split, h_insert, -, -⟩ := insertByPriority_split x q.pending
    refine ⟨x, l₁, l₂, rfl, rfl, rfl, rfl, h_split, ?_⟩
    rw [← h_insert]
    exact h_q'

/-! ### Until then -/

/-- The task is not running, and waits for its time if it waits. -/
structure Waits (q : GroupQueue) (id : String) (due : Instant) : Prop where
  /-- Where it waits, it waits for this time. -/
  pending : ∀ u ∈ q.pending, u.id = id → u.scheduledAt = some due
  /-- It is not running. -/
  running : ∀ u ∈ q.running, u.id ≠ id

/-- What is given out is due. -/
theorem le_of_dequeue {time : Instant} {u : Task} (h : q.dequeue time = some (u, q')) :
    ∀ due ∈ u.scheduledAt, due ≤ time := by
  obtain ⟨-, -, _, v, _, -, h_due, -, rfl, -⟩ := dequeue_eq_some_iff.mp h
  intro due h_at
  have h_at : v.scheduledAt = some due := h_at
  simp only [Task.isDue, h_at, Bool.and_eq_true, decide_eq_true_eq] at h_due
  exact h_due.2

/-- A task that waits is not given out before its time. -/
theorem Waits.ne_of_dequeue (h : q.Waits id due) {time : Instant} (h_time : ¬due ≤ time) {u : Task}
    (h_deq : q.dequeue time = some (u, q')) : u.id ≠ id := by
  intro h_id
  obtain ⟨-, -, l₁, v, l₂, h_pending, -, -, rfl, -⟩ := dequeue_eq_some_iff.mp h_deq
  have h_at : v.scheduledAt = some due := h.pending v (by simp [h_pending]) h_id
  exact h_time (le_of_dequeue h_deq due h_at)

/-- **A task waits through every operation before its time**, unless another task is queued under its id. -/
theorem Waits.after (h : q.Waits id due) {op : QueueOp} (h_before : op.IsBefore due) (h_new : id ∉ op.offered) :
    (q.after op).Waits id due := by
  have h_change := q.change op
  generalize h_after : q.after op = q', q.tells op = evs at h_change
  cases h_change with
  | nothing | enabled | scripted => exact ⟨h.pending, h.running⟩
  -- a new entry of the id would have no such time; `h_new` excludes it
  | queued u =>
    refine ⟨fun v h_v h_id => ?_, h.running⟩
    rcases mem_insertByPriority.mp h_v with rfl | h_v
    · exact absurd (List.mem_singleton.mpr h_id.symm) h_new
    · exact h.pending v h_v h_id
  -- the one place where time enters: `dequeue` gave out a task that was due, so not this one
  | started now l₁ l₂ u h_idle h_pending =>
    refine ⟨fun v h_v h_id => h.pending v ?_ h_id, ?_⟩
    · exact mem_pending_of_rest h_pending h_v
    · intro v h_v
      cases h_v
      simp only [GroupQueue.after] at h_after
      split at h_after
      · next y q'' h_deq =>
        obtain ⟨-, -, _, w, _, -, -, -, h_y, h_q''⟩ := dequeue_eq_some_iff.mp h_deq
        have h_run : some (w.started now) = some (u.started now) := by
          simpa [h_q''] using congrArg GroupQueue.running h_after
        rw [← Option.some.inj h_run, ← h_y]
        exact h.ne_of_dequeue h_before h_deq
      · rw [h_after] at h_idle
        cases h_idle
  | attached u run token h_run =>
    refine ⟨h.pending, fun v h_v => ?_⟩
    cases h_v
    exact h.running u h_run
  | ended u v d outcome now h_run => exact ⟨h.pending, fun _ h_v => absurd h_v (Option.not_mem_none _)⟩
  -- the running task goes back with a time of its own; `h.running` says it is another
  | retried u f now h_run =>
    refine ⟨fun v h_v h_id => ?_, fun _ h_v => absurd h_v (Option.not_mem_none _)⟩
    rcases mem_insertByPriority.mp h_v with rfl | h_v
    · have h_same : u.id = id := h_id
      exact absurd h_same (h.running u h_run)
    · exact h.pending v h_v h_id
  | withdrawn l₁ l₂ u now h_pending =>
    refine ⟨fun v h_v h_id => h.pending v ?_ h_id, h.running⟩
    exact mem_pending_of_rest h_pending h_v
  | marked u now h_none h_run =>
    refine ⟨h.pending, fun v h_v => ?_⟩
    cases h_v
    exact h.running u h_run
  | cleared now =>
    refine ⟨fun v h_v => ?_, fun v h_v => ?_⟩
    · rw [archiveAll_pending] at h_v
      exact absurd h_v List.not_mem_nil
    · obtain ⟨u, h_run, rfl⟩ := Option.map_eq_some_iff.mp h_v
      exact h.running u h_run

/-- So it does through a run of such operations. -/
theorem Waits.run (h : q.Waits id due) {ops : List QueueOp} (h_before : ∀ op ∈ ops, op.IsBefore due)
    (h_new : id ∉ offeredIds ops) : (q.run ops).Waits id due := by
  induction ops generalizing q with
  | nil => exact h
  | cons op ops ih =>
    obtain ⟨h_op, h_ops⟩ := List.forall_mem_cons.mp h_before
    have h_after := h.after h_op fun h_mem => h_new (List.mem_append_left _ h_mem)
    exact ih h_after h_ops fun h_mem => h_new (List.mem_append_right _ h_mem)

/-! ### Held back until the time of the attempt -/

/-- What is to become of a task that is queued again: the end of its run has an answer, the task is what the queue has
more than before, it waits for a time, and it is not given out before. -/
structure HeldBack (q q' : GroupQueue) (outcome : TaskOutcome) (now due : Instant) (x : Task) : Prop where
  /-- The engine does not break down. -/
  answered : q.overruns x.id outcome now = false
  /-- The task waits. -/
  queued : q'.pending.Perm (x :: q.pending)
  /-- It may be started again. -/
  status : x.status = .pending
  /-- It waits for the time. -/
  scheduled : x.scheduledAt = some due
  /-- An earlier dequeue passes it over. -/
  passed : ∀ time, ¬due ≤ time → ∀ u q'', q'.dequeue time = some (u, q'') → x ∈ q''.pending
  /-- No earlier dequeue gives out a task of its id, after whatever operations that give none out later or queue
  another task of this id. -/
  kept : (∀ u ∈ q.pending, u.id ≠ x.id) → ∀ ops, (∀ op ∈ ops, op.IsBefore due) → x.id ∉ offeredIds ops →
    ∀ time, ¬due ≤ time → ∀ u q'', (q'.run ops).dequeue time = some (u, q'') → u.id ≠ x.id

/-- What a list has more than another one is one element. -/
theorem eq_of_perm_cons {x y : Task} {l l' : List Task} (h : l.Perm (x :: l')) (h' : l.Perm (y :: l')) : x = y := by
  classical
  have h_count := (h.symm.trans h').count_eq x
  rw [List.count_cons_self, List.count_cons] at h_count
  by_contra h_ne
  rw [if_neg (by simpa using Ne.symm h_ne)] at h_count
  omega

/-- A dequeue before the time of a task that waits leaves it waiting. -/
theorem mem_pending_of_dequeue {x u : Task} {q'' : GroupQueue} {time : Instant} (h : x ∈ q.pending)
    (h_at : x.scheduledAt = some due) (h_time : ¬due ≤ time) (h_deq : q.dequeue time = some (u, q'')) :
    x ∈ q''.pending := by
  obtain ⟨-, -, l₁, v, l₂, h_pending, -, -, h_u, rfl⟩ := dequeue_eq_some_iff.mp h_deq
  have h_ne : x ≠ v := by
    rintro rfl
    exact h_time (le_of_dequeue h_deq due (h_u ▸ h_at))
  rw [h_pending] at h
  rcases List.mem_append.mp h with h | h
  · exact List.mem_append_left _ h
  · exact List.mem_append_right _ ((List.mem_cons.mp h).resolve_left h_ne)

/-- **A retried task waits out its backoff exactly if the delay is kept and the calendar reaches so far.** A delay
beyond `longestRetryDelay` is no delay: the task is due again at once. -/
theorem retried_task_waits_iff (q q' : GroupQueue) (t : Task) (f : Failure) (now : Instant) (attempt : ℕ)
    (h_run : q.running = some t) (h : q.complete t.id (.failed f) now = .ok (.retrying attempt, q')) :
    let delay := q.retryPolicy.backoff.delay attempt
    ((∃ x, x.id = t.id ∧ q.HeldBack q' (.failed f) now (now.after delay) x) ↔
      delay ≤ longestRetryDelay ∧ (now.after delay).isOnCalendar = true) ∧
    (longestRetryDelay < delay → ∃ x, x.id = t.id ∧ q'.pending.Perm (x :: q.pending) ∧
      x.scheduledAt = some now ∧ x.isDue now = true) := by
  intro delay
  obtain ⟨x, l₁, l₂, h_id, h_status, -, h_at, h_split, rfl⟩ := exists_retried h_run h
  have h_queued : (l₁ ++ x :: l₂).Perm (x :: q.pending) := h_split ▸ List.perm_middle
  have h_overruns := overruns_of_complete h_run h
  refine ⟨⟨?_, ?_⟩, ?_⟩
  · rintro ⟨y, h_y, held⟩
    -- the queue got one entry more, so the task held back is the one put in
    obtain rfl : x = y := eq_of_perm_cons h_queued held.queued
    have h_kept : retryTime now delay = now.after delay :=
      Option.some.inj (h_at.symm.trans held.scheduled)
    refine ⟨(retryTime_eq_after_iff now delay).mp h_kept, ?_⟩
    have h_answered := held.answered
    rw [h_y, h_overruns, Bool.not_eq_false'] at h_answered
    rwa [← h_kept]
  · rintro ⟨h_delay, h_calendar⟩
    have h_kept := (retryTime_eq_after_iff now delay).mpr h_delay
    rw [h_kept] at h_at
    refine ⟨x, h_id, ?_, h_queued, h_status, h_at, ?_, ?_⟩
    · rw [h_id, h_overruns, h_kept, h_calendar]
      rfl
    · exact fun time h_time u q'' h_deq => mem_pending_of_dequeue (by simp) h_at h_time h_deq
    · intro h_only ops h_before h_new time h_time u q'' h_deq
      -- the wait begins with the queue as the failed run left it
      refine Waits.ne_of_dequeue (Waits.run ⟨fun v h_v h_v_id => ?_, ?_⟩ h_before h_new) h_time h_deq
      · rcases List.mem_cons.mp (h_queued.subset h_v) with rfl | h_v
        · exact h_at
        · exact absurd h_v_id (h_only v h_v)
      · exact fun _ h_v => absurd h_v (Option.not_mem_none _)
  · -- beyond the longest delay the retry time falls back to `now`
    intro h_long
    have h_now : retryTime now delay = now := if_neg (Nat.not_le_of_lt h_long)
    rw [h_now] at h_at
    refine ⟨x, h_id, h_queued, h_at, ?_⟩
    simp [Task.isDue, h_status, h_at, now.le_refl]

/-- A task that was started at the beginning of 1970. -/
def oldTask : Task :=
  { id := "t", group := "g", script := "s", createdAt := .ofMillis 0, status := .running,
    startedAt := some (.ofMillis 0) }

/-- A queue in which the task is running, and is retried after a delay. -/
def delayed (delay : Span) : GroupQueue :=
  { id := "g", name := "", running := some oldTask, retryPolicy := { backoff := .fixed delay } }

/-- After a failed run the task waits for half a minute. -/
theorem half_a_minute_is_waited_out : ∃ q' x,
    (delayed (.ofSecs 30)).complete "t" (.failed ⟨"x", .transient⟩) (.ofMillis 10) = .ok (.retrying 1, q') ∧
      x.id = "t" ∧
      (delayed (.ofSecs 30)).HeldBack q' (.failed ⟨"x", .transient⟩) (.ofMillis 10) (.ofMillis 30010) x := by
  have h_waits := (retried_task_waits_iff (delayed (.ofSecs 30)) _ oldTask ⟨"x", .transient⟩ (.ofMillis 10) 1 rfl rfl).1
  obtain ⟨x, h_id, h_held⟩ := h_waits.mpr (by decide)
  exact ⟨_, x, rfl, h_id, h_held⟩

/-- With a delay of three hundred million years the task is given out again at once, and with one of three hundred
thousand years the engine breaks down. -/
theorem ages_are_not_waited_out :
    (∃ q' u q'', (delayed (.ofSecs 9467280000000000)).complete "t" (.failed ⟨"x", .transient⟩) (.ofMillis 10) =
        .ok (.retrying 1, q') ∧
      q'.dequeue (.ofMillis 10) = some (u, q'') ∧ u.id = "t" ∧
      ¬(Instant.ofMillis 10).after (.ofSecs 9467280000000000) ≤ .ofMillis 10) ∧
    (delayed (.ofSecs 9467280000000)).overruns "t" (.failed ⟨"x", .transient⟩) (.ofMillis 10) = true :=
  ⟨⟨_, _, _, rfl, rfl, rfl, by decide⟩, by decide⟩

end GroupQueue

end ScriptYard
