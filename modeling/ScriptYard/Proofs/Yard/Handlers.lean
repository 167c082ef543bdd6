import ScriptYard.Proofs.Yard.Cancellation

/-!
# Tasks that were queued for a stalled run

A task that is queued because a run stalled is marked as such (`Task.isExceptionHandler`), so that no run
of it names a script for the case that it stalls in turn. The mark has to survive all that the queue, the
scheduler and the runs do with the task: it waits, is given out and launched, and waits again if a run of it
failed. `Yard.Handled` says that a task is marked wherever it is. Every move keeps this
(`Yard.Handled.step`), and the submission of a marked task brings it about (`Yard.Handled.submitted`).

The mark is a part of what is asked for in a task (`Task.request`), of which nothing that happens to the task
changes anything in the records that queues keep (`GroupQueue.Change.request_origin`).
-/

namespace ScriptYard

/-- What is asked for in a task, whatever has happened to it since. -/
def Task.request (t : Task) : Task := { t.fresh t.id with scheduledAt := none }

theorem Task.id_of_request {t u : Task} (h : t.request = u.request) : t.id = u.id :=
  show t.request.id = u.request.id by rw [h]

theorem Task.handler_of_request {t u : Task} (h : t.request = u.request) :
    t.isExceptionHandler = u.isExceptionHandler :=
  show t.request.isExceptionHandler = u.request.isExceptionHandler by rw [h]

theorem Task.vars_of_request {t u : Task} (h : t.request = u.request) : t.vars = u.vars :=
  show t.request.vars = u.request.vars by rw [h]

namespace GroupQueue

/-- The queue still has to do with the task: it waits, or it is running. -/
def Holds (q : GroupQueue) (u : Task) : Prop := u ∈ q.pending ∨ q.running = some u

variable {q q' : GroupQueue} {op : QueueOp} {evs : List Event} {u : Task}

theorem Holds.mem_tasks (h : q.Holds u) : u ∈ q.tasks := by
  rcases h with h_wait | h_run
  · exact GroupQueue.mem_tasks.mpr (.inr (.inl h_wait))
  · exact GroupQueue.mem_tasks.mpr (.inl h_run)

/-- A task that a queue has to do with after an operation is one of before, or it was just queued. What is
asked for in it stays the same. -/
theorem Change.request_origin (h : q.Change op q' evs) (h_u : q'.Holds u) :
    (∃ v, q.Holds v ∧ v.request = u.request) ∨ ∃ v, op = .enqueue v ∧ v.request = u.request := by
  have h_same : q.Holds u → ∃ v, q.Holds v ∧ v.request = u.request := fun h_u => ⟨u, h_u, rfl⟩
  cases h with
  | nothing | enabled | scripted => exact .inl (h_same h_u)
  | queued v =>
    rcases h_u with h_u | h_u
    · rcases mem_insertByPriority.mp h_u with rfl | h_u
      · exact .inr ⟨v, rfl, rfl⟩
      · exact .inl (h_same (.inl h_u))
    · exact .inl (h_same (.inr h_u))
  | started now l₁ l₂ v h_idle h_pending =>
    rcases h_u with h_u | h_u
    · exact .inl (h_same (.inl (mem_pending_of_rest h_pending h_u)))
    · cases h_u
      exact .inl ⟨v, .inl (by simp [h_pending]), rfl⟩
  | attached v run token h_run =>
    rcases h_u with h_u | h_u
    · exact .inl (h_same (.inl h_u))
    · cases h_u
      exact .inl ⟨v, .inr h_run, rfl⟩
  | ended v w d outcome now h_run =>
    rcases h_u with h_u | h_u
    · exact .inl (h_same (.inl h_u))
    · cases h_u
  | retried v f now h_run h_req =>
    -- the next attempt is one at what was asked for at first
    rcases h_u with h_u | h_u
    · rcases mem_insertByPriority.mp h_u with rfl | h_u
      · exact .inl ⟨v, .inr h_run, rfl⟩
      · exact .inl (h_same (.inl h_u))
    · cases h_u
  | withdrawn l₁ l₂ v now h_pending =>
    rcases h_u with h_u | h_u
    · exact .inl (h_same (.inl (mem_pending_of_rest h_pending h_u)))
    · exact .inl (h_same (.inr h_u))
  | marked v now h_none h_run h_req =>
    rcases h_u with h_u | h_u
    · exact .inl (h_same (.inl h_u))
    · cases h_u
      exact .inl ⟨v, .inr h_run, rfl⟩
  | cleared now =>
    rcases h_u with h_u | h_u
    · rw [archiveAll_pending] at h_u
      exact absurd h_u List.not_mem_nil
    · obtain ⟨v, h_run, rfl⟩ := Option.map_eq_some_iff.mp h_u
      exact .inl ⟨v, .inr h_run, rfl⟩

end GroupQueue

namespace Yard

/-- What is true of a task for what is asked for in it stays true in a move, wherever a queue has to do with
it. -/
theorem Effect.forall_held {y y' : Yard} {evs : List Event} {t : String} {P : Task → Prop}
    (h : Effect y.engine y'.engine evs) (h_id : ∃ k < y.engine.issued, t = Engine.idText k)
    (h_request : ∀ {u v : Task}, u.request = v.request → P u → P v)
    (h_old : ∀ p q, y.engine.queueAt p = some q → ∀ u, q.Holds u → u.id = t → P u) :
    ∀ p q, y'.engine.queueAt p = some q → ∀ u, q.Holds u → u.id = t → P u := by
  refine h.forall_queues (P := fun q => ∀ u, q.Holds u → u.id = t → P u) h_id h_old ?_ ?_
  · -- a new queue has no tasks
    rintro id name limit policy u (h_u | h_u)
    · exact absurd h_u List.not_mem_nil
    · cases h_u
  · -- in a queue it goes from record to record, as no other task is queued under this id
    intro q op h_new h_q u h_u h_own
    obtain ⟨v, h_v, h_same⟩ | ⟨v, rfl, h_same⟩ := (q.change op).request_origin h_u
    · exact h_request h_same (h_q v h_v ((Task.id_of_request h_same).trans h_own))
    · exact absurd (List.mem_singleton.mpr ((Task.id_of_request h_same).trans h_own).symm) h_new

/-- The task was queued because a run stalled, and is marked as such wherever it is. -/
structure Handled (y : Yard) (t : String) : Prop where
  issued : ∃ k < y.engine.issued, t = Engine.idText k
  /-- The task is marked where it waits and where it is running. -/
  queues : ∀ p q, y.engine.queueAt p = some q → ∀ u, q.Holds u → u.id = t → u.isExceptionHandler = true
  /-- It is marked where it was given out and is not launched. -/
  handed : ∀ p u, (p, u) ∈ y.handed → u.id = t → u.isExceptionHandler = true
  /-- A run of it names no script for the case that it stalls. -/
  runs : ∀ r ∈ y.engine.runs, r.info.task = some t → r.info.exceptionScript = none

namespace Handled

variable {y : Yard} {t : String}

/-- **Every move keeps the mark.** -/
theorem step (h_t : y.Handled t) (h : y.Ordered) (m : Move) : (y.step m).Handled t := by
  obtain ⟨evs, -, h_issued, h_effect⟩ := h.effect m
  refine ⟨issued_mono h_t.issued h_issued, h_effect.forall_held h_t.issued (fun h_same h_mark => ?_) h_t.queues,
    ?_, ?_⟩
  · rw [← Task.handler_of_request h_same]
    exact h_mark
  · intro p u h_u h_id
    obtain h_u | ⟨q, v, now, h_at, h_v, rfl⟩ := y.handed_origin m h_u
    · exact h_t.handed p u h_u h_id
    · exact h_t.queues p q h_at v (.inl h_v) h_id
  · -- a run that is launched for the task is launched for a marked one
    intro r' h_r' h_task
    obtain ⟨r, h_r, h_on, -⟩ | ⟨-, -, -, h_none | ⟨p, u, h_u, h_own, h_script⟩⟩ :=
      (y.turn m).origin h h_r'
    · rw [h_on.info] at h_task ⊢
      exact h_t.runs r h_r h_task
    · rw [h_task] at h_none
      cases h_none
    · rw [h_task] at h_own
      exact h_script (h_t.handed p u h_u (Option.some.inj h_own).symm)

/-- **A marked task that is submitted** is marked wherever it is: its id is new. -/
theorem submitted (h : y.Ordered) (place : ℕ) {draft : Task} (h_mark : draft.isExceptionHandler = true) :
    (y.step (.submit place draft)).Handled (Engine.idText y.engine.issued) := by
  obtain ⟨books, h_books⟩ := h.books
  have h_none : ∀ p q, y.engine.queueAt p = some q → ∀ u, q.Holds u →
      u.id ≠ Engine.idText y.engine.issued :=
    fun p q h_at u h_u => ne_of_issued (h_books.id_issued h_at h_u.mem_tasks)
  refine ⟨⟨y.engine.issued, Nat.lt_succ_self _, rfl⟩, fun p q h_at u h_u h_id => ?_, fun p u h_u h_id => ?_,
    fun r' h_r' h_task => ?_⟩
  · simp only [Yard.step, Yard.submit, Yard.operate] at h_at
    split at h_at
    · next q₀ h_at₀ =>
      change (y.engine.setQueue place _).queueAt p = some q at h_at
      rw [Engine.queueAt_setQueue h_at₀, Function.update_apply] at h_at
      split at h_at
      · -- only the task that is submitted has this id
        cases h_at
        obtain ⟨v, h_v, h_same⟩ | ⟨v, h_op, h_same⟩ := (q₀.change _).request_origin h_u
        · exact absurd ((Task.id_of_request h_same).trans h_id) (h_none place q₀ h_at₀ v h_v)
        · cases h_op
          exact (Task.handler_of_request h_same).symm.trans h_mark
      · exact absurd h_id (h_none p q h_at u h_u)
    · exact absurd h_id (h_none p q h_at u h_u)
  · rw [handed_step y rfl] at h_u
    exact absurd h_id (ne_of_issued (h.handed_issued h_u))
  · -- no run of it was there before, and none is launched in this move
    obtain ⟨r, h_r, h_on, -⟩ | ⟨-, -, -, h_none | ⟨p, u, h_u, h_own, -⟩⟩ :=
      (y.turn (.submit place draft)).origin h h_r'
    · rw [h_on.info] at h_task
      exact absurd rfl (ne_of_issued (h.task_issued h_r h_task))
    · rw [h_task] at h_none
      cases h_none
    · rw [h_task] at h_own
      exact absurd (Option.some.inj h_own).symm (ne_of_issued (h.handed_issued h_u))

end Handled

end Yard

end ScriptYard
