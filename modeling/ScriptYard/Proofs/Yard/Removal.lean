import ScriptYard.Proofs.Yard.Cancellation
import ScriptYard.Proofs.Yard.Operations

/-!
# The removal of a group

A group that is removed is taken out of those that exist, and its tasks are cancelled; its queue stays for the
scheduler that may have looked it up before and for the run that is under way in it. Whatever these do, and
whatever happens elsewhere, four things are true from then on.

* The tasks that the queue kept are `Yard.Withdrawn`, those that waited and the running one, or `Yard.Gone`,
  those that waited and those that had come to their end. No event goes against that, so that none of them is
  started, is queued again or makes a call.
* No other queue ever keeps a task of one of these ids (`Yard.Confined`), and the group of the queue does not
  come back (`Engine.Unlisted`), so that nobody finds them by their ids (`Confined.unknown`).
* Nothing waits in the queue (`GroupQueue.Drained`), unless somebody who had looked it up before the removal
  submits a task to it afterwards. The operations of an engine do not: each looks its group up at once.
* All other queues, the catalog, and the runs of other groups are as they were (`Engine.IsLocalRemoval`).

`removal_is_complete_and_local` is all of this together.
-/

namespace ScriptYard

/-! ### Queues whose tasks were all cancelled -/

namespace GroupQueue

variable {q : GroupQueue} {op : QueueOp} {u : Task}

theorem pending_cancelAll (q : GroupQueue) (now : Instant) : (q.after (.cancelAll now)).pending = [] := by
  simp only [after, cancelAll_snd, archiveAll_pending]

theorem running_cancelAll (q : GroupQueue) (now : Instant) :
    (q.after (.cancelAll now)).running = q.running.map fun u => { u with cancelRequested := true } := by
  simp only [after, cancelAll_snd, flagged]

theorem marked_of_cancelAll {now : Instant} {v : Task} (h_v : v ∈ (q.after (.cancelAll now)).running) :
    ∃ w ∈ q.running, v = { w with cancelRequested := true } := by
  rw [running_cancelAll] at h_v
  obtain ⟨w, h_w, rfl⟩ := Option.map_eq_some_iff.mp h_v
  exact ⟨w, h_w, rfl⟩

/-- A task that waited or was running is withdrawn. -/
theorem withdrawn_cancelAll (h_once : (taskIds q.tasks).Nodup) (now : Instant)
    (h_u : u ∈ q.pending ∨ u ∈ q.running) : (q.after (.cancelAll now)).Withdrawn u.id where
  pending := by
    rw [pending_cancelAll]
    exact fun _ h => absurd h List.not_mem_nil
  running := by
    intro v h_v _
    obtain ⟨w, -, rfl⟩ := marked_of_cancelAll h_v
    rfl
  history := by
    intro v h_v h_id
    simp only [after, cancelAll_snd] at h_v
    rcases mem_archiveAll h_v with h_v | h_v
    · -- what was remembered before is no task that waited or was running
      obtain ⟨-, -, h_old⟩ := places_apart h_once
      obtain ⟨h_wait, h_busy⟩ := h_old v h_v
      exact absurd h_id.symm (h_u.elim (h_wait u) (h_busy u))
    · obtain ⟨w, -, rfl⟩ := List.mem_map.mp h_v
      rfl

/-- A task that waited or had come to its end is gone. -/
theorem gone_cancelAll (h_once : (taskIds q.tasks).Nodup) (now : Instant)
    (h_u : u ∈ q.pending ∨ u ∈ q.history) : (q.after (.cancelAll now)).Gone u.id where
  pending := by
    rw [pending_cancelAll]
    exact fun _ h => absurd h List.not_mem_nil
  running := by
    intro v h_v
    obtain ⟨w, h_w, rfl⟩ := marked_of_cancelAll h_v
    obtain ⟨-, h_busy, h_old⟩ := places_apart h_once
    exact h_u.elim (h_busy w h_w u) fun h_u => (h_old u h_u).2 w h_w

/-- The tasks that wait come to their end, and a token may be fired; nothing else happens. -/
theorem mem_tells_cancelAll {now : Instant} {ev : Event} (h : ev ∈ q.tells (.cancelAll now)) :
    (∃ u ∈ q.pending, ev = .ended u.id .cancelled) ∨ ∃ k, ev = .fired k := by
  simp only [tells] at h
  rcases List.mem_append.mp h with h | h
  · obtain ⟨i, h_i, rfl⟩ := List.mem_map.mp h
    obtain ⟨u, h_u, rfl⟩ := List.mem_map.mp h_i
    exact .inl ⟨u, h_u, rfl⟩
  · split at h
    · obtain ⟨k, -, rfl⟩ := List.mem_map.mp h
      exact .inr ⟨k, rfl⟩
    · exact absurd h List.not_mem_nil

theorem ended_mem_tells_cancelAll (now : Instant) (h_u : u ∈ q.pending) :
    .ended u.id .cancelled ∈ q.tells (.cancelAll now) :=
  List.mem_append_left _ (List.mem_map_of_mem (List.mem_map_of_mem h_u))

/-- Nothing waits, and the running task is not going to be queued again. -/
structure Drained (q : GroupQueue) : Prop where
  /-- Nothing waits. -/
  pending : q.pending = []
  /-- The running task is marked as one that is to be cancelled. -/
  running : ∀ u ∈ q.running, u.cancelRequested = true

theorem drained_cancelAll (q : GroupQueue) (now : Instant) : (q.after (.cancelAll now)).Drained where
  pending := pending_cancelAll q now
  running := by
    intro v h_v
    obtain ⟨w, -, rfl⟩ := marked_of_cancelAll h_v
    rfl

/-- What becomes of a queue when no task is offered to it. -/
inductive Unoffered (q : GroupQueue) : GroupQueue → Prop where
  /-- It stays as it is. -/
  | same : q.Unoffered q
  /-- It makes another operation. -/
  | after (op : QueueOp) (h_offer : op.offered = []) : q.Unoffered (q.after op)

/-- Where nothing is offered, nothing waits afterwards either. -/
theorem Drained.unoffered {q' : GroupQueue} (h : q.Drained) (h_change : q.Unoffered q') : q'.Drained := by
  cases h_change with
  | same => exact h
  | after op h_offer =>
    refine ⟨List.eq_nil_iff_forall_not_mem.mpr fun u h_u => ?_, fun u h_u => ?_⟩
    · rcases (q.change op).pending_origin h_u with h_u | ⟨v, rfl, -⟩ | ⟨-, v, h_v, -, h_req⟩
      · rw [h.pending] at h_u
        exact absurd h_u List.not_mem_nil
      · cases h_offer
      · -- a task that is marked is not retried
        rw [h.running v h_v] at h_req
        cases h_req
    · rcases (q.change op).running_origin h_u with ⟨v, h_v, -, h_keep⟩ | ⟨v, h_v, -⟩
      · exact h_keep (h.running v h_v)
      · rw [h.pending] at h_v
        exact absurd h_v List.not_mem_nil

end GroupQueue

namespace Yard

open Engine

variable {y y' : Yard} {p : ℕ} {q : GroupQueue} {t : String} {u : Task}

/-! ### Ids that are found at one place at most -/

/-- The id was issued, and no queue elsewhere keeps a task of it. -/
structure Confined (y : Yard) (p : ℕ) (t : String) : Prop where
  issued : ∃ k < y.engine.issued, t = idText k
  /-- Elsewhere there is no task of this id. -/
  elsewhere : ∀ p' q, y.engine.queueAt p' = some q → p' ≠ p → ∀ u ∈ q.tasks, u.id ≠ t

namespace Confined

/-- The id of a task is confined to the place of its queue. -/
theorem of_task (h : y.Ordered) (h_at : y.engine.queueAt p = some q) (h_u : u ∈ q.tasks) :
    y.Confined p u.id := by
  obtain ⟨books, h_books⟩ := h.books
  exact ⟨h_books.id_issued h_at h_u, fun p' q' h_at' h_ne => h.alone h_at h_u p' q' h_ne h_at'⟩

/-- It stays so: tasks do not go from one queue to another, and the ids of new tasks are new. -/
theorem step (h_t : y.Confined p t) (h : y.Ordered) (m : Move) : (y.step m).Confined p t := by
  obtain ⟨evs, -, h_issued, h_effect⟩ := h.effect m
  refine ⟨issued_mono h_t.issued h_issued, h_effect.forall_places h_t.issued h_t.elsewhere ?_ ?_⟩
  · exact fun _ _ _ _ _ _ u h_u => absurd h_u List.not_mem_nil
  · intro p' q op h_new h_old h_ne u h_u h_id
    rcases (q.change op).task_origin h_u with ⟨v, h_v, h_same⟩ | h_u
    · exact h_old h_ne v h_v (h_same.trans h_id)
    · exact h_new (h_id ▸ h_u)

theorem run (h_t : y.Confined p t) (h : y.Ordered) (moves : List Move) : (y.run moves).Confined p t := by
  induction moves generalizing y with
  | nil => exact h_t
  | cons m moves ih => exact ih (h_t.step h m) (h.step m)

/-- **Nobody finds a task** whose id is confined to the place of a group that was removed. -/
theorem unknown (h_t : y.Confined p t) (h_p : y.engine.Unlisted p) :
    y.engine.task t = .error (.taskNotFound t) ∧ ∀ now, y.engine.cancel t now = none := by
  -- the queue of a group that exists is at another place
  have h_absent : ∀ h ∈ y.engine.queues, h.listed = true → h.queue.find? t = none := by
    intro h h_mem h_listed
    obtain ⟨p', h_lt, h_get⟩ := List.getElem_of_mem h_mem
    have h_p' : y.engine.queues[p']? = some h := List.getElem?_eq_some_iff.mpr ⟨h_lt, h_get⟩
    refine GroupQueue.find?_eq_none_of_absent
      (h_t.elsewhere p' h.queue (queueAt_eq_some.mpr ⟨h, h_p', rfl⟩) ?_)
    rintro rfl
    obtain ⟨g, h_label⟩ := h_p
    simp [labels, h_p', h_listed] at h_label
  constructor
  · have h_none : y.engine.listedQueues.findSome? (·.find? t) = none := by
      refine List.findSome?_eq_none_iff.mpr fun q h_q => ?_
      obtain ⟨h, h_mem, rfl⟩ := List.mem_map.mp h_q
      obtain ⟨h_mem, h_listed⟩ := List.mem_filter.mp h_mem
      exact h_absent h h_mem h_listed
    unfold task
    rw [h_none]
  · intro now
    have h_none : y.engine.queues.findIdx? (fun h => h.listed && h.queue.contains t) = none := by
      refine List.findIdx?_eq_none_iff.mpr fun h h_mem => ?_
      cases h_listed : h.listed with
      | false => rfl
      | true => simp [GroupQueue.contains, h_absent h h_mem h_listed]
    unfold cancel
    rw [h_none]
    rfl

end Confined

/-! ### Queues to which nothing is submitted -/

theorem unoffered_update {e e' : Engine} {place : ℕ} {q' : GroupQueue} (op : QueueOp)
    (h_at : e.queueAt p = some q) (h_place : e.queueAt place = some q')
    (h_queues : e'.queueAt = Function.update e.queueAt place (some (q'.after op)))
    (h_offer : p = place → op.offered = []) : ∃ q₁, e'.queueAt p = some q₁ ∧ q.Unoffered q₁ := by
  rw [h_queues]
  by_cases h_eq : p = place
  · rw [← h_eq, h_at] at h_place
    cases h_place
    rw [h_eq, Function.update_self]
    exact ⟨_, rfl, .after op (h_offer h_eq)⟩
  · rw [Function.update_of_ne h_eq]
    exact ⟨q, h_at, .same⟩

theorem unoffered_operate {place : ℕ} {op : QueueOp} (h_at : y.engine.queueAt p = some q)
    (h_offer : p = place → op.offered = []) :
    ∃ q', (y.operate place op).engine.queueAt p = some q' ∧ q.Unoffered q' := by
  unfold operate
  split
  · next q' h_place => exact unoffered_update op h_at h_place (queueAt_setQueue h_place) h_offer
  · exact ⟨q, h_at, .same⟩

theorem queueAt_goOn (y : Yard) (run : ℕ) (f : EngineRun → Option (Process RunEnd × RunContext)) :
    (y.goOn run f).engine.queueAt = y.engine.queueAt := by
  unfold goOn
  split <;> rfl

/-- A queue is offered a task only by a move that submits one to it. -/
theorem unoffered_step (h_at : y.engine.queueAt p = some q) {m : Move} (h_submits : p ∉ m.submits?) :
    ∃ q', (y.step m).engine.queueAt p = some q' ∧ q.Unoffered q' := by
  cases m with
  | createGroup id name =>
    simp only [step]
    split
    · next e h_e =>
      -- the new queue is at a place that was free
      rw [createGroup_eq_ok h_e, queueAt_append, Function.update_of_ne]
      · exact ⟨q, h_at, .same⟩
      · rintro rfl
        rw [queueAt_length] at h_at
        cases h_at
    · exact ⟨q, h_at, .same⟩
  | unlist place =>
    simp only [step, queueAt_unlist]
    exact ⟨q, h_at, .same⟩
  | setEnabled | setExceptionScript | cancel | cancelAll => exact unoffered_operate h_at fun _ => rfl
  | submit place draft =>
    exact unoffered_operate (y := y) h_at fun h_eq => absurd (by rw [h_eq]; rfl) h_submits
  | handOut place now =>
    simp only [step, handOut]
    split
    · exact unoffered_operate (y := y) h_at fun _ => rfl
    · exact ⟨q, h_at, .same⟩
  | launch index c =>
    simp only [step, launch]
    split
    · next place t h_hand =>
      cases h_place : y.engine.queueAt place with
      | none =>
        have h_p : y.engine.queues[place]? = none := by simpa [queueAt] using h_place
        simp only [Engine.launch, h_p]
        exact ⟨q, h_at, .same⟩
      | some q' =>
        obtain ⟨r, -, -, -, -, -, -, -, h_launch⟩ := launch_spec h_place t c
        rw [h_launch]
        exact unoffered_update (.attach t.id (idText y.engine.issued) ⟨y.engine.issued⟩) h_at h_place
          (queueAt_setQueue h_place) fun _ => rfl
    · exact ⟨q, h_at, .same⟩
  | work | reply | wake =>
    refine ⟨q, ?_, .same⟩
    simp only [step, queueAt_goOn]
    exact h_at
  | finish run c =>
    simp only [step, finish]
    split
    · next report e h_fin =>
      obtain ⟨r, -, -, -, ⟨-, rfl⟩ | ⟨place, q', t, -, h_place, -, rfl⟩⟩ := finish_cases h_fin
      · exact ⟨q, h_at, .same⟩
      · exact unoffered_update (.complete t report.outcome c.time) h_at h_place
          (queueAt_setQueue (e := { y.engine with runs := y.engine.runs.filter (·.number != run) }) h_place)
          fun _ => rfl
    · exact ⟨q, h_at, .same⟩
  | openRun | begin | stop | catalog | switch => exact ⟨q, h_at, .same⟩

/-- **Nothing waits** in a queue again whose tasks were all cancelled, if none is submitted to it. -/
theorem drained_run (h_at : y.engine.queueAt p = some q) (h : q.Drained) {moves : List Move}
    (h_submits : ∀ m ∈ moves, p ∉ m.submits?) :
    ∃ q', (y.run moves).engine.queueAt p = some q' ∧ q'.Drained := by
  induction moves generalizing y q with
  | nil => exact ⟨q, h_at, h⟩
  | cons m moves ih =>
    obtain ⟨q', h_at', h_change⟩ := unoffered_step h_at (h_submits m List.mem_cons_self)
    exact ih h_at' (h.unoffered h_change) fun m' h_m' => h_submits m' (List.mem_cons_of_mem m h_m')

/-! ### What is true of the tasks of a queue -/

/-- Nothing happens to a task that came to its end, and no call is made for it. -/
theorem Gone.undefied (h_t : y.Gone t) (h : y.Ordered) {evs : List Event}
    (h_effect : Effect y.engine y'.engine evs) : ∀ ev ∈ evs, ¬ ev.Defies t := by
  intro ev h_ev h_defies
  have h_quiet := h_t.quiet h_effect ev h_ev
  cases ev with
  | granted i | queued i | started i => exact h_quiet (congrArg some h_defies)
  | ended i status => exact h_quiet (congrArg some h_defies.1)
  | fired k => exact h_defies
  -- a call is made for a task that is running, and this one is gone from all queues
  | called task request =>
    cases h_effect with
    | operated p q op h_at h_new h_queues => exact (q.change op).grounds h_ev
    | called r h_r h_awake request h_queues =>
      cases List.mem_singleton.mp h_ev
      cases h_task : r.info.task with
      | none =>
        rw [h_task] at h_defies
        exact h_defies
      | some i =>
        rw [h_task] at h_defies
        obtain rfl : i = t := h_defies
        exact h.not_gone_of_task h_r h_task h_t
    | created | quiet => exact absurd h_ev List.not_mem_nil

/-- **What was withdrawn or came to its end stays so** in every run, and no event goes against it. -/
theorem Ordered.exists_log_run (h : y.Ordered) (moves : List Move) :
    ∃ evs, (y.run moves).log = y.log ++ evs ∧
      (∀ t, y.Withdrawn t → (y.run moves).Withdrawn t ∧ ∀ ev ∈ evs, ¬ ev.Defies t) ∧
      ∀ t, y.Gone t → (y.run moves).Gone t ∧ ∀ ev ∈ evs, ¬ ev.Defies t := by
  induction moves generalizing y with
  | nil =>
    exact ⟨[], (List.append_nil _).symm, fun t h_t => ⟨h_t, fun _ h_ev => absurd h_ev List.not_mem_nil⟩,
      fun t h_t => ⟨h_t, fun _ h_ev => absurd h_ev List.not_mem_nil⟩⟩
  | cons m moves ih =>
    obtain ⟨evs, h_log, h_issued, h_effect⟩ := h.effect m
    obtain ⟨more, h_more, h_withdrawn, h_gone⟩ := ih (h.step m)
    -- the events of the first move, then those of the others
    refine ⟨evs ++ more, ?_, fun t h_t => ?_, fun t h_t => ?_⟩
    · rw [← List.append_assoc, ← h_log]
      exact h_more
    · obtain ⟨h_t', h_quiet⟩ := h_withdrawn t (h_t.step h_effect h_issued)
      exact ⟨h_t', List.forall_mem_append.mpr ⟨h_t.quiet h h_effect, h_quiet⟩⟩
    · obtain ⟨h_t', h_quiet⟩ := h_gone t (h_t.step h_effect h_issued)
      exact ⟨h_t', List.forall_mem_append.mpr ⟨h_t.undefied h h_effect, h_quiet⟩⟩

/-- What becomes of the tasks of a queue that are all cancelled: `y` is the yard in which this happens, and
`y'` is one in which anything else may have happened since. -/
structure Cleared (y y' : Yard) (p : ℕ) (q : GroupQueue) : Prop where
  /-- What happened since: no task of the queue was started or queued again, and no call was made for one;
  those that waited came to their end, and they and the running one to no end but as cancelled. -/
  news : ∃ evs, y'.log = y.log ++ evs ∧
    (∀ u ∈ q.tasks, .started u.id ∉ evs ∧ .queued u.id ∉ evs ∧ ∀ request, .called (some u.id) request ∉ evs) ∧
    (∀ u ∈ q.pending, .ended u.id .cancelled ∈ evs) ∧
    ∀ u, u ∈ q.pending ∨ u ∈ q.running → ∀ status, .ended u.id status ∈ evs → status = .cancelled
  /-- No task of the queue waits anywhere, and none but the running one is running, which is marked. -/
  queues : ∀ p' q', y'.engine.queueAt p' = some q' → ∀ u ∈ q.tasks, (∀ v ∈ q'.pending, v.id ≠ u.id) ∧
    ∀ v ∈ q'.running, v.id = u.id → u ∈ q.running ∧ v.cancelRequested = true
  /-- Where a task that waited or was running is remembered, it is cancelled. -/
  ends : ∀ p' q', y'.engine.queueAt p' = some q' → ∀ u, u ∈ q.pending ∨ u ∈ q.running →
    ∀ v ∈ q'.history, v.id = u.id → v.status = .cancelled
  /-- The token that the queue holds was fired. -/
  fired : ∀ u ∈ q.running, ∀ k ∈ u.token, .fired k ∈ y'.log
  /-- A run of the running task, if there is one by now, is cancelled, and its token was fired. -/
  stopped : ∀ u ∈ q.running, ∀ r ∈ y'.engine.runs, r.info.task = some u.id →
    r.context.cancelled = true ∧ .fired ⟨r.number⟩ ∈ y'.log

theorem step_cancelAll (h_at : y.engine.queueAt p = some q) (now : Instant) :
    (y.step (.cancelAll p now)).engine.queueAt =
        Function.update y.engine.queueAt p (some (q.after (.cancelAll now))) ∧
      (y.step (.cancelAll p now)).engine.issued = y.engine.issued ∧
      (y.step (.cancelAll p now)).log = y.log ++ q.tells (.cancelAll now) := by
  simp only [step, operate, h_at]
  exact ⟨queueAt_setQueue h_at, rfl, trivial⟩

namespace Ordered

/-- When all tasks of a queue are cancelled, those that waited and the running one are withdrawn, and those
that waited and those that had come to their end are gone. -/
theorem dismissed (h : y.Ordered) (h_at : y.engine.queueAt p = some q) (now : Instant) :
    (∀ u, u ∈ q.pending ∨ u ∈ q.running → (y.step (.cancelAll p now)).Withdrawn u.id) ∧
      ∀ u, u ∈ q.pending ∨ u ∈ q.history → (y.step (.cancelAll p now)).Gone u.id := by
  obtain ⟨books, h_books⟩ := h.books
  obtain ⟨h_queues, h_issued, -⟩ := step_cancelAll h_at now
  have h_once := h_books.nodup h_at
  constructor
  · intro u h_u
    have h_mem : u ∈ q.tasks := GroupQueue.mem_tasks.mpr (h_u.elim (fun h => .inr (.inl h)) .inl)
    exact ⟨h_issued ▸ h_books.id_issued h_at h_mem, h.forall_queues_of_task h_at h_mem h_queues
      (GroupQueue.withdrawn_cancelAll h_once now h_u) fun _ => GroupQueue.withdrawn_of_absent⟩
  · intro u h_u
    have h_mem : u ∈ q.tasks := GroupQueue.mem_tasks.mpr (.inr h_u)
    exact ⟨h_issued ▸ h_books.id_issued h_at h_mem, h.forall_queues_of_task h_at h_mem h_queues
      (GroupQueue.gone_cancelAll h_once now h_u) fun _ => GroupQueue.gone_of_absent⟩

/-- The token of the running task is fired with this, if the queue holds it. -/
theorem fired_cancelAll (h : y.Ordered) (h_at : y.engine.queueAt p = some q) (now : Instant)
    (h_u : u ∈ q.running) {k : CancelToken} (h_k : k ∈ u.token) :
    .fired k ∈ (y.step (.cancelAll p now)).log := by
  obtain ⟨h_queues, -, -⟩ := step_cancelAll h_at now
  have h_marked : (y.step (.cancelAll p now)).engine.RunsAt p { u with cancelRequested := true } := by
    refine (runsAt_update h_queues).mpr (.inl ⟨rfl, ?_⟩)
    rw [GroupQueue.running_cancelAll, Option.mem_def.mp h_u]
    rfl
  exact (((h.step (.cancelAll p now)).tended p).fired _ k h_marked h_k).mpr rfl

/-- A run of a task that is withdrawn is cancelled, and its token was fired. -/
theorem stopped_of_withdrawn (h : y.Ordered) (h_t : y.Withdrawn t) {r : EngineRun}
    (h_r : r ∈ y.engine.runs) (h_task : r.info.task = some t) :
    r.context.cancelled = true ∧ .fired ⟨r.number⟩ ∈ y.log := by
  obtain ⟨p, u, -, ⟨q, h_at, h_run⟩, h_id, -, h_token, h_stop⟩ := h.placed_of_task h_r h_task
  have h_marked := (h_t.queues p q h_at).running u h_run h_id
  exact ⟨h_stop h_marked, ((h.tended p).fired u _ ⟨q, h_at, h_run⟩ h_token).mpr h_marked⟩

/-- **The tasks of a queue are cancelled** together, and stay so whatever happens. -/
theorem cleared (h : y.Ordered) (h_at : y.engine.queueAt p = some q) (now : Instant) (later : List Move) :
    y.Cleared (y.run (.cancelAll p now :: later)) p q := by
  have h₁ : (y.step (.cancelAll p now)).Ordered := h.step _
  obtain ⟨-, -, h_log₁⟩ := step_cancelAll h_at now
  obtain ⟨h_withdrawn, h_gone⟩ := h.dismissed h_at now
  obtain ⟨more, h_log, h_withdrawn', h_gone'⟩ := h₁.exists_log_run later
  have h_calm : ∀ u ∈ q.tasks, ∀ ev ∈ more, ¬ ev.Defies u.id := by
    intro u h_u
    rcases GroupQueue.mem_tasks.mp h_u with h_u | h_u | h_u
    · exact (h_withdrawn' _ (h_withdrawn u (.inr h_u))).2
    · exact (h_gone' _ (h_gone u (.inl h_u))).2
    · exact (h_gone' _ (h_gone u (.inr h_u))).2
  refine
  { news := ⟨q.tells (.cancelAll now) ++ more, ?_, fun u h_u => ?_, fun u h_u => ?_,
      fun u h_u status h_end => ?_⟩
    queues := fun p' q' h_at' u h_u => ?_
    ends := fun p' q' h_at' u h_u => ((h_withdrawn' _ (h_withdrawn u h_u)).1.queues p' q' h_at').history
    fired := fun u h_u k h_k => log_subset h₁ later (h.fired_cancelAll h_at now h_u h_k)
    stopped := fun u h_u r h_r h_task =>
      (h.run (.cancelAll p now :: later)).stopped_of_withdrawn (h_withdrawn' _ (h_withdrawn u (.inr h_u))).1 h_r
        h_task }
  · rw [← List.append_assoc, ← h_log₁]
    exact h_log
  · -- such an event would be one of those of the cancellation, or it would go against it
    have h_not : ∀ ev, (∀ i status, ev ≠ .ended i status) → (∀ k, ev ≠ .fired k) → ev.Defies u.id →
        ev ∉ q.tells (.cancelAll now) ++ more := by
      intro ev h_end h_fire h_defies h_ev
      rcases List.mem_append.mp h_ev with h_ev | h_ev
      · obtain ⟨v, -, h_eq⟩ | ⟨k, h_eq⟩ := GroupQueue.mem_tells_cancelAll h_ev
        · exact h_end _ _ h_eq
        · exact h_fire k h_eq
      · exact h_calm u h_u ev h_ev h_defies
    exact ⟨h_not _ (by simp) (by simp) rfl, h_not _ (by simp) (by simp) rfl,
      fun request => h_not _ (by simp) (by simp) rfl⟩
  · exact List.mem_append_left _ (GroupQueue.ended_mem_tells_cancelAll now h_u)
  · rcases List.mem_append.mp h_end with h_end | h_end
    · obtain ⟨v, -, h_eq⟩ | ⟨k, h_eq⟩ := GroupQueue.mem_tells_cancelAll h_end
      · exact (Event.ended.inj h_eq).2
      · cases h_eq
    · by_contra h_status
      exact h_calm u (GroupQueue.mem_tasks.mpr (h_u.elim (fun h => .inr (.inl h)) .inl)) _ h_end ⟨rfl, h_status⟩
  · rcases GroupQueue.mem_tasks.mp h_u with h_u | h_u
    · have h_t := (h_withdrawn' _ (h_withdrawn u (.inr h_u))).1.queues p' q' h_at'
      exact ⟨h_t.pending, fun v h_v h_id => ⟨h_u, h_t.running v h_v h_id⟩⟩
    · have h_t := (h_gone' _ (h_gone u h_u)).1.queues p' q' h_at'
      exact ⟨h_t.pending, fun v h_v h_id => absurd h_id (h_t.running v h_v)⟩

end Ordered

end Yard

/-! ### What is left alone -/

namespace Engine

variable {e e' : Engine} {p : ℕ} {q : GroupQueue} {g : String} {now : Instant}

/-- A removal of the group at a place changes nothing else: `e` is the engine before, and `e'` the one after. -/
structure IsLocalRemoval (e e' : Engine) (p : ℕ) (g : String) : Prop where
  /-- All other queues are as they were, whether their groups exist or not. -/
  queues : ∀ p' ≠ p, e'.queues[p']? = e.queues[p']?
  /-- All other groups are found as they were. -/
  groups : ∀ g' ≠ g, e'.queue? g' = e.queue? g'
  /-- The runs of other groups are as they were. -/
  runs : e'.runs.filter (·.info.group != g) = e.runs.filter (·.info.group != g)
  /-- The catalog is as it was. -/
  scripts : e'.scripts = e.scripts
  /-- Nothing was switched, and no id was issued. -/
  switches : e'.settings = e.settings ∧ e'.paused = e.paused ∧ e'.started = e.started ∧ e'.issued = e.issued
  /-- The live runs of the group were told to stop. -/
  stopped : ∀ r ∈ e'.runs, r.isLive = true → r.info.group = g → r.context.cancelled = true
  /-- The group does not exist any more. -/
  group : e'.queue? g = none

/-- Whether the run is told to stop when its group is removed: the token that the queue holds is fired, and the
live runs of the group are told to stop. -/
def isStopped (q : GroupQueue) (g : String) (now : Instant) (r : EngineRun) : Bool :=
  decide (.fired ⟨r.number⟩ ∈ q.tells (.cancelAll now)) || r.isLive && r.info.group == g

theorem removeGroup_spec (h_place : e.place? g = some p) (h_at : e.queueAt p = some q)
    (h_ok : e.removeGroup g now = .ok e') :
    e' = { e with
      queues := e.queues.modify p fun _ => ⟨q.after (.cancelAll now), false⟩
      runs := e.runs.map fun r => if isStopped q g now r then r.cancel else r } := by
  rw [removeGroup_eq_ok now h_place h_at] at h_ok
  cases h_ok
  -- the runs are told in two passes, by token and by group; here it is one
  have h_stop : ∀ r : EngineRun, (if isStopped q g now r then r.cancel else r) =
      let r' := if decide (.fired ⟨r.number⟩ ∈ q.tells (.cancelAll now)) then r.cancel else r
      if r'.isLive && r'.info.group == g then r'.cancel else r' := by
    intro r
    unfold isStopped
    cases h_fired : decide (.fired ⟨r.number⟩ ∈ q.tells (.cancelAll now)) with
    | false => simp
    | true =>
      simp only [Bool.true_or, if_true]
      split <;> rfl
  simp only [h_stop]
  simp only [cancelRuns, stopFired, setQueue, unlist, List.map_map, List.modify_modify_eq]
  rfl

/-- A group is found by its label. -/
theorem place?_eq (e : Engine) (g : String) :
    e.place? g = (e.queues.map fun h => h.listed && h.queue.id == g).findIdx? id := by
  rw [List.findIdx?_map]
  rfl

theorem queue?_eq_none (h : e.place? g = none) : e.queue? g = none := by
  rw [queue?_eq, h]
  rfl

/-- A group that is created where there is none has an empty queue. -/
theorem createGroup_of_new (h_new : e.queue? g = none) (name : String) :
    ∃ e₁, e.createGroup g name = .ok e₁ ∧
      e₁.queue? g = some (.create g name e.settings.historyLimit e.settings.retry) := by
  refine ⟨_, addQueue_of_new (q := e.freshQueue g name) h_new, ?_⟩
  have h_place : (e.pushQueue (e.freshQueue g name)).place? g = _ :=
    place?_pushQueue_self (q := e.freshQueue g name) h_new
  rw [queue?_eq, h_place, Option.bind_some, queueAt_pushQueue_self]
  rfl

/-- A group that was removed is not found, as no other group has its id. -/
theorem place?_of_removed {x x' : HostedQueue} (h_distinct : e.Distinct) (h_p : e.queues[p]? = some x)
    (h_listed : x.listed = true) (h_removed : x'.listed = false)
    (h_queues : e'.queues = e.queues.modify p fun _ => x') : e'.place? x.queue.id = none := by
  refine List.findIdx?_eq_none_iff.mpr fun z h_z => ?_
  obtain ⟨p', h_p'⟩ := List.mem_iff_getElem?.mp h_z
  rw [h_queues] at h_p'
  by_cases h_eq : p = p'
  · rw [← h_eq, List.getElem?_modify_eq, h_p] at h_p'
    obtain rfl : x' = z := Option.some.inj h_p'
    rw [h_removed]
    rfl
  · rw [List.getElem?_modify_ne _ _ h_eq] at h_p'
    -- another listed group with this id would have this place
    refine Bool.of_not_eq_true fun h_here => h_eq ?_
    obtain ⟨h_z_listed, h_id⟩ := Bool.and_eq_true_iff.mp h_here
    refine h_distinct p p' x.queue.id ?_ ?_
    · simp [labels, h_p, h_listed]
    · simp [labels, h_p', h_z_listed, beq_iff_eq.mp h_id]

/-- What becomes of the queue of one group does not matter to where another is found. -/
theorem queue?_of_other {x x' : HostedQueue} (h_p : e.queues[p]? = some x) (h_x : x.queue.id ≠ g)
    (h_x' : x'.queue.id ≠ g) (h_queues : e'.queues = e.queues.modify p fun _ => x') :
    e'.queue? g = e.queue? g := by
  have h_place : e'.place? g = e.place? g := by
    rw [place?_eq, place?_eq, h_queues]
    -- the place is found by ids, and the id of this entry is another before and after
    refine congrArg (List.findIdx? id) (List.ext_getElem? fun p' => ?_)
    rw [List.getElem?_map, List.getElem?_map]
    by_cases h_eq : p = p'
    · rw [← h_eq, List.getElem?_modify_eq, h_p]
      simp [beq_eq_false_iff_ne.mpr h_x, beq_eq_false_iff_ne.mpr h_x']
    · rw [List.getElem?_modify_ne _ _ h_eq]
  rw [queue?_eq, queue?_eq, h_place]
  refine Option.bind_congr fun p' h_p' => ?_
  obtain ⟨q, -, h_at, h_id⟩ := queue_of_place? h_p'
  -- the place that is found is not that of the changed entry
  have h_ne : p ≠ p' := by
    rintro rfl
    rw [queueAt_eq_some.mpr ⟨x, h_p, rfl⟩] at h_at
    exact h_x (Option.some.inj h_at ▸ h_id)
  unfold queueAt
  rw [h_queues, List.getElem?_modify_ne _ _ h_ne]

end Engine

namespace Yard

open Engine

variable {y : Yard} {e' : Engine} {p : ℕ} {q : GroupQueue} {g : String} {now : Instant}

theorem filter_map_of_fixed {α : Type} {P : α → Bool} {f : α → α} {l : List α} (h_same : ∀ a, P (f a) = P a)
    (h_fixed : ∀ a ∈ l, P a = true → f a = a) : (l.map f).filter P = l.filter P := by
  have h_comp : P ∘ f = P := funext h_same
  rw [List.filter_map, h_comp]
  refine (List.map_congr_left fun a h_a => ?_).trans (List.map_id _)
  obtain ⟨h_mem, h_P⟩ := List.mem_filter.mp h_a
  exact h_fixed a h_mem h_P

/-- A token that is fired when all tasks of a queue are cancelled is that of a run of its group. -/
theorem Ordered.group_of_fired (h : y.Ordered) (h_at : y.engine.queueAt p = some q) {r : EngineRun}
    (h_r : r ∈ y.engine.runs) (h_fired : .fired ⟨r.number⟩ ∈ q.tells (.cancelAll now)) :
    r.info.group = q.id := by
  obtain ⟨books, h_books⟩ := h.books
  obtain ⟨-, h_quiet⟩ | ⟨u, h_run, -, -, h_token⟩ := (q.change (.cancelAll now)).running_outside rfl
  · exact absurd h_fired (h_quiet _)
  · obtain ⟨r', h_r', h_place, h_number⟩ := h.run_of_token ⟨q, h_at, h_run⟩ ((h_token _).mp h_fired)
    obtain rfl := h.sound.eq_of_number_eq h_r' h_r h_number
    obtain ⟨v, ⟨q', h_at', h_run'⟩, -, h_group, -⟩ := (h.tended p).placed r' h_r h_place
    obtain rfl : q' = q := Option.some.inj (h_at'.symm.trans h_at)
    exact h_group.trans (h_books.running_group h_at h_run')

/-- **The removal of a group leaves the others alone.** -/
theorem Ordered.removeGroup_isLocal (h : y.Ordered) (h_distinct : y.engine.Distinct)
    (h_place : y.engine.place? g = some p) (h_ok : y.engine.removeGroup g now = .ok e') :
    IsLocalRemoval y.engine e' p g := by
  obtain ⟨q, -, h_at, rfl⟩ := queue_of_place? h_place
  obtain ⟨x, h_p, rfl⟩ := queueAt_eq_some.mp h_at
  have h_listed : x.listed = true := by
    cases h_x : x.listed with
    | true => rfl
    | false => exact absurd ⟨x.queue.id, by simp [labels, h_p, h_x]⟩ (not_unlisted_of_place? h_place)
  have h_id : (x.queue.after (.cancelAll now)).id = x.queue.id := (x.queue.after_fixed (.cancelAll now)).1
  rw [removeGroup_spec h_place h_at h_ok]
  exact
  { queues := fun p' h_ne => List.getElem?_modify_ne _ _ h_ne.symm
    groups := fun g' h_ne => queue?_of_other h_p h_ne.symm (h_id ▸ h_ne.symm) rfl
    runs := by
      refine filter_map_of_fixed (fun r => ?_) fun r h_r h_other => ?_
      · split <;> rfl
      · -- neither its token is fired, nor is it one of the live runs of the group
        have h_not : isStopped x.queue x.queue.id now r = false := by
          rw [bne_iff_ne] at h_other
          unfold isStopped
          rw [Bool.or_eq_false_iff, decide_eq_false_iff_not]
          exact ⟨fun h_fired => h_other (h.group_of_fired h_at h_r h_fired), by simp [h_other]⟩
        rw [h_not]
        rfl
    scripts := rfl
    switches := ⟨rfl, rfl, rfl, rfl⟩
    stopped := fun r' h_r' h_live h_group => by
      obtain ⟨r, -, rfl⟩ := List.mem_map.mp h_r'
      by_cases h_stopped : isStopped x.queue x.queue.id now r = true
      · rw [if_pos h_stopped]
        rfl
      · rw [if_neg h_stopped] at h_live h_group
        exact absurd (by simp [isStopped, h_live, h_group]) h_stopped
    group := queue?_eq_none (place?_of_removed h_distinct h_p h_listed rfl rfl) }

/-! ### All together -/

theorem unlisted_unlist (h_at : y.engine.queueAt p = some q) : (y.step (.unlist p)).engine.Unlisted p := by
  obtain ⟨listed, h_label⟩ := labels_of_queueAt h_at
  refine ⟨q.id, ?_⟩
  simp only [step, labels_unlist, List.getElem?_modify_eq, h_label]
  rfl

/-- The queue of a group that was removed stays. -/
theorem exists_queueAt_of_unlisted {e : Engine} (h_p : e.Unlisted p) : ∃ q, e.queueAt p = some q := by
  obtain ⟨g, h_label⟩ := h_p
  unfold labels at h_label
  rw [List.getElem?_map] at h_label
  obtain ⟨x, h_x, -⟩ := Option.map_eq_some_iff.mp h_label
  exact ⟨x.queue, queueAt_eq_some.mpr ⟨x, h_x, rfl⟩⟩

/-- What becomes of the tasks of a group that is removed: they are cancelled, and nobody finds them. In `y` the
group does not exist any more, and `q` is its queue there; in `y'` anything else may have happened since. -/
structure Removed (y y' : Yard) (p : ℕ) (q : GroupQueue) : Prop extends y.Cleared y' p q where
  /-- The ids of the tasks are confined to the place of the queue. -/
  confined : ∀ u ∈ q.tasks, y.Confined p u.id
  /-- An id that is confined to the place, whether its task is still remembered or not, is not known. -/
  unknown : ∀ t, y.Confined p t →
    y'.engine.task t = .error (.taskNotFound t) ∧ ∀ now, y'.engine.cancel t now = none

theorem Ordered.removed (h : y.Ordered) (h_at : y.engine.queueAt p = some q) (h_p : y.engine.Unlisted p)
    (now : Instant) (later : List Move) : y.Removed (y.run (.cancelAll p now :: later)) p q where
  toCleared := h.cleared h_at now later
  confined := fun _ h_u => .of_task h h_at h_u
  unknown := fun _ h_t => (h_t.run h _).unknown (unlisted_run h_p _)

/-- The removal of a group at once is three moves in a row, and what operations make of the engine afterwards
are more moves, none of which submits a task to the queue of the group. -/
theorem Ordered.removeGroup_moves (h : y.Ordered) (h_place : y.engine.place? g = some p)
    (h_ok : y.engine.removeGroup g now = .ok e') {e'' : Engine}
    (h_after : Relation.ReflTransGen Operation e' e'') :
    ∃ later, (∀ m ∈ later, p ∉ m.submits?) ∧
      (y.run (.unlist p :: .cancelAll p now :: later)).engine = e'' := by
  obtain ⟨q, -, h_at, -⟩ := queue_of_place? h_place
  rw [removeGroup_eq_ok now h_place h_at] at h_ok
  let stop : Move := .stop fun r => r.isLive && r.info.group == g
  have h_engine : (y.run [.unlist p, .cancelAll p now, stop]).engine = e' := by
    rw [← Except.ok.inj h_ok]
    simp only [Yard.run, List.foldl_cons, List.foldl_nil, Yard.step, Yard.operate, queueAt_unlist, h_at, stop]
  have h_unlisted : e'.Unlisted p := by
    rw [← h_engine]
    exact unlisted_run (unlisted_unlist h_at) [.cancelAll p now, stop]
  obtain ⟨later, h_later, -, h_submits⟩ := movesTo_of_operations h_after _ (h.run _) h_engine
  refine ⟨stop :: later, List.forall_mem_cons.mpr ⟨Option.not_mem_none p, fun m h_m h_p => ?_⟩, h_later⟩
  exact h_submits m h_m p h_p h_unlisted

/-- Of two tasks of a group one waits, and a run of the other is in the middle of a call. -/
def occupied : List Move :=
  [.createGroup "g" "G", .submit 0 (callTask "g"), .submit 0 (callTask "g"), .handOut 0 (.ofMillis 0),
    .launch 0 {}, .begin 2 {}, .work 2 0, .work 2 0]

end Yard

end ScriptYard
