import ScriptYard.Proofs.Yard.Handlers
import ScriptYard.Proofs.Yard.Operations

/-!
# Passes over the groups

A tick asks the queues of all groups for their next tasks, one after the other, and launches a run of each
task that it is given. `Engine.Served` says what this comes to: every run that was launched is the worker of
the next task of one group, no group has two of them, and nothing else is different. Serving one group is
`Engine.dispatch_of_ready`. As it leaves the other queues alone, those that are asked later answer what they
would have answered at first, and a whole pass serves exactly the groups that were ready when it began
(`Engine.dispatchAll_served`).

What a worker starts with comes from the record that its queue keeps of the task. The record is a new one
after every attempt, but what is asked for in it never changes (`Yard.Asks`), so that a retry starts with the
same variables as the first attempt.
-/

namespace ScriptYard

/-! ### Groups that are ready -/

namespace GroupQueue

/-- The queue has a task to give out: it is enabled, runs nothing, and a task that waits is due. -/
structure Ready (q : GroupQueue) (now : Instant) : Prop where
  /-- The queue is enabled. -/
  enabled : q.enabled = true
  /-- It has no running task. -/
  idle : q.running = none
  /-- A task that waits is due. -/
  due : ∃ u ∈ q.pending, u.isDue now = true

theorem dequeue_eq_none_iff_not_ready {q : GroupQueue} {now : Instant} :
    q.dequeue now = none ↔ ¬ q.Ready now := by
  rw [dequeue_eq_none_iff]
  constructor
  · rintro (h_off | h_busy | h_none) ⟨h_on, h_idle, u, h_u, h_due⟩
    · rw [h_off] at h_on
      cases h_on
    · exact h_busy h_idle
    · rw [h_none u h_u] at h_due
      cases h_due
  · intro h
    -- not one of the three reasons: all three conditions hold
    by_contra h_not
    simp only [not_or, Bool.not_eq_false, not_not, not_forall] at h_not
    obtain ⟨h_on, h_idle, u, h_u, h_due⟩ := h_not
    exact h ⟨h_on, h_idle, u, h_u, h_due⟩

end GroupQueue

namespace Engine

/-- The group of the queue at a place exists, and its queue is ready. -/
def ReadyAt (e : Engine) (now : Instant) (p : ℕ) : Prop := ∃ q, e.queues[p]? = some ⟨q, true⟩ ∧ q.Ready now

/-- The run of a number as it is launched for a task of the queue at a place. -/
def workerOf (number p : ℕ) (q : GroupQueue) (t : Task) (c : Clock) : EngineRun where
  number := number
  info := ⟨idText number, some t.id, t.group, t.script, exceptionScriptOf q t, c.time⟩
  place := some p
  context := ⟨t.vars, false, c.moment⟩
  process := runActions t.actions 0 .null
  begunAt := none

/-- The group of the queue at a place gained its next task, of which the run was launched: the queue gave the
task out, runs it, and holds the id and the token of the run. -/
def Gains (e : Engine) (c : Clock) (e' : Engine) (p : ℕ) (r : EngineRun) : Prop :=
  ∃ q t q', e.queues[p]? = some ⟨q, true⟩ ∧ q.dequeue c.time = some (t, q') ∧
    r = workerOf r.number p q t c ∧
    e'.queues[p]? = some ⟨{ q' with running := some (t.attached r.info.id ⟨r.number⟩) }, true⟩

/-- Some groups gained a task each, and a worker. -/
structure Served (e : Engine) (c : Clock) (workers : List EngineRun) (e' : Engine) : Prop where
  /-- Every worker is that of the next task of a group. -/
  gains : ∀ r ∈ workers, ∃ p, e.Gains c e' p r
  /-- No two are of the same group. -/
  apart : (workers.map (·.place)).Nodup
  /-- The other queues are as they were. -/
  others : ∀ p, some p ∉ workers.map (·.place) → e'.queues[p]? = e.queues[p]?
  /-- The workers have the next numbers. -/
  numbers : workers.map (·.number) = List.range' e.issued workers.length
  /-- Beside the queues, the runs and the numbers nothing is different. -/
  rest : e' = { e with
    queues := e'.queues, runs := e.runs ++ workers, issued := e.issued + workers.length }

/-- Nobody asked for the end of a task that waits. -/
def Calm (e : Engine) : Prop :=
  ∀ p q, e.queueAt p = some q → ∀ t ∈ q.pending, t.cancelRequested = false

variable {e e' e₁ : Engine} {c : Clock} {p : ℕ} {q : GroupQueue} {r : EngineRun} {workers : List EngineRun}

/-! ### One group -/

theorem readyAt_congr {now : Instant} (h : e'.queues[p]? = e.queues[p]?) :
    e'.ReadyAt now p ↔ e.ReadyAt now p := by
  unfold ReadyAt
  rw [h]

theorem getElem?_setQueue_self {x : HostedQueue} (h_p : e.queues[p]? = some x) :
    (e.setQueue p q).queues[p]? = some ⟨q, x.listed⟩ := by
  unfold setQueue
  rw [List.getElem?_modify_eq, h_p]
  rfl

theorem getElem?_setQueue_ne {p' : ℕ} (h_ne : p' ≠ p) : (e.setQueue p q).queues[p']? = e.queues[p']? :=
  List.getElem?_modify_ne _ _ h_ne.symm

/-- A group that is not ready gives nothing out. -/
theorem dispatch_of_not_ready (h : ¬ e.ReadyAt c.time p) : e.dispatch p c = none := by
  unfold dispatch
  cases h_p : e.queues[p]? with
  | none => rfl
  | some x =>
    obtain ⟨q, listed⟩ := x
    cases listed with
    | false => rfl
    | true =>
      have h_none : q.dequeue c.time = none :=
        GroupQueue.dequeue_eq_none_iff_not_ready.mpr fun h_q => h ⟨q, h_p, h_q⟩
      simp [h_none]

/-- A run of the running task of a queue is launched, and not told to stop if nobody asked for the end of the
task. -/
theorem launch_of_running {t : Task} (h_p : e.queues[p]? = some ⟨q, true⟩) (h_run : q.running = some t)
    (h_free : t.cancelRequested = false) (c : Clock) :
    e.launch p t c = { e.setQueue p { q with running := some (t.attached (idText e.issued) ⟨e.issued⟩) } with
      runs := e.runs ++ [workerOf e.issued p q t c], issued := e.issued + 1 } := by
  unfold launch
  rw [h_p]
  simp only [GroupQueue.attach_running h_run, h_free]
  rfl

/-- **A group that is ready** gives its next task out, of which a run is launched. Nobody asked for the end of
this task, so that the run is not told to stop. -/
theorem dispatch_of_ready (h_calm : e.Calm) (h : e.ReadyAt c.time p) :
    ∃ r e', e.dispatch p c = some e' ∧ r.place = some p ∧ e.Served c [r] e' := by
  obtain ⟨q, h_p, h_ready⟩ := h
  obtain ⟨⟨t, q'⟩, h_deq⟩ := Option.ne_none_iff_exists'.mp
    fun h_none => GroupQueue.dequeue_eq_none_iff_not_ready.mp h_none h_ready
  have h_dispatch : e.dispatch p c = some ((e.setQueue p q').launch p t c) := by
    simp [dispatch, h_p, h_deq]
  have h_p' : (e.setQueue p q').queues[p]? = some ⟨q', true⟩ := getElem?_setQueue_self h_p
  -- the task that is given out is the running one, and not marked
  obtain ⟨h_run, h_free, h_script⟩ : q'.running = some t ∧ t.cancelRequested = false ∧
      exceptionScriptOf q' t = exceptionScriptOf q t := by
    obtain ⟨-, -, l₁, u, l₂, h_pending, -, -, rfl, rfl⟩ := GroupQueue.dequeue_eq_some_iff.mp h_deq
    exact ⟨rfl, h_calm p q (queueAt_eq_some.mpr ⟨_, h_p, rfl⟩) u (by simp [h_pending]), rfl⟩
  have h_worker : workerOf e.issued p q' t c = workerOf e.issued p q t c := by simp only [workerOf, h_script]
  refine ⟨workerOf e.issued p q t c, _, h_dispatch, rfl, ?_⟩
  rw [launch_of_running h_p' h_run h_free, ← h_worker]
  exact
  { gains := fun r h_r => by
      rw [List.mem_singleton.mp h_r]
      exact ⟨p, q, t, q', h_p, h_deq, h_worker, getElem?_setQueue_self h_p'⟩
    apart := List.nodup_singleton _
    others := fun p' h_p' => by
      have h_ne : p' ≠ p := fun h_eq => h_p' (List.mem_singleton.mpr (congrArg some h_eq))
      exact (getElem?_setQueue_ne h_ne).trans (getElem?_setQueue_ne h_ne)
    numbers := rfl
    rest := rfl }

/-! ### All groups -/

/-- The place of a worker is that of the queue whose task it has. -/
theorem Gains.place (h : e.Gains c e' p r) : r.place = some p := by
  obtain ⟨q, t, q', -, -, h_r, -⟩ := h
  rw [h_r]
  rfl

namespace Served

/-- A group that gained a task did so with a worker. -/
theorem gained (h : e.Served c workers e') (h_p : some p ∈ workers.map (·.place)) :
    ∃ r ∈ workers, e.Gains c e' p r := by
  obtain ⟨r, h_r, h_place⟩ := List.mem_map.mp h_p
  obtain ⟨p', h_gains⟩ := h.gains r h_r
  obtain rfl : p' = p := Option.some.inj (h_gains.place.symm.trans h_place)
  exact ⟨r, h_r, h_gains⟩

theorem nil (e : Engine) (c : Clock) : e.Served c [] e where
  gains := fun _ h_r => absurd h_r List.not_mem_nil
  apart := List.nodup_nil
  others := fun _ _ => rfl
  numbers := rfl
  rest := by simp

theorem calm (h : e.Served c workers e') (h_calm : e.Calm) : e'.Calm := by
  intro p q h_at t h_t
  obtain ⟨x, h_p, rfl⟩ := queueAt_eq_some.mp h_at
  by_cases h_place : some p ∈ workers.map (·.place)
  · -- what waits in a queue after it gave a task out waited there before
    obtain ⟨r, -, q, u, q', h_q, h_deq, -, h_after⟩ := h.gained h_place
    obtain ⟨-, -, l₁, v, l₂, h_pending, -, -, -, rfl⟩ := GroupQueue.dequeue_eq_some_iff.mp h_deq
    cases h_p.symm.trans h_after
    refine h_calm p q (queueAt_eq_some.mpr ⟨_, h_q, rfl⟩) t ?_
    exact GroupQueue.mem_pending_of_rest h_pending h_t
  · exact h_calm p x.queue (queueAt_eq_some.mpr ⟨x, h.others p h_place ▸ h_p, rfl⟩) t h_t

/-- One group is served, and then some others. -/
theorem cons (h : e.Served c [r] e₁) (h' : e₁.Served c workers e')
    (h_place : r.place ∉ workers.map (·.place)) : e.Served c (r :: workers) e' where
  gains := fun r' h_r' => by
    rcases List.mem_cons.mp h_r' with rfl | h_r'
    · -- its queue is not among those that are asked later
      obtain ⟨p, h_gains⟩ := h.gains r' (List.mem_singleton_self r')
      rw [h_gains.place] at h_place
      obtain ⟨q, t, q', h_p, h_deq, h_worker, h_after⟩ := h_gains
      exact ⟨p, q, t, q', h_p, h_deq, h_worker, (h'.others p h_place).trans h_after⟩
    · -- the queue was the same before the first group was served
      obtain ⟨p, h_gains⟩ := h'.gains r' h_r'
      have h_ne : some p ∉ [r].map (·.place) := fun h_p =>
        h_place (List.mem_map.mpr ⟨r', h_r', h_gains.place.trans (List.mem_singleton.mp h_p)⟩)
      obtain ⟨q, t, q', h_p, h_deq, h_worker, h_after⟩ := h_gains
      exact ⟨p, q, t, q', (h.others p h_ne).symm.trans h_p, h_deq, h_worker, h_after⟩
  apart := List.nodup_cons.mpr ⟨h_place, h'.apart⟩
  others := fun p h_p => by
    rw [List.map_cons, List.mem_cons, not_or] at h_p
    exact (h'.others p h_p.2).trans (h.others p (mt List.mem_singleton.mp h_p.1))
  numbers := by
    have h_issued : e₁.issued = e.issued + 1 := by rw [h.rest]; rfl
    have h_number : r.number = e.issued := by simpa using h.numbers
    rw [List.map_cons, h'.numbers, h_issued, h_number]
    rfl
  rest := by
    rw [h'.rest, h.rest]
    simp [Nat.add_assoc, Nat.add_comm 1]

end Served

/-- **A pass over some places** serves exactly those that were ready when it began. -/
theorem dispatchAll_served (c : Clock) (places : List ℕ) (h_nodup : places.Nodup) (h_calm : e.Calm) :
    ∃ workers e', e.dispatchAll c places = (workers.length, e') ∧ e.Served c workers e' ∧
      ∀ p, some p ∈ workers.map (·.place) ↔ p ∈ places ∧ e.ReadyAt c.time p := by
  induction places generalizing e with
  | nil => exact ⟨[], e, rfl, .nil e c, by simp⟩
  | cons p places ih =>
    obtain ⟨h_p, h_nodup⟩ := List.nodup_cons.mp h_nodup
    by_cases h_ready : e.ReadyAt c.time p
    · obtain ⟨r, e₁, h_dispatch, h_place, h_served⟩ := dispatch_of_ready h_calm h_ready
      obtain ⟨workers, e', h_all, h_rest, h_places⟩ := ih h_nodup (h_served.calm h_calm)
      have h_new : r.place ∉ workers.map (·.place) := by
        rw [h_place, h_places]
        exact fun h => h_p h.1
      refine ⟨r :: workers, e', ?_, h_served.cons h_rest h_new, fun p' => ?_⟩
      · rw [dispatchAll, h_dispatch]
        simp only [h_all, List.length_cons]
      · rw [List.map_cons, List.mem_cons, h_place, Option.some.injEq, h_places, List.mem_cons]
        by_cases h_eq : p' = p
        · simp [h_eq, h_ready]
        · -- the other queues are as ready as they were
          have h_same : e₁.queues[p']? = e.queues[p']? :=
            h_served.others p' (by simpa [h_place] using h_eq)
          rw [readyAt_congr h_same, or_iff_right h_eq, or_iff_right h_eq]
    · obtain ⟨workers, e', h_all, h_rest, h_places⟩ := ih h_nodup h_calm
      refine ⟨workers, e', ?_, h_rest, fun p' => ?_⟩
      · rw [dispatchAll, dispatch_of_not_ready h_ready]
        exact h_all
      · rw [h_places, List.mem_cons]
        refine ⟨fun h => ⟨.inr h.1, h.2⟩, fun ⟨h_mem, h_p'⟩ => ⟨h_mem.resolve_left ?_, h_p'⟩⟩
        rintro rfl
        exact h_ready h_p'

/-- **A tick** serves exactly the groups that were ready, unless the engine is paused. -/
theorem tick_served (c : Clock) (h_calm : e.Calm) (h_on : e.paused = false) :
    ∃ workers e', e.tick c = (workers.length, e') ∧ e.Served c workers e' ∧
      ∀ p, some p ∈ workers.map (·.place) ↔ e.ReadyAt c.time p := by
  obtain ⟨workers, e', h_all, h_served, h_places⟩ :=
    dispatchAll_served c (List.range e.queues.length) List.nodup_range h_calm
  refine ⟨workers, e', ?_, h_served, fun p => ?_⟩
  · rw [tick, h_on]
    exact h_all
  · rw [h_places, and_iff_right_of_imp]
    rintro ⟨q, h_p, -⟩
    exact List.mem_range.mpr (List.getElem?_eq_some_iff.mp h_p).1

/-- A group that exists and was not served has no task to give out, and one that was has a running task. -/
theorem Served.settled (h : e.Served c workers e')
    (h_places : ∀ p, some p ∈ workers.map (·.place) ↔ e.ReadyAt c.time p) (h_q : ⟨q, true⟩ ∈ e'.queues)
    (h_on : q.enabled = true) : q.running ≠ none ∨ ∀ u ∈ q.pending, u.isDue c.time = false := by
  obtain ⟨p, h_p⟩ := List.mem_iff_getElem?.mp h_q
  by_cases h_place : some p ∈ workers.map (·.place)
  · obtain ⟨r, -, q₀, t, q', -, -, -, h_after⟩ := h.gained h_place
    cases h_p.symm.trans h_after
    exact .inl (Option.some_ne_none _)
  · have h_wait : ¬ q.Ready c.time := fun h_ready =>
      h_place ((h_places p).mpr ⟨q, h.others p h_place ▸ h_p, h_ready⟩)
    obtain h_off | h_rest := GroupQueue.dequeue_eq_none_iff.mp
      (GroupQueue.dequeue_eq_none_iff_not_ready.mpr h_wait)
    · rw [h_on] at h_off
      cases h_off
    · exact h_rest

end Engine

/-! ### What is asked for -/

namespace Yard

/-- Wherever a queue has to do with the task of this id, this is asked for. -/
structure Asks (y : Yard) (request : Task) : Prop where
  issued : ∃ k < y.engine.issued, request.id = Engine.idText k
  /-- The task asks for this where it waits and where it is running. -/
  queues : ∀ p q, y.engine.queueAt p = some q → ∀ u, q.Holds u → u.id = request.id → u.request = request

namespace Asks

variable {y : Yard} {request : Task}

/-- A task that a queue has to do with is the only one of its id. -/
theorem of_holds (h : y.Ordered) {p : ℕ} {q : GroupQueue} {u : Task} (h_at : y.engine.queueAt p = some q)
    (h_u : q.Holds u) : y.Asks u.request := by
  obtain ⟨books, h_books⟩ := h.books
  have h_issued : ∃ k < y.engine.issued, u.id = Engine.idText k := h_books.id_issued h_at h_u.mem_tasks
  refine ⟨h_issued, fun p' q' h_at' v h_v h_id => ?_⟩
  obtain rfl := h_books.place_unique h_at' h_v.mem_tasks h_at h_u.mem_tasks h_id
  cases h_at'.symm.trans h_at
  rw [List.inj_on_of_nodup_map (h_books.nodup h_at) h_v.mem_tasks h_u.mem_tasks h_id]

/-- **No move changes what is asked for.** -/
theorem step (h_asks : y.Asks request) (h : y.Ordered) (m : Move) : (y.step m).Asks request := by
  obtain ⟨evs, -, h_issued, h_effect⟩ := h.effect m
  exact ⟨issued_mono h_asks.issued h_issued,
    h_effect.forall_held h_asks.issued (fun h_same h_u => h_same.symm.trans h_u) h_asks.queues⟩

theorem run (h_asks : y.Asks request) (h : y.Ordered) (moves : List Move) : (y.run moves).Asks request := by
  induction moves generalizing y with
  | nil => exact h_asks
  | cons m moves ih => exact ih (h_asks.step h m) (h.step m)

end Asks

end Yard

/-! ### Every tick -/

namespace Engine

/-- **A tick serves every group exactly.** Whatever happened before, a tick of a paused engine starts nothing
and changes nothing. Any other tick launches some workers and answers how many they are.

* They are the workers of the tasks that the groups gained, one for each group that existed and was ready;
  no other queue is different (`Served`).
* Afterwards every group that is enabled has a running task or no task that is due.
* There is no other run of the task of a worker, and the worker starts with the variables that every record of
  this task had that a queue kept at any time before, from its submission on and through all its attempts. -/
theorem tick_serves_every_group (settings : EngineSettings) (moves : List Move) (c : Clock) :
    let e := ((Yard.idle settings).run moves).engine
    (e.paused = true → e.tick c = (0, e)) ∧
    (e.paused = false → ∃ workers e', e.tick c = (workers.length, e') ∧ e.Served c workers e' ∧
      (∀ p, some p ∈ workers.map (·.place) ↔ e.ReadyAt c.time p) ∧
      (∀ q, ⟨q, true⟩ ∈ e'.queues → q.enabled = true →
        q.running ≠ none ∨ ∀ u ∈ q.pending, u.isDue c.time = false) ∧
      ∀ r ∈ workers, e'.runs.filter (·.info.task == r.info.task) = [r] ∧
        ∀ before, before <+: moves → ∀ p q u,
          ((Yard.idle settings).run before).engine.queueAt p = some q → q.Holds u →
          r.info.task = some u.id → r.context.vars = u.vars) := by
  intro e
  have h_start := Yard.Ordered.idle settings
  have h : ((Yard.idle settings).run moves).Ordered := h_start.run moves
  refine ⟨fun h_paused => if_pos h_paused, fun h_on => ?_⟩
  obtain ⟨workers, e', h_tick, h_served, h_places⟩ :=
    tick_served c (fun p q h_at t h_t => (h.untouched p q h_at t h_t).1) h_on
  refine ⟨workers, e', h_tick, h_served, h_places, fun q h_q h_q_on => h_served.settled h_places h_q h_q_on,
    fun r h_r => ⟨?_, ?_⟩⟩
  · -- a tick is some moves, so that what it leads to is ordered
    obtain ⟨more, h_engine, -⟩ := operation_tick c _ h rfl
    have h_after := h.run more
    have h_e' : ((Yard.idle settings).run moves |>.run more).engine = e' := by rw [h_engine, h_tick]
    have h_mem : r ∈ e'.runs := by
      rw [h_served.rest]
      exact List.mem_append_right _ h_r
    obtain ⟨p, q, t, q', -, -, h_worker, -⟩ := h_served.gains r h_r
    have h_task : r.info.task = some t.id := by rw [h_worker]; rfl
    rw [← h_e'] at h_mem ⊢
    exact h_after.sound.filter_eq_singleton h_mem BEq.rfl fun r' h_r' h_same =>
      h_after.eq_of_task_eq h_r' h_mem ((beq_iff_eq.mp h_same).trans h_task) h_task
  · rintro before ⟨after, rfl⟩ p₀ q₀ u h_at₀ h_u h_own
    have h_asks := (Yard.Asks.of_holds (h_start.run before) h_at₀ h_u).run (h_start.run before) after
    rw [← Yard.run_append] at h_asks
    -- the task that is given out is started from a record that waits
    obtain ⟨p, q, t, q', h_p, h_deq, h_worker, -⟩ := h_served.gains r h_r
    obtain ⟨-, -, l₁, v, l₂, h_pending, -, -, rfl, -⟩ := GroupQueue.dequeue_eq_some_iff.mp h_deq
    rw [h_worker] at h_own ⊢
    have h_same := h_asks.queues p q (queueAt_eq_some.mpr ⟨_, h_p, rfl⟩) v (.inl (by simp [h_pending]))
      (Option.some.inj h_own)
    exact Task.vars_of_request h_same

end Engine

end ScriptYard
