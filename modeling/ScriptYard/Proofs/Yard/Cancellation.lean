import ScriptYard.Proofs.Yard.Progress

/-!
# No cancellation is lost

When a queue grants the cancellation of a task, the task may be waiting, given out and not launched, in a
run that has not begun, in the middle of a call, or at the end of a run that is not finished yet. Whatever
the engine does next, the task is `Yard.Withdrawn` from then on: no queue lets it wait, and the queue that
still runs it has it marked. That this is so in every queue, and not only in the one that was asked, is
where the ids come in. A task that came to its end is `Yard.Gone` in the same way.

`Yard.Effect` says what a move can do to the queues and write down: an operation of one queue and what it
tells, a new queue, or the beginning of a call, and this only by a run that is not cancelled. The last is
what the order of a yard is needed for. A withdrawn task is marked where it is running, so that its run is
cancelled, and a cancelled run makes no calls (`Yard.Ordered.cancelled_of_withdrawn`).

`Yard.Settled` collects what follows for the log, by induction over the moves: behind the grant of a
cancellation there is no event that goes against it, and the task is running or has come to its end.
`Yard.no_cancellation_is_lost` is the reading of it.
-/

namespace ScriptYard

namespace Yard

/-- What a move does to the queues, and what it writes down. -/
inductive Effect (e e' : Engine) : List Event → Prop where
  /-- One queue made an operation; a task that was offered to it has the next id. -/
  | operated (p : ℕ) (q : GroupQueue) (op : QueueOp) (h_at : e.queueAt p = some q)
    (h_new : ∀ i ∈ op.offered, i = Engine.idText e.issued ∧ e.issued < e'.issued)
    (h_queues : e'.queueAt = Function.update e.queueAt p (some (q.after op))) : Effect e e' (q.tells op)
  /-- There is a new queue. -/
  | created (p : ℕ) (id name : String) (limit : ℕ) (policy : RetryPolicy) (h_free : e.queueAt p = none)
    (h_queues : e'.queueAt = Function.update e.queueAt p (some (.create id name limit policy))) :
    Effect e e' []
  /-- A run that is not cancelled made a call. -/
  | called (r : EngineRun) (h_r : r ∈ e.runs) (h_awake : r.context.cancelled = false)
    (request : Request) (h_queues : e'.queueAt = e.queueAt) : Effect e e' [.called r.info.task request]
  /-- Nothing happened to any queue. -/
  | quiet (h_queues : e'.queueAt = e.queueAt) : Effect e e' []

/-- A cancellation of the task was granted. -/
structure Withdrawn (y : Yard) (t : String) : Prop where
  issued : ∃ k < y.engine.issued, t = Engine.idText k
  /-- The task is withdrawn in every queue. -/
  queues : ∀ p q, y.engine.queueAt p = some q → q.Withdrawn t

/-- The task came to its end. -/
structure Gone (y : Yard) (t : String) : Prop where
  issued : ∃ k < y.engine.issued, t = Engine.idText k
  /-- No queue lets the task wait or runs it. -/
  queues : ∀ p q, y.engine.queueAt p = some q → q.Gone t

variable {y y' : Yard} {t : String} {evs : List Event}

/-! ### The effect of a move -/

namespace Ordered

/-- A move that tells nothing leaves the queues alone. -/
theorem effect_silent {y' : Yard} (h_log : y'.log = y.log) (h_issued : y.engine.issued ≤ y'.engine.issued)
    (h_queues : y'.engine.queueAt = y.engine.queueAt) :
    ∃ evs, y'.log = y.log ++ evs ∧ y.engine.issued ≤ y'.engine.issued ∧ Effect y.engine y'.engine evs :=
  ⟨[], by rw [h_log, List.append_nil], h_issued, .quiet h_queues⟩

theorem effect_operate (place : ℕ) (op : QueueOp) (h_offer : op.offered = []) :
    ∃ evs, (y.operate place op).log = y.log ++ evs ∧
      y.engine.issued ≤ (y.operate place op).engine.issued ∧
      Effect y.engine (y.operate place op).engine evs := by
  unfold Yard.operate
  split
  · next q h_at =>
    refine ⟨_, rfl, Nat.le_refl _, .operated place q op h_at (fun i h_i => ?_) (Engine.queueAt_setQueue h_at)⟩
    rw [h_offer] at h_i
    exact absurd h_i List.not_mem_nil
  · exact effect_silent rfl (Nat.le_refl _) rfl

/-- A run that goes on makes a call only if it is not cancelled. -/
theorem effect_goOn (run : ℕ) {f : EngineRun → Option (Process RunEnd × RunContext)}
    (h_f : ∀ r ∈ y.engine.runs, ∀ x, f r = some x → r.context.cancelled = true → x.1.call? = none) :
    ∃ evs, (y.goOn run f).log = y.log ++ evs ∧ y.engine.issued ≤ (y.goOn run f).engine.issued ∧
      Effect y.engine (y.goOn run f).engine evs := by
  unfold Yard.goOn
  split
  · next r p context h_some =>
    obtain ⟨r', h_r', h_map⟩ := Option.bind_eq_some_iff.mp h_some
    obtain ⟨x, h_x, h_eq⟩ := Option.map_eq_some_iff.mp h_map
    cases h_eq
    have h_mem : r ∈ y.engine.runs := List.mem_of_find?_eq_some (Option.filter_eq_some_iff.mp h_r').1
    refine ⟨_, rfl, Nat.le_refl _, ?_⟩
    -- only a process that has arrived at a call writes something down
    cases h_call : p.call? with
    | none => exact .quiet rfl
    | some request =>
      refine .called r h_mem (Bool.of_not_eq_true fun h_cancelled => ?_) request rfl
      rw [h_f r h_mem _ h_x h_cancelled] at h_call
      cases h_call
  · exact effect_silent rfl (Nat.le_refl _) rfl

/-- To launch a task is an operation of its queue, which is told of the run. -/
theorem effect_launch (h : y.Ordered) (index : ℕ) (c : Clock) :
    ∃ evs, (y.step (.launch index c)).log = y.log ++ evs ∧ y.engine.issued ≤ (y.step (.launch index c)).engine.issued ∧
      Effect y.engine (y.step (.launch index c)).engine evs := by
  simp only [Yard.step, Yard.launch]
  split
  · next p t h_hand =>
    -- the queue that gave the task out is there still
    obtain ⟨u, ⟨q, h_at, -⟩, -⟩ := (h.tended p).handed t (List.mem_of_getElem? h_hand)
    obtain ⟨r, -, -, -, -, -, -, -, h_launch⟩ := Engine.launch_spec h_at t c
    simp only [h_at, h_launch]
    exact ⟨_, rfl, Nat.le_succ _, .operated p q (.attach t.id (Engine.idText y.engine.issued) _) h_at
      (fun _ h => absurd h List.not_mem_nil) (Engine.queueAt_setQueue h_at)⟩
  · exact effect_silent rfl (Nat.le_refl _) rfl

/-- To finish a run is an operation of its queue, which is told of the end, if it has one. -/
theorem effect_finish (h : y.Ordered) (run : ℕ) (c : Clock) :
    ∃ evs, (y.step (.finish run c)).log = y.log ++ evs ∧ y.engine.issued ≤ (y.step (.finish run c)).engine.issued ∧
      Effect y.engine (y.step (.finish run c)).engine evs := by
  simp only [Yard.step, Yard.finish]
  split
  · next report e h_fin =>
    obtain ⟨r, h_r, -, -, -, h_issued, h_free, h_busy⟩ := Engine.finish_spec h_fin
    have h_mem : r ∈ y.engine.runs := List.mem_of_find?_eq_some h_r
    obtain rfl : r.number = run := by simpa using List.find?_some h_r
    refine ⟨_, rfl, Nat.le_of_eq h_issued.symm, ?_⟩
    cases h_place : r.place with
    | none =>
      -- a run without a queue has nobody to tell of its end
      rw [completion_of_placeless h_r h_place]
      exact .quiet (h_free h_place)
    | some p =>
      obtain ⟨q, u, d, q', h_at, -, h_task, -, -⟩ :=
        h.complete_of_placed h_mem h_place report.outcome c.time
      rw [completion_of_placed h_r h_place h_at h_task]
      exact .operated p q _ h_at (fun _ h => absurd h List.not_mem_nil)
        (h_busy p q u.id h_place h_at h_task)
  · exact effect_silent rfl (Nat.le_refl _) rfl

/-- **What a move can do.** -/
theorem effect (h : y.Ordered) (m : Move) :
    ∃ evs, (y.step m).log = y.log ++ evs ∧ y.engine.issued ≤ (y.step m).engine.issued ∧
      Effect y.engine (y.step m).engine evs := by
  cases m with
  | createGroup id name =>
    simp only [Yard.step]
    split
    · next e h_e =>
      obtain rfl := Engine.createGroup_eq_ok h_e
      exact ⟨[], (List.append_nil _).symm, Nat.le_refl _,
        .created _ id name _ _ (Engine.queueAt_length _) (Engine.queueAt_append _ _ _)⟩
    · exact effect_silent rfl (Nat.le_refl _) rfl
  | unlist place => exact effect_silent rfl (Nat.le_refl _) (Engine.queueAt_unlist _ _)
  | setEnabled place enabled => exact effect_operate place _ rfl
  | setExceptionScript place script => exact effect_operate place _ rfl
  | submit place draft =>
    -- the only operation that offers a task, under the next id
    simp only [Yard.step, Yard.submit, Yard.operate]
    split
    · next q h_at =>
      exact ⟨_, rfl, Nat.le_succ _, .operated place q _ h_at
        (fun i h_i => ⟨List.mem_singleton.mp h_i, Nat.lt_succ_self _⟩) (Engine.queueAt_setQueue h_at)⟩
    · exact ⟨[], (List.append_nil _).symm, Nat.le_succ _, .quiet rfl⟩
  | cancel place task now => exact effect_operate place _ rfl
  | cancelAll place now => exact effect_operate place _ rfl
  | handOut place now =>
    simp only [Yard.step, Yard.handOut]
    split
    · exact effect_operate place (.dequeue now) rfl
    · exact effect_silent rfl (Nat.le_refl _) rfl
  | launch index c => exact h.effect_launch index c
  | openRun group script actions vars exceptionScript c =>
    obtain ⟨r, -, -, -, -, h_open⟩ := y.engine.openRun_spec group script actions vars exceptionScript c
    simp only [Yard.step, h_open]
    exact ⟨[], (List.append_nil _).symm, Nat.le_succ _, .quiet rfl⟩
  | begin run c => exact effect_silent rfl (Nat.le_refl _) rfl
  | work run now =>
    -- here a call can begin, but not in a run that is cancelled
    exact effect_goOn run fun r h_r x h_x => (h.sound.steady r h_r).advance_quiet h_x
  | reply run answer =>
    -- behind a reply or a sleep there is a look at the cancellation before there is a call
    refine effect_goOn run fun r h_r x h_x _ => ?_
    obtain ⟨p, h_p, rfl⟩ := Option.map_eq_some_iff.mp h_x
    exact ((h.sound.steady r h_r).reply h_p).call?_eq_none
  | wake run =>
    refine effect_goOn run fun r h_r x h_x _ => ?_
    obtain ⟨p, h_p, rfl⟩ := Option.map_eq_some_iff.mp h_x
    exact ((h.sound.steady r h_r).wake h_p).call?_eq_none
  | finish run c => exact h.effect_finish run c
  | stop which => exact effect_silent rfl (Nat.le_refl _) rfl
  | catalog scripts => exact effect_silent rfl (Nat.le_refl _) rfl
  | switch paused started => exact effect_silent rfl (Nat.le_refl _) rfl

theorem issued_step (h : y.Ordered) (m : Move) : y.engine.issued ≤ (y.step m).engine.issued := by
  obtain ⟨evs, -, h_issued, -⟩ := h.effect m
  exact h_issued

/-- The run of a task whose cancellation was granted is cancelled. -/
theorem cancelled_of_withdrawn (h : y.Ordered) (h_t : y.Withdrawn t) {r : EngineRun}
    (h_r : r ∈ y.engine.runs) (h_task : r.info.task = some t) : r.context.cancelled = true := by
  obtain ⟨p, u, -, ⟨q, h_at, h_run⟩, h_id, -, -, h_stop⟩ := h.placed_of_task h_r h_task
  exact h_stop ((h_t.queues p q h_at).running u h_run h_id)

/-- No run is left of a task that came to its end. -/
theorem not_gone_of_task (h : y.Ordered) {r : EngineRun} (h_r : r ∈ y.engine.runs)
    (h_task : r.info.task = some t) : ¬ y.Gone t := by
  intro h_gone
  obtain ⟨p, u, -, ⟨q, h_at, h_run⟩, h_id, -⟩ := h.placed_of_task h_r h_task
  exact (h_gone.queues p q h_at).running u h_run h_id

end Ordered

/-- What was written down stays written down. -/
theorem log_subset (h : y.Ordered) (moves : List Move) : y.log ⊆ (y.run moves).log := by
  induction moves generalizing y with
  | nil => exact List.Subset.refl _
  | cons m moves ih =>
    obtain ⟨evs, h_log, -⟩ := h.effect m
    refine List.Subset.trans ?_ (ih (h.step m))
    rw [h_log]
    exact List.subset_append_left _ _

/-! ### What is never left again -/

/-- An id that was issued is not offered any more. -/
theorem Effect.not_offered {op : QueueOp} (h_id : ∃ k < y.engine.issued, t = Engine.idText k)
    (h_new : ∀ i ∈ op.offered, i = Engine.idText y.engine.issued ∧ y.engine.issued < y'.engine.issued) :
    t ∉ op.offered := by
  obtain ⟨k, h_k, rfl⟩ := h_id
  intro h_mem
  exact Nat.ne_of_lt h_k (Engine.idText_injective (h_new _ h_mem).1)

theorem issued_mono (h_id : ∃ k < y.engine.issued, t = Engine.idText k)
    (h_issued : y.engine.issued ≤ y'.engine.issued) : ∃ k < y'.engine.issued, t = Engine.idText k := by
  obtain ⟨k, h_k, h_eq⟩ := h_id
  exact ⟨k, Nat.lt_of_lt_of_le h_k h_issued, h_eq⟩

/-- What holds of the queues at all places, of new ones and of one after an operation, holds after a move. -/
theorem Effect.forall_places {P : ℕ → GroupQueue → Prop} (h : Effect y.engine y'.engine evs)
    (h_id : ∃ k < y.engine.issued, t = Engine.idText k)
    (h_old : ∀ p q, y.engine.queueAt p = some q → P p q)
    (h_new : ∀ p id name limit policy, P p (.create id name limit policy))
    (h_op : ∀ p q op, t ∉ op.offered → P p q → P p (q.after op)) :
    ∀ p q, y'.engine.queueAt p = some q → P p q := by
  intro p' q' h_at'
  cases h with
  | operated p q op h_at h_offer h_queues =>
    rw [h_queues, Function.update_apply] at h_at'
    split at h_at'
    · next h_eq =>
      cases h_at'
      rw [h_eq]
      -- the id was issued, so that no operation of the move offers it
      exact h_op p q op (not_offered h_id h_offer) (h_old p q h_at)
    · exact h_old p' q' h_at'
  | created p id name limit policy h_free h_queues =>
    rw [h_queues, Function.update_apply] at h_at'
    split at h_at'
    · cases h_at'
      exact h_new p' id name limit policy
    · exact h_old p' q' h_at'
  | called r h_r h_awake request h_queues => exact h_old p' q' (h_queues ▸ h_at')
  | quiet h_queues => exact h_old p' q' (h_queues ▸ h_at')

/-- What holds of all queues, wherever they are, of new ones and of one after an operation, holds after a
move. -/
theorem Effect.forall_queues {P : GroupQueue → Prop} (h : Effect y.engine y'.engine evs)
    (h_id : ∃ k < y.engine.issued, t = Engine.idText k)
    (h_old : ∀ p q, y.engine.queueAt p = some q → P q)
    (h_new : ∀ id name limit policy, P (.create id name limit policy))
    (h_op : ∀ q op, t ∉ op.offered → P q → P (q.after op)) :
    ∀ p q, y'.engine.queueAt p = some q → P q :=
  h.forall_places h_id h_old (fun _ => h_new) fun _ => h_op

namespace Withdrawn

/-- A cancellation that was granted stays so. -/
theorem step (h_t : y.Withdrawn t) (h_effect : Effect y.engine y'.engine evs)
    (h_issued : y.engine.issued ≤ y'.engine.issued) : y'.Withdrawn t where
  issued := issued_mono h_t.issued h_issued
  queues := h_effect.forall_queues h_t.issued h_t.queues
    (fun _ _ _ _ => ⟨fun _ h => absurd h List.not_mem_nil, fun _ h => (nomatch h),
      fun _ h => absurd h List.not_mem_nil⟩)
    fun _ _ h_new h => h.after h_new

/-- No move does anything against it. -/
theorem quiet (h_t : y.Withdrawn t) (h : y.Ordered) (h_effect : Effect y.engine y'.engine evs) :
    ∀ ev ∈ evs, ¬ ev.Defies t := by
  intro ev h_ev
  cases h_effect with
  | operated p q op h_at h_new h_queues =>
    exact (h_t.queues p q h_at).tells (Effect.not_offered h_t.issued h_new) h_ev
  | created p id name limit policy h_free h_queues => exact absurd h_ev List.not_mem_nil
  | called r h_r h_awake request h_queues =>
    -- a call for the task would be one of its run, which is cancelled and makes none
    rw [List.mem_singleton.mp h_ev]
    cases h_task : r.info.task with
    | none => exact fun h => h
    | some i =>
      rintro rfl
      rw [h.cancelled_of_withdrawn h_t h_r h_task] at h_awake
      cases h_awake
  | quiet h_queues => exact absurd h_ev List.not_mem_nil

end Withdrawn

namespace Gone

/-- A task that came to its end does not come back. -/
theorem step (h_t : y.Gone t) (h_effect : Effect y.engine y'.engine evs)
    (h_issued : y.engine.issued ≤ y'.engine.issued) : y'.Gone t where
  issued := issued_mono h_t.issued h_issued
  queues := h_effect.forall_queues h_t.issued h_t.queues
    (fun _ _ _ _ => ⟨fun _ h => absurd h List.not_mem_nil, fun _ h => nomatch h⟩)
    fun _ _ h_new h => h.after h_new

/-- Nothing happens to it any more in any queue. -/
theorem quiet (h_t : y.Gone t) (h_effect : Effect y.engine y'.engine evs) :
    ∀ ev ∈ evs, ev.subject ≠ some t := by
  intro ev h_ev
  cases h_effect with
  | operated p q op h_at h_new h_queues =>
    exact (h_t.queues p q h_at).tells (Effect.not_offered h_t.issued h_new) h_ev
  | created p id name limit policy h_free h_queues => exact absurd h_ev List.not_mem_nil
  | called r h_r h_awake request h_queues =>
    rw [List.mem_singleton.mp h_ev]
    exact fun h => nomatch h
  | quiet h_queues => exact absurd h_ev List.not_mem_nil

end Gone

/-! ### How it comes about -/

namespace Ordered

variable {q : GroupQueue}

/-- The task of an event is one that the queue keeps. -/
theorem mem_of_grounds {op : QueueOp} {ev : Event} (h : q.Grounds op ev)
    (h_ev : ev = .granted t ∨ ∃ status, ev = .ended t status) : ∃ v ∈ q.tasks, v.id = t := by
  have h_wait : (∃ v ∈ q.pending, v.id = t) → ∃ v ∈ q.tasks, v.id = t :=
    fun ⟨v, h_v, h_id⟩ => ⟨v, GroupQueue.mem_tasks.mpr (.inr (.inl h_v)), h_id⟩
  have h_run : ∀ P : Task → Prop, (∃ v ∈ q.running, v.id = t ∧ P v) → ∃ v ∈ q.tasks, v.id = t :=
    fun P ⟨v, h_v, h_id, _⟩ => ⟨v, GroupQueue.mem_tasks.mpr (.inl h_v), h_id⟩
  rcases h_ev with rfl | ⟨status, rfl⟩
  · exact h.2.elim h_wait (h_run _)
  · exact h.elim (fun h => h_wait h.2) (h_run _)

/-- What holds of the queue that keeps a task, as it is then, and of queues that know no task of this id,
holds of all queues then. -/
theorem forall_queues_of_task (h : y.Ordered) {e : Engine} {p : ℕ} {q q' : GroupQueue} {u : Task}
    (h_at : y.engine.queueAt p = some q) (h_u : u ∈ q.tasks)
    (h_queues : e.queueAt = Function.update y.engine.queueAt p (some q')) {P : GroupQueue → Prop}
    (h_here : P q') (h_else : ∀ q : GroupQueue, (∀ v ∈ q.tasks, v.id ≠ u.id) → P q) :
    ∀ p q, e.queueAt p = some q → P q := by
  intro p₁ q₁ h_at₁
  rw [h_queues, Function.update_apply] at h_at₁
  split at h_at₁
  · cases h_at₁
    exact h_here
  · -- the task is one of the first queue, and no other knows one of its id
    next h_ne => exact h_else q₁ (h.alone h_at h_u p₁ q₁ h_ne h_at₁)

/-- What an event makes of the queue it is about, and what holds of a queue that knows no task of this id,
holds of all queues after the event. -/
theorem forall_queues_of_event (h : y.Ordered) (h_effect : Effect y.engine y'.engine evs)
    (h_issued : y.engine.issued ≤ y'.engine.issued) {P : GroupQueue → Prop} {ev : Event} (h_ev : ev ∈ evs)
    (h_about : ev = .granted t ∨ ∃ status, ev = .ended t status)
    (h_here : ∀ (q : GroupQueue) op, (taskIds q.tasks).Nodup → ev ∈ q.tells op → P (q.after op))
    (h_else : ∀ q : GroupQueue, (∀ u ∈ q.tasks, u.id ≠ t) → P q) :
    (∃ k < y'.engine.issued, t = Engine.idText k) ∧ ∀ p q, y'.engine.queueAt p = some q → P q := by
  obtain ⟨books, h_books⟩ := h.books
  cases h_effect with
  | operated p q op h_at h_new h_queues =>
    obtain ⟨v, h_v, rfl⟩ := mem_of_grounds ((q.change op).grounds h_ev) h_about
    exact ⟨issued_mono (h_books.id_issued h_at h_v) h_issued,
      h.forall_queues_of_task h_at h_v h_queues (h_here q op (h_books.nodup h_at) h_ev) h_else⟩
  | created | quiet => exact absurd h_ev List.not_mem_nil
  | called =>
    rw [List.mem_singleton.mp h_ev] at h_about
    rcases h_about with h_eq | ⟨status, h_eq⟩
    · cases h_eq
    · cases h_eq

/-- **A grant withdraws the task in every queue.** -/
theorem withdrawn_of_granted (h : y.Ordered) (h_effect : Effect y.engine y'.engine evs)
    (h_issued : y.engine.issued ≤ y'.engine.issued) (h_ev : .granted t ∈ evs) : y'.Withdrawn t := by
  obtain ⟨h_id, h_queues⟩ := h.forall_queues_of_event (P := (·.Withdrawn t)) h_effect h_issued h_ev
    (.inl rfl) (fun q op h_once h_ev => (q.change op).withdrawn_of_granted h_ev h_once)
    fun q h_no => GroupQueue.withdrawn_of_absent h_no
  exact ⟨h_id, h_queues⟩

/-- **An end is the end in every queue.** -/
theorem gone_of_ended (h : y.Ordered) (h_effect : Effect y.engine y'.engine evs)
    (h_issued : y.engine.issued ≤ y'.engine.issued) {status : TaskStatus} (h_ev : .ended t status ∈ evs) :
    y'.Gone t := by
  obtain ⟨h_id, h_queues⟩ := h.forall_queues_of_event (P := (·.Gone t)) h_effect h_issued h_ev
    (.inr ⟨status, rfl⟩) (fun q op h_once h_ev => (q.change op).gone_of_ended h_ev h_once)
    fun q h_no => GroupQueue.gone_of_absent h_no
  exact ⟨h_id, h_queues⟩

end Ordered

/-! ### What the log says -/

/-- What was granted holds, and nothing that is written behind a grant goes against it. -/
structure Settled (y : Yard) : Prop where
  /-- A task whose cancellation was granted is withdrawn. -/
  withdrawn : ∀ t, .granted t ∈ y.log → y.Withdrawn t
  /-- A task that came to its end is gone. -/
  gone : ∀ t status, .ended t status ∈ y.log → y.Gone t
  /-- Behind the grant of a cancellation nothing goes against it. -/
  order : ∀ l₁ l₂ t, y.log = l₁ ++ .granted t :: l₂ → ∀ ev ∈ l₂, ¬ ev.Defies t
  /-- A task whose cancellation was granted comes to no end but that. -/
  ending : ∀ t status, .granted t ∈ y.log → .ended t status ∈ y.log → status = .cancelled
  /-- It has come to that end, or it is still running. -/
  remains : ∀ t, .granted t ∈ y.log →
    .ended t .cancelled ∈ y.log ∨ ∃ p u, y.engine.RunsAt p u ∧ u.id = t

namespace Settled

theorem idle (settings : EngineSettings) : (Yard.idle settings).Settled where
  withdrawn := fun _ h => absurd h List.not_mem_nil
  gone := fun _ _ h => absurd h List.not_mem_nil
  order := fun l₁ l₂ t h => absurd h (by simp [Yard.idle])
  ending := fun _ _ h => absurd h List.not_mem_nil
  remains := fun _ h => absurd h List.not_mem_nil

/-- The grants of one move: what it writes behind them does not go against them. -/
theorem order_effect (h_effect : Effect y.engine y'.engine evs) (l₁ l₂ : List Event)
    (h_evs : evs = l₁ ++ .granted t :: l₂) : ∀ ev ∈ l₂, ¬ ev.Defies t := by
  have h_mem : .granted t ∈ evs := by simp [h_evs]
  cases h_effect with
  | created | quiet => exact absurd h_mem List.not_mem_nil
  | called => simp at h_mem
  | operated p q op h_at h_new h_queues =>
    -- the grant is the first event, and the others are harmless
    obtain ⟨rest, h_tells, h_rest⟩ : ∃ rest, q.tells op = .granted t :: rest ∧
        ∀ ev ∈ rest, ¬ ev.Defies t := by
      obtain h_tells | ⟨u, h_tells, -⟩ := (q.change op).granted_cases h_mem
      · refine ⟨_, h_tells, fun ev h_ev => ?_⟩
        rw [List.mem_singleton.mp h_ev]
        exact fun h => h.2 rfl
      · refine ⟨_, h_tells, fun ev h_ev => ?_⟩
        obtain ⟨k, -, rfl⟩ := List.mem_map.mp h_ev
        exact fun h => h
    intro ev h_ev
    refine h_rest ev ?_
    rw [h_tells] at h_evs
    cases l₁ with
    | nil =>
      rw [(List.cons.inj h_evs).2]
      exact h_ev
    | cons a l₁ =>
      rw [(List.cons.inj h_evs).2]
      exact List.mem_append_right _ (List.mem_cons_of_mem _ h_ev)

/-- A running task stays the running one of its queue, unless it comes to its end or is queued again. -/
theorem runsAt_effect (h_effect : Effect y.engine y'.engine evs) {p : ℕ} {u : Task}
    (h_u : y.engine.RunsAt p u) :
    (∃ v, y'.engine.RunsAt p v ∧ v.id = u.id) ∨ (∃ status, .ended u.id status ∈ evs) ∨
      .queued u.id ∈ evs := by
  cases h_effect with
  | operated p' q op h_at h_new h_queues =>
    by_cases h_eq : p = p'
    · obtain ⟨q', h_at', h_run⟩ := h_u
      rw [h_eq, h_at] at h_at'
      cases h_at'
      -- what becomes of a running task is known of each operation
      refine ((q.change op).running_fate h_run).imp_left fun ⟨v, h_v, h_id⟩ => ⟨v, ?_, h_id⟩
      exact (Engine.runsAt_update h_queues).mpr (.inl ⟨h_eq, h_v⟩)
    · exact .inl ⟨u, (Engine.runsAt_update h_queues).mpr (.inr ⟨h_eq, h_u⟩), rfl⟩
  | created p' id name limit policy h_free h_queues =>
    refine .inl ⟨u, (Engine.runsAt_update h_queues).mpr (.inr ⟨?_, h_u⟩), rfl⟩
    -- a new queue has a place of its own
    rintro rfl
    obtain ⟨q, h_at, -⟩ := h_u
    rw [h_free] at h_at
    cases h_at
  | called r h_r h_awake request h_queues =>
    exact .inl ⟨u, by unfold Engine.RunsAt; rw [h_queues]; exact h_u, rfl⟩
  | quiet h_queues => exact .inl ⟨u, by unfold Engine.RunsAt; rw [h_queues]; exact h_u, rfl⟩

variable {l₁ l₂ : List Event} {status : TaskStatus}

/-- What a move writes down behind an earlier grant does not go against it either. -/
theorem order_append (h_set : y.Settled) (h : y.Ordered) (h_effect : Effect y.engine y'.engine evs)
    (h_split : y.log ++ evs = l₁ ++ .granted t :: l₂) : ∀ ev ∈ l₂, ¬ ev.Defies t := by
  rcases List.append_eq_append_iff.mp h_split with ⟨c, rfl, h_evs⟩ | ⟨a, h_old, h_rest⟩
  · -- the grant is one of this move
    exact order_effect h_effect c l₂ h_evs
  · cases a with
    | nil => exact order_effect h_effect [] l₂ h_rest.symm
    | cons b a =>
      -- the grant is an earlier one: behind it are the rest of the old log and all of the move
      obtain ⟨rfl, rfl⟩ := List.cons.inj h_rest
      intro ev h_ev
      rcases List.mem_append.mp h_ev with h_ev | h_ev
      · exact h_set.order l₁ a t h_old ev h_ev
      · exact (h_set.withdrawn t (by simp [h_old])).quiet h h_effect ev h_ev

/-- No move gives another end to a task whose cancellation was granted. -/
theorem ending_append (h_set : y.Settled) (h : y.Ordered) (h_effect : Effect y.engine y'.engine evs)
    (h_t : .granted t ∈ y.log ++ evs) (h_end : .ended t status ∈ y.log ++ evs) : status = .cancelled := by
  rcases List.mem_append.mp h_t with h_t | h_t
  · rcases List.mem_append.mp h_end with h_end | h_end
    · exact h_set.ending t status h_t h_end
    · by_contra h_status
      exact (h_set.withdrawn t h_t).quiet h h_effect _ h_end ⟨rfl, h_status⟩
  · rcases List.mem_append.mp h_end with h_end | h_end
    · -- a task that came to its end is not cancelled any more
      exact absurd rfl ((h_set.gone t status h_end).quiet h_effect _ h_t)
    · -- both are of this move
      cases h_effect with
      | created | quiet => exact absurd h_t List.not_mem_nil
      | called => simp at h_t
      | operated p q op h_at h_new h_queues =>
        obtain h_tells | ⟨u, h_tells, -⟩ := (q.change op).granted_cases h_t
        · simpa [h_tells] using h_end
        · simp [h_tells] at h_end

/-- After a move too a task whose cancellation was granted has come to its end or is still running. -/
theorem remains_append (h_set : y.Settled) (h : y.Ordered) (h_effect : Effect y.engine y'.engine evs)
    (h_t : .granted t ∈ y.log ++ evs) :
    .ended t .cancelled ∈ y.log ++ evs ∨ ∃ p u, y'.engine.RunsAt p u ∧ u.id = t := by
  rcases List.mem_append.mp h_t with h_t | h_t
  · rcases h_set.remains t h_t with h_end | ⟨p, u, h_u, rfl⟩
    · exact .inl (List.mem_append_left _ h_end)
    · -- it was running: it is not queued again, and no other end than as cancelled is left for it
      have h_quiet := (h_set.withdrawn u.id h_t).quiet h h_effect
      obtain ⟨v, h_v, h_id⟩ | ⟨status, h_end⟩ | h_queued := runsAt_effect h_effect h_u
      · exact .inr ⟨p, v, h_v, h_id⟩
      · by_cases h_status : status = .cancelled
        · exact .inl (List.mem_append_right _ (h_status ▸ h_end))
        · exact absurd ⟨rfl, h_status⟩ (h_quiet _ h_end)
      · exact absurd rfl (h_quiet _ h_queued)
  · cases h_effect with
    | created | quiet => exact absurd h_t List.not_mem_nil
    | called => simp at h_t
    | operated p q op h_at h_new h_queues =>
      -- a waiting task ends with the grant, and a running one is only marked
      obtain h_tells | ⟨u, -, h_run, h_id⟩ := (q.change op).granted_cases h_t
      · exact .inl (List.mem_append_right _ (by simp [h_tells]))
      · exact .inr ⟨p, u, (Engine.runsAt_update h_queues).mpr (.inl ⟨rfl, h_run⟩), h_id⟩

/-- **Every move** of an ordered yard keeps to what was granted. -/
theorem step (h_set : y.Settled) (h : y.Ordered) (m : Move) : (y.step m).Settled := by
  obtain ⟨evs, h_log, h_issued, h_effect⟩ := h.effect m
  -- each part for what was told before, by its own step, and for what is told now
  exact
  { withdrawn := fun t h_t => by
      rcases List.mem_append.mp (h_log ▸ h_t) with h_t | h_t
      · exact (h_set.withdrawn t h_t).step h_effect h_issued
      · exact h.withdrawn_of_granted h_effect h_issued h_t
    gone := fun t status h_t => by
      rcases List.mem_append.mp (h_log ▸ h_t) with h_t | h_t
      · exact (h_set.gone t status h_t).step h_effect h_issued
      · exact h.gone_of_ended h_effect h_issued h_t
    order := fun l₁ l₂ t h_split => h_set.order_append h h_effect (h_log ▸ h_split)
    ending := fun t status h_t h_end => h_set.ending_append h h_effect (h_log ▸ h_t) (h_log ▸ h_end)
    remains := fun t h_t => by
      rw [h_log]
      exact h_set.remains_append h h_effect (h_log ▸ h_t) }

/-- Every run keeps to what was granted. -/
theorem run (h_set : y.Settled) (h : y.Ordered) (moves : List Move) : (y.run moves).Settled := by
  induction moves generalizing y with
  | nil => exact h_set
  | cons m moves ih => exact ih (h_set.step h m) (h.step m)

end Settled

/-- **No cancellation is lost.** After any moves of an engine, whatever their order:

Behind the grant of a cancellation of a task there is no second one, the task is not queued or started,
and no call begins for it. If a cancellation of a task was granted, every end of the task is as
cancelled; no queue lets it wait, where it is running it is marked, and where it is remembered it is
cancelled; and it can still come to that end. A token that a queue holds for its running task was fired
exactly if the task is marked, and then the run of the token is cancelled. -/
theorem no_cancellation_is_lost (settings : EngineSettings) (moves : List Move) :
    let y := (Yard.idle settings).run moves
    (∀ t before after, y.log = before ++ .granted t :: after →
      .granted t ∉ after ∧ .queued t ∉ after ∧ .started t ∉ after ∧
        ∀ request, .called (some t) request ∉ after) ∧
    (∀ t, .granted t ∈ y.log →
      (∀ status, .ended t status ∈ y.log → status = .cancelled) ∧
      (∀ p q, y.engine.queueAt p = some q → (∀ u ∈ q.pending, u.id ≠ t) ∧
        (∀ u ∈ q.running, u.id = t → u.cancelRequested = true) ∧
        ∀ u ∈ q.history, u.id = t → u.status = .cancelled) ∧
      ∃ more, .ended t .cancelled ∈ (y.run more).log) ∧
    ∀ p u k, y.engine.RunsAt p u → u.token = some k →
      (.fired k ∈ y.log ↔ u.cancelRequested = true) ∧
        ∃ r ∈ y.engine.runs, r.number = k.number ∧ r.place = some p ∧
          (u.cancelRequested = true → r.context.cancelled = true) := by
  intro y
  have h : y.Ordered := (Ordered.idle settings).run moves
  have h_set : y.Settled := (Settled.idle settings).run (Ordered.idle settings) moves
  refine ⟨fun t before after h_log => ?_, fun t h_t => ⟨?_, fun p q h_at => ?_, ?_⟩,
    fun p u k h_u h_k => ⟨(h.tended p).fired u k h_u h_k, ?_⟩⟩
  · -- each of these events would go against the grant
    have h_quiet := h_set.order before after t h_log
    exact ⟨fun h_mem => h_quiet _ h_mem rfl, fun h_mem => h_quiet _ h_mem rfl,
      fun h_mem => h_quiet _ h_mem rfl, fun request h_mem => h_quiet _ h_mem rfl⟩
  · exact fun status => h_set.ending t status h_t
  · have h_with := (h_set.withdrawn t h_t).queues p q h_at
    exact ⟨h_with.pending, h_with.running, h_with.history⟩
  · -- where it is still running, its run can be taken to its end
    rcases h_set.remains t h_t with h_end | ⟨p, u, h_u, rfl⟩
    · exact ⟨[], h_end⟩
    · obtain ⟨more, h_more⟩ := h.exists_end h_u
      have h_set' : (y.run more).Settled := h_set.run h more
      refine ⟨more, ?_⟩
      rcases h_set'.remains u.id (log_subset h more h_t) with h_end | ⟨p', v, h_v, h_id⟩
      · exact h_end
      · exact absurd h_id (h_more p' v h_v)
  · -- the token leads to the run, and the run to the mark of its task
    obtain ⟨r, h_r, h_place, h_number⟩ := h.run_of_token h_u h_k
    obtain ⟨v, h_v, -, -, -, h_stop⟩ := (h.tended p).placed r h_r h_place
    cases h_v.unique h_u
    exact ⟨r, h_r, h_number, h_place, h_stop⟩

/-- The cancellation of a task that was given out and is not launched yet. The run that is launched for it
looks at the cancellation first, and makes no call. -/
example :
    ((idle {}).run [.createGroup "g" "G",
      .submit 0 { id := "", group := "g", script := "s", actions := [.call ⟨"dev", "tap", [], none⟩ none],
                  createdAt := .ofMillis 0 },
      .handOut 0 (.ofMillis 0), .cancel 0 (Engine.idText 0) (.ofMillis 1), .launch 0 {}, .begin 1 {},
      .work 1 0, .finish 1 {}]).log =
    [.queued (Engine.idText 0), .started (Engine.idText 0), .granted (Engine.idText 0), .fired ⟨1⟩,
      .ended (Engine.idText 0) .cancelled] := by
  decide

end Yard

end ScriptYard
