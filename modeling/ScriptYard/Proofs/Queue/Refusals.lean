import ScriptYard.Proofs.Queue.Settlement

/-!
# What a refused operation of a queue leaves behind

A `GroupQueue` answers an operation with a queue or with a refusal, and a refusal brings no queue that could differ from
the one before. Carried out, the operations are steps that change the queue in place. The end of a run takes the running
task out before it looks at its id, and has to put it back where that is another one; what is to be retried is queued by
the operation that refuses tasks of other groups, when its old place is already empty; a cancellation fires a token.

`GroupQueue.Procedure` is this second reading, with the tokens that were fired written down. The two readings agree
(`GroupQueue.Procedure.enqueue_apply` and the lemmas behind it), the end of a run under one condition: the running task
has to be of the group of its queue, for else its retry is refused, and the task is lost. So it is in every queue that
began empty (`GroupQueue.Roomy`). `GroupQueue.Procedure.refusals_change_nothing` says for each operation when it is
refused, and that nothing at all is changed then.
-/

namespace ScriptYard

/-! ### Steps that are not undone -/

namespace Steps

variable {σ α β : Type}

@[simp] theorem pure_apply (a : α) (s : σ) : (pure a : ExceptT EngineError (StateM σ) α) s = (.ok a, s) := rfl

@[simp] theorem throw_apply (err : EngineError) (s : σ) :
    (throw err : ExceptT EngineError (StateM σ) α) s = (.error err, s) := rfl

@[simp] theorem liftM_apply (r : Except EngineError α) (s : σ) :
    (liftM r : ExceptT EngineError (StateM σ) α) s = (r, s) := by
  cases r <;> rfl

@[simp] theorem get_apply (s : σ) : (get : ExceptT EngineError (StateM σ) σ) s = (.ok s, s) := rfl

@[simp] theorem modify_apply (f : σ → σ) (s : σ) :
    (modify f : ExceptT EngineError (StateM σ) Unit) s = (.ok (), f s) := rfl

@[simp] theorem bind_apply (x : ExceptT EngineError (StateM σ) α) (f : α → ExceptT EngineError (StateM σ) β) (s : σ) :
    (x >>= f) s = match x s with
      | (.ok a, s') => f a s'
      | (.error err, s') => (.error err, s') := by
  simp only [bind, ExceptT.bind, ExceptT.mk, StateT.bind, ExceptT.bindCont]
  cases x s with
  | mk r s' => cases r <;> rfl

@[simp] theorem map_apply (f : α → β) (x : ExceptT EngineError (StateM σ) α) (s : σ) :
    (f <$> x : ExceptT EngineError (StateM σ) β) s = (x s).map (Except.map f) id := by
  simp only [Functor.map, ExceptT.map, ExceptT.mk, bind, StateT.bind]
  cases x s with
  | mk r s' => cases r <;> rfl

end Steps

/-- The token that is fired. -/
def Event.token? : Event → Option CancelToken
  | .fired token => some token
  | _ => none

namespace GroupQueue

/-- A queue that is changed in place, and the tokens that it fired. -/
structure Desk where
  queue : GroupQueue
  /-- The tokens, in the order of time. -/
  fired : List CancelToken

/-- The tokens that are fired in some events. -/
def firedIn (evs : List Event) : List CancelToken := evs.filterMap Event.token?

@[simp] theorem firedIn_nil : firedIn [] = [] := rfl

@[simp] theorem firedIn_cons (ev : Event) (evs : List Event) :
    firedIn (ev :: evs) = ev.token?.toList ++ firedIn evs := by
  unfold firedIn
  cases h : ev.token? <;> simp [h]

@[simp] theorem firedIn_map_fired (tokens : List CancelToken) : firedIn (tokens.map .fired) = tokens := by
  induction tokens with
  | nil => rfl
  | cons token tokens ih => simp [ih, Event.token?]

/-- The queue after an operation, with the tokens that were fired in it. -/
def Desk.follow (d : Desk) (op : QueueOp) : Desk := ⟨d.queue.after op, d.fired ++ firedIn (d.queue.tells op)⟩

/-- Steps that change a queue one after the other. The first that is refused ends them; what the steps before it did
stays done. -/
abbrev Procedure (α : Type) : Type := ExceptT EngineError (StateM Desk) α

namespace Procedure

def look : Procedure GroupQueue := do return (← get).queue

def change (f : GroupQueue → GroupQueue) : Procedure Unit := modify fun d => { d with queue := f d.queue }

/-- Puts a task into the place of the running one, or leaves the place empty. -/
def putRunning (t : Option Task) : Procedure Unit := change fun q => { q with running := t }

/-- Takes the running task out of its place. -/
def takeRunning : Procedure (Option Task) := do
  let q ← look
  putRunning none
  return q.running

def fire (token : CancelToken) : Procedure Unit := modify fun d => { d with fired := d.fired ++ [token] }

/-! ### The operations step by step -/

/-- Queues a task, which has to be of the queue's group. -/
def enqueue (t : Task) : Procedure Unit := do
  let q ← look
  unless t.group = q.id do throw (.groupNotFound t.group)
  change fun q => { q with pending := insertByPriority { t with status := .pending } q.pending }

/-- Takes out the first task that is due, and starts it. -/
def dequeue (now : Instant) : Procedure (Option Task) := do
  let q ← look
  if q.enabled && q.running.isNone then
    match takeFirst (·.isDue now) q.pending with
    | some (t, rest) =>
      change fun q => { q with pending := rest }
      putRunning (some (t.started now))
      return some (t.started now)
    | none => return none
  else return none

/-- Writes the run into the record of the running task, fires the token if the task was to be cancelled before, and
writes the token down. -/
def attach (task run : String) (token : CancelToken) : Procedure Bool := do
  let q ← look
  match q.running with
  | some t =>
    if t.id = task then
      putRunning (some { t with run := some run })
      if t.cancelRequested then fire token
      putRunning (some (t.attached run token))
      return t.cancelRequested
    else return false
  | none => return false

/-- Puts a task that was taken out of the place of the running one where it belongs now. -/
def settle (t : Task) (outcome : TaskOutcome) (now : Instant) : Procedure Disposition := do
  if t.cancelRequested then
    change (·.archive ({ t with lastError := some "cancelled" }.ended .cancelled now))
    return .cancelled
  match outcome with
  | .succeeded v =>
    change (·.archive ({ t with result := some v }.ended .completed now))
    return .completed
  | .cancelled =>
    change (·.archive ({ t with lastError := some "cancelled" }.ended .cancelled now))
    return .cancelled
  | .failed f =>
    let q ← look
    if t.retryCount < t.maxRetries && q.retryPolicy.allows f.kind then
      enqueue (q.requeued { t with lastError := some f.error } now)
      return .retrying (t.retryCount + 1)
    else
      change (·.archive ({ t with lastError := some f.error }.ended .failed now))
      return .failed

/-- Takes the running task out, and puts it back if its id is another one. -/
def complete (task : String) (outcome : TaskOutcome) (now : Instant) : Procedure Disposition := do
  let taken ← takeRunning
  match taken.filter (·.id == task) with
  | some t => settle t outcome now
  | none =>
    putRunning taken
    throw (.taskNotFound task)

/-- Takes a task that waits out and remembers it as cancelled, or marks the running one and fires its token. -/
def cancel (task : String) (now : Instant) : Procedure (Option CancelOutcome) := do
  let q ← look
  match takeFirst (·.id == task) q.pending with
  | some (t, rest) =>
    change fun q => { q with pending := rest }
    change (·.archive (withdrawn t now))
    return some .removed
  | none =>
    match q.running.filter fun t => t.id == task && !t.cancelRequested with
    | some t =>
      putRunning (some { t with cancelRequested := true })
      t.token.forM fire
      return some (.requested t.run t.token)
    | none => return none

/-! ### The operations step by step are the operations -/

variable (d : Desk)

@[simp] theorem look_apply : look d = (.ok d.queue, d) := rfl

@[simp] theorem change_apply (f : GroupQueue → GroupQueue) :
    change f d = (.ok (), { d with queue := f d.queue }) := rfl

@[simp] theorem fire_apply (token : CancelToken) : fire token d = (.ok (), { d with fired := d.fired ++ [token] }) := rfl

@[simp] theorem putRunning_apply (t : Option Task) :
    putRunning t d = (.ok (), { d with queue := { d.queue with running := t } }) := rfl

@[simp] theorem takeRunning_apply :
    takeRunning d = (.ok d.queue.running, { d with queue := { d.queue with running := none } }) := rfl

theorem enqueue_apply (t : Task) :
    enqueue t d = ((d.queue.enqueue t).map fun _ => (), d.follow (.enqueue t)) := by
  unfold enqueue Desk.follow GroupQueue.after GroupQueue.tells GroupQueue.enqueue
  by_cases h_group : t.group = d.queue.id <;> simp [h_group, Except.map, Event.token?]

theorem dequeue_apply (now : Instant) :
    dequeue now d = (.ok ((d.queue.dequeue now).map (·.1)), d.follow (.dequeue now)) := by
  unfold dequeue Desk.follow GroupQueue.after GroupQueue.tells GroupQueue.dequeue
  by_cases h_on : d.queue.enabled = true ∧ d.queue.running = none
  · cases h_take : takeFirst (·.isDue now) d.queue.pending <;> simp [h_on, h_take, Except.map, Event.token?]
  · simp [h_on]

theorem attach_apply (i run : String) (token : CancelToken) :
    attach i run token d = (.ok (d.queue.attach i run token).1, d.follow (.attach i run token)) := by
  unfold attach Desk.follow GroupQueue.after GroupQueue.tells GroupQueue.attach
  cases h_run : d.queue.running with
  | none => simp [h_run]
  | some u =>
    by_cases h_id : u.id = i
    · cases h_req : u.cancelRequested <;> simp [h_run, h_id, h_req, Except.map, Event.token?, Task.attached]
    · simp [h_run, h_id]

theorem cancel_apply (i : String) (now : Instant) :
    cancel i now d = (.ok ((d.queue.cancel i now).map (·.1)), d.follow (.cancel i now)) := by
  unfold cancel Desk.follow GroupQueue.after GroupQueue.tells GroupQueue.cancel
  cases h_take : takeFirst (·.id == i) d.queue.pending with
  | some r => simp [h_take, Except.map, Event.token?]
  | none =>
    unfold cancelRunning
    cases h_run : d.queue.running with
    | none => simp [h_run, h_take]
    | some u =>
      by_cases h_match : u.id = i ∧ u.cancelRequested = false
      · cases h_token : u.token <;> simp [h_run, h_take, h_match, h_token, Option.filter, Except.map, Event.token?]
      · simp [h_run, h_take, h_match, Option.filter]

/-- A task that is not running is left alone: what was taken out is put back. -/
theorem complete_of_absent {i : String} (h : ∀ u ∈ d.queue.running, u.id ≠ i) (outcome : TaskOutcome) (now : Instant) :
    complete i outcome now d = (.error (.taskNotFound i), d) := by
  have h_filter : d.queue.running.filter (·.id == i) = none := by
    rw [Option.filter_eq_none_iff]
    exact fun u h_u h_id => h u h_u (beq_iff_eq.mp h_id)
  simp [complete, h_filter]

/-- The running task is settled in a queue that has no running task any more. -/
theorem complete_of_running {u : Task} (h_run : d.queue.running = some u) (outcome : TaskOutcome) (now : Instant) :
    complete u.id outcome now d = settle u outcome now { d with queue := { d.queue with running := none } } := by
  simp [complete, h_run, Option.filter]

/-- **The end of a run, step by step.** It is what it is at once, if the running task is of the group of the queue. -/
theorem complete_apply (h_group : ∀ u ∈ d.queue.running, u.group = d.queue.id) (i : String) (outcome : TaskOutcome)
    (now : Instant) : complete i outcome now d =
      ((d.queue.complete i outcome now).map (·.1), d.follow (.complete i outcome now)) := by
  cases h_run : d.queue.running with
  | none =>
    rw [complete_of_absent d (by simp [h_run])]
    simp [Desk.follow, GroupQueue.after, GroupQueue.tells, GroupQueue.complete, h_run, Except.map]
  | some u =>
    have h_u := h_group u h_run
    by_cases h_id : u.id = i
    · subst h_id
      rw [complete_of_running d h_run]
      unfold settle Desk.follow GroupQueue.after GroupQueue.tells GroupQueue.complete
      -- the steps take the task out first and judge it then; the verdict decides what they do with it
      cases h_req : u.cancelRequested with
      | true => simp [h_run, h_req, Except.map, Event.token?]
      | false =>
        cases outcome with
        | succeeded v => simp [h_run, h_req, Except.map, Event.token?]
        | cancelled => simp [h_run, h_req, Except.map, Event.token?]
        | failed f =>
          by_cases h_again : u.retryCount < u.maxRetries ∧ d.queue.retryPolicy.allows f.kind = true
          · simp [h_run, h_req, h_again, GroupQueue.retry, enqueue, GroupQueue.enqueue, GroupQueue.requeued, h_u, Except.map,
              Event.token?]
          · simp [h_run, h_req, h_again, Except.map, Event.token?]
    · -- an id other than that of the running task changes nothing on both sides
      rw [complete_of_absent d (by simpa [h_run] using h_id)]
      simp [Desk.follow, GroupQueue.after, GroupQueue.tells, GroupQueue.complete, h_run, h_id, Except.map]

/-- A task that was taken out is refused only by a queue of another group. -/
theorem settle_eq_error {t : Task} {outcome : TaskOutcome} {now : Instant} {err : EngineError} {d d' : Desk}
    (h : settle t outcome now d = (.error err, d')) : t.group ≠ d.queue.id ∧ err = .groupNotFound t.group := by
  unfold settle at h
  cases h_req : t.cancelRequested with
  | true =>
    simp [h_req] at h
    cases h
  | false =>
    cases outcome with
    | succeeded v | cancelled =>
      simp [h_req] at h
      cases h
    | failed f =>
      -- only a retry puts the task back, and only that can be refused
      by_cases h_again : t.retryCount < t.maxRetries ∧ d.queue.retryPolicy.allows f.kind = true
      · by_cases h_group : t.group = d.queue.id
        · simp [h_req, h_again, enqueue, requeued, h_group] at h
          cases h
        · simp [h_req, h_again, enqueue, requeued, h_group] at h
          cases h
          exact ⟨h_group, rfl⟩
      · simp [h_req, h_again] at h
        cases h

/-- The end of a run is refused for an id that is not that of the running task, and for a running task of another group,
which is lost then. -/
theorem complete_eq_error {i : String} {outcome : TaskOutcome} {now : Instant} {err : EngineError} {d d' : Desk}
    (h : complete i outcome now d = (.error err, d')) :
    (d' = d ∧ err = .taskNotFound i ∧ ∀ u ∈ d.queue.running, u.id ≠ i) ∨
      ∃ u ∈ d.queue.running, u.id = i ∧ u.group ≠ d.queue.id ∧ err = .groupNotFound u.group := by
  by_cases h_absent : ∀ u ∈ d.queue.running, u.id ≠ i
  · rw [complete_of_absent d h_absent] at h
    cases h
    exact .inl ⟨rfl, rfl, h_absent⟩
  · simp only [not_forall, not_not] at h_absent
    obtain ⟨u, h_run, rfl⟩ := h_absent
    rw [complete_of_running d h_run] at h
    obtain ⟨h_group, h_err⟩ := settle_eq_error h
    exact .inr ⟨u, h_run, rfl, h_group, h_err⟩

/-! ### What is refused -/

/-- An answer that is a refusal, and what is said of the queue then. -/
theorem refused_iff {α : Type} {r r' : Except EngineError α} {P : Prop} {op : QueueOp} {d d' : Desk} (h : r = r' ↔ P)
    (h_same : P → d.follow op = d) : (r, d.follow op) = (r', d') ↔ d' = d ∧ P := by
  constructor
  · intro h_eq
    obtain ⟨h_r, rfl⟩ := Prod.mk.inj h_eq
    exact ⟨h_same (h.mp h_r), h.mp h_r⟩
  · rintro ⟨rfl, h_p⟩
    rw [h.mpr h_p, h_same h_p]

/-- **A refused operation of a queue changes nothing.** Carried out in steps that are not undone, on any queue:

* a task is refused exactly if it is of another group;
* no task is given out exactly if the queue is disabled, a task is running, or no task is due;
* a cancellation is refused exactly if no task of the id waits, and none is running or it is marked already;
* a run is not attached to a task that is not running;
* the end of a run is refused for an id that is not that of the running task;

and the queue and the tokens that were fired are then what they were. In a queue that began empty, the end of a run is
refused for no other reason. -/
theorem refusals_change_nothing (q : GroupQueue) (fired : List CancelToken) :
    let d : Desk := ⟨q, fired⟩
    (∀ t err d', enqueue t d = (.error err, d') ↔ d' = d ∧ err = .groupNotFound t.group ∧ t.group ≠ q.id) ∧
    (∀ now d', dequeue now d = (.ok none, d') ↔
      d' = d ∧ (q.enabled = false ∨ q.running ≠ none ∨ ∀ x ∈ q.pending, x.isDue now = false)) ∧
    (∀ id now d', cancel id now d = (.ok none, d') ↔
      d' = d ∧ (∀ x ∈ q.pending, x.id ≠ id) ∧ ∀ u ∈ q.running, u.id = id → u.cancelRequested = true) ∧
    (∀ id run token, (∀ u ∈ q.running, u.id ≠ id) → attach id run token d = (.ok false, d)) ∧
    (∀ id outcome now i d', complete id outcome now d = (.error (.taskNotFound i), d') ↔
      d' = d ∧ i = id ∧ ∀ u ∈ q.running, u.id ≠ id) ∧
    ∀ group name limit policy ops, q = (create group name limit policy).run ops →
      ∀ id outcome now err d', complete id outcome now d = (.error err, d') →
        d' = d ∧ err = .taskNotFound id ∧ ∀ u ∈ q.running, u.id ≠ id := by
  intro d
  refine ⟨fun t err d' => ?_, fun now d' => ?_, fun id now d' => ?_, fun id run token h => ?_,
    fun id outcome now i d' => ⟨fun h => ?_, ?_⟩, ?_⟩
  · rw [enqueue_apply]
    refine refused_iff ?_ fun ⟨_, h_group⟩ => ?_
    · by_cases h_group : t.group = q.id <;> simp [d, GroupQueue.enqueue, h_group, Except.map, eq_comm]
    · simp [d, Desk.follow, after, tells, GroupQueue.enqueue, h_group]
  · rw [dequeue_apply]
    refine refused_iff ?_ fun h => ?_
    · rw [Except.ok.injEq, Option.map_eq_none_iff, dequeue_eq_none_iff]
    · simp [d, Desk.follow, after, tells, dequeue_eq_none_iff.mpr h]
  · rw [cancel_apply]
    refine refused_iff ?_ fun h => ?_
    · rw [Except.ok.injEq, Option.map_eq_none_iff, cancel_eq_none_iff]
    · simp [d, Desk.follow, after, tells, cancel_eq_none_iff.mpr h]
  · obtain ⟨u, h_run, h_id, -⟩ | ⟨-, h_att⟩ := attach_cases q id run token
    · exact absurd h_id (h u h_run)
    · rw [attach_apply]
      simp [d, Desk.follow, after, tells, h_att]
  · -- the other refusal has the error of a group, not of a task
    rcases complete_eq_error h with ⟨rfl, h_err, h_absent⟩ | ⟨u, -, -, -, h_err⟩
    · exact ⟨rfl, by simpa using h_err, h_absent⟩
    · cases h_err
  · rintro ⟨rfl, rfl, h_absent⟩
    exact complete_of_absent _ h_absent outcome now
  · rintro group name limit policy ops rfl id outcome now err d' h
    -- in a reached queue the running task is of the group, which excludes the other refusal
    have h_roomy := (roomy_create group name limit policy).run ops
    rcases complete_eq_error h with h_refused | ⟨u, h_run, -, h_foreign, -⟩
    · exact h_refused
    · exact absurd (h_roomy.running u h_run) h_foreign

end Procedure

end GroupQueue

end ScriptYard
