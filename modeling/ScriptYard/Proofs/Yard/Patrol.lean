import ScriptYard.Proofs.Yard.Handlers
import ScriptYard.Proofs.Yard.Roll

/-!
# The watch over stalled runs

An engine is watched: from time to time somebody looks for runs that have stalled (`RunTable.stalled`), and
deals with each of them, one after the other. The script that the run names is looked up, then the queue of
its group, then a task is put into that queue, and then the run is told to stop. This is not done at once.
Between any two of these steps the engine may do something else: scripts and groups come and go, runs begin
and end, tasks are cancelled.

A `Patrol` is a yard with such a watch beside it. What happens in it is a `Watch`: a move of the engine, a
scan for stalled runs, which is made only when the stalls of the last one are dealt with, or the next step
for the stall at hand. `Patrol.Advance` says in one place what such a step can be.

`Patrol.Sober` is the invariant. A run that was found and is not among the errands any more is silenced for
good (`Yard.Silenced`). This is why no run is found twice, and so no two tasks are queued for one run. No
task is queued for a run of a task that was itself queued for a run, because such a task stays marked
(`Yard.Handled`), so that its runs name no script.
-/

namespace ScriptYard

/-! ### Patrols -/

/-- How far the watch has come with the stall at hand. -/
inductive Phase where
  /-- Nothing is done. -/
  | fresh
  /-- The script that the run names was found. -/
  | scripted (script : ScriptDefinition)
  /-- The place of the queue for it was found, too. -/
  | placed (script : ScriptDefinition) (place : ℕ)
  /-- All is done but to stop the run. -/
  | last

/-- The run at hand is one that names a script. -/
def Phase.asks : Phase → Bool
  | .scripted _ | .placed .. => true
  | .fresh | .last => false

/-- How many steps there are at most before the run is told to stop. -/
def Phase.left : Phase → ℕ
  | .fresh => 3
  | .scripted _ => 2
  | .placed .. => 1
  | .last => 0

/-- A yard, and a watch over its stalled runs. -/
structure Patrol where
  yard : Yard
  /-- The stalls of the last scan that are not dealt with, the one at hand first. -/
  errands : List Stall := []
  /-- How far the watch has come with the one at hand. -/
  phase : Phase := .fresh
  /-- All stalls that were ever found. -/
  found : List Stall := []
  /-- The tasks that were queued, each behind the run for which it was. -/
  sent : List (String × String) := []
  /-- The runs that have begun. -/
  began : List RunInfo := []

/-- What can happen in a yard with a watch. -/
inductive Watch where
  /-- A move of the yard. -/
  | other (m : Move)
  /-- A scan for runs without progress for longer than a threshold. Those that are found are dealt with in
  whatever order. -/
  | scan (threshold : Span) (now : Moment) (order : Stall → Stall → Bool)
  /-- The next step for the stall at hand. -/
  | proceed (now : Instant)

def Watch.isScan : Watch → Bool
  | .scan .. => true
  | _ => false

/-- It is a step for the stall at hand. -/
def Watch.isProceed : Watch → Bool
  | .proceed _ => true
  | _ => false

namespace Patrol

/-- Nothing has happened yet. -/
def idle (settings : EngineSettings) : Patrol := { yard := .idle settings }

/-- The task that is queued for a stall. -/
def errandTask (e : Engine) (script : ScriptDefinition) (stall : Stall) (now : Instant) : Task :=
  { e.taskOf script stall.run.group (some e.settings.exceptionPriority) now with isExceptionHandler := true }

/-- Submits a task for a stall to the queue at a place, and writes it down if the queue accepts it. -/
def post (p : Patrol) (stall : Stall) (place : ℕ) (task : Task) : Patrol :=
  let accepted := match p.yard.engine.queueAt place with
    | some q => q.accepts (.enqueue (task.fresh (Engine.idText p.yard.engine.issued)))
    | none => []
  { p with
    yard := p.yard.step (.submit place task)
    phase := .last
    sent := p.sent ++ accepted.map (stall.run.id, ·) }

/-- Tells the run of a stall to stop if it is live, and goes over to the rest of the errands. -/
def strike (p : Patrol) (stall : Stall) (rest : List Stall) : Patrol :=
  { p with
    yard := p.yard.step (.stop fun r => r.isLive && r.info.id == stall.run.id)
    errands := rest
    phase := .fresh }

/-- Takes the next step for the stall at hand. -/
def proceed (p : Patrol) (now : Instant) : Patrol :=
  match p.errands with
  | [] => p
  | stall :: rest =>
    -- whatever is not found, the run is told to stop in the end
    match p.phase with
    | .fresh => match stall.run.exceptionScript.bind fun id => (p.yard.engine.script id).toOption with
      | some script => { p with phase := .scripted script }
      | none => { p with phase := .last }
    | .scripted script => match p.yard.engine.place? stall.run.group with
      | some place => { p with phase := .placed script place }
      | none => { p with phase := .last }
    | .placed script place => p.post stall place (errandTask p.yard.engine script stall now)
    | .last => p.strike stall rest

/-- Looks for stalled runs, if there are no errands left. -/
def scan (p : Patrol) (threshold : Span) (now : Moment) (order : Stall → Stall → Bool) : Patrol :=
  match p.errands with
  | [] =>
    let stalls := (p.yard.engine.table.stalled threshold now).mergeSort order
    { p with errands := stalls, phase := .fresh, found := p.found ++ stalls }
  | _ :: _ => p

/-- What comes next. -/
def step (p : Patrol) : Watch → Patrol
  | .other m => { p with
      yard := p.yard.step m
      began := p.began ++ p.yard.entered m }
  | .scan threshold now order => p.scan threshold now order
  | .proceed now => p.proceed now

/-- What comes after some time. -/
def run (p : Patrol) (watches : List Watch) : Patrol := watches.foldl step p

/-- What comes after so many steps for stalls in a row. -/
def proceeds (p : Patrol) (n : ℕ) (now : Instant) : Patrol := p.run (List.replicate n (.proceed now))

/-- The errands for which no task was queued yet. -/
def waiting (p : Patrol) : List Stall :=
  match p.phase with
  | .last => p.errands.tail
  | _ => p.errands

/-- How many steps there are at most before all errands are done. -/
def toDo (p : Patrol) : ℕ :=
  match p.errands with
  | [] => 0
  | _ :: rest => p.phase.left + 1 + 4 * rest.length

/-- The run is not one of a task that was queued for a stall. -/
def isPlain (p : Patrol) (i : RunInfo) : Bool := i.task.all fun t => !(p.sent.map Prod.snd).contains t

/-! ### What a step for a stall can be -/

/-- What a step for the stall at hand does. -/
inductive Advance (p : Patrol) : Patrol → Prop where
  /-- There is none. -/
  | idle (h : p.errands = []) : p.Advance p
  /-- Something is looked up. If it is found, the run is one that names a script. -/
  | looked (stall : Stall) (rest : List Stall) (phase : Phase) (h_errands : p.errands = stall :: rest)
    (h_left : phase.left < p.phase.left)
    (h_asks : phase.asks = true → stall.run.exceptionScript.isSome = true) :
    p.Advance { p with phase := phase }
  /-- A marked task for the group of the run is submitted to a queue. -/
  | posted (stall : Stall) (rest : List Stall) (place : ℕ) (task : Task) (h_errands : p.errands = stall :: rest)
    (h_asks : p.phase.asks = true) (h_mark : task.isExceptionHandler = true)
    (h_group : task.group = stall.run.group) : p.Advance (p.post stall place task)
  /-- The run is told to stop, and the next stall is at hand. -/
  | struck (stall : Stall) (rest : List Stall) (h_errands : p.errands = stall :: rest)
    (h_phase : p.phase = .last) : p.Advance (p.strike stall rest)

/-- **Every step for a stall is such an advance**, in a patrol that asks for scripts only where the run
names one. -/
theorem advance (p : Patrol) (now : Instant)
    (h_asks : p.phase.asks = true → ∀ s ∈ p.errands.head?, s.run.exceptionScript.isSome = true) :
    p.Advance (p.proceed now) := by
  unfold proceed
  split
  · next h_errands => exact .idle h_errands
  · next stall rest h_errands =>
    rw [h_errands] at h_asks
    split
    · next h_phase =>
      split
      · next script h_some =>
        obtain ⟨id, h_id, -⟩ := Option.bind_eq_some_iff.mp h_some
        exact .looked stall rest _ h_errands (by simp [h_phase, Phase.left]) fun _ => by rw [h_id]; rfl
      · exact .looked stall rest _ h_errands (by simp [h_phase, Phase.left]) fun h => by cases h
    · next script h_phase =>
      -- the script was looked up because the run names one
      have h_named := h_asks (by rw [h_phase]; rfl) stall rfl
      split
      · exact .looked stall rest _ h_errands (by simp [h_phase, Phase.left]) fun _ => h_named
      · exact .looked stall rest _ h_errands (by simp [h_phase, Phase.left]) fun _ => h_named
    · next script place h_phase =>
      exact .posted stall rest place _ h_errands (by rw [h_phase]; rfl) rfl rfl
    · next h_phase => exact .struck stall rest h_errands h_phase

/-- What the submission of a task does: no run changes, and either no queue does and nothing is written
down, or one queue has accepted the task, and this is written down. -/
theorem post_cases (p : Patrol) (stall : Stall) (place : ℕ) (task : Task) :
    let t := task.fresh (Engine.idText p.yard.engine.issued)
    let p' := p.post stall place task
    p'.yard.engine.runs = p.yard.engine.runs ∧
      (p'.yard.engine.queueAt = p.yard.engine.queueAt ∧ p'.sent = p.sent ∨
        ∃ q, p.yard.engine.queueAt place = some q ∧ task.group = q.id ∧
          p'.yard.engine.queueAt = Function.update p.yard.engine.queueAt place (some (q.after (.enqueue t))) ∧
          p'.sent = p.sent ++ [(stall.run.id, t.id)]) := by
  intro t p'
  have h_p' : p' = p.post stall place task := rfl
  cases h_at : p.yard.engine.queueAt place with
  | none =>
    simp only [post, Yard.step, Yard.submit, Yard.operate, h_at, List.map_nil, List.append_nil] at h_p'
    rw [h_p']
    exact ⟨rfl, .inl ⟨rfl, rfl⟩⟩
  | some q =>
    -- a task that is queued fires no token, so that no run changes
    have h_quiet : ∀ k, .fired k ∉ q.tells (.enqueue t) := by
      intro k
      cases h_enq : q.enqueue t with
      | ok q' => simp [GroupQueue.tells, h_enq]
      | error err => simp [GroupQueue.tells, h_enq]
    have h_set : (p.yard.engine.setQueue place (q.after (.enqueue t))).queueAt = _ :=
      Engine.queueAt_setQueue h_at
    simp only [post, Yard.step, Yard.submit, Yard.operate, h_at] at h_p'
    rw [show task.fresh (Engine.idText p.yard.engine.issued) = t from rfl,
      Engine.stopFired_of_quiet _ h_quiet] at h_p'
    rw [h_p']
    refine ⟨rfl, ?_⟩
    cases h_enq : q.enqueue t with
    | ok q' =>
      obtain ⟨h_group, -⟩ := GroupQueue.enqueue_eq_ok_iff.mp h_enq
      refine .inr ⟨q, rfl, h_group, h_set, ?_⟩
      simp only [GroupQueue.accepts, h_enq]
      rfl
    | error err =>
      -- a queue that refuses stays as it was
      refine .inl ⟨?_, by simp [GroupQueue.accepts, h_enq]⟩
      refine Eq.trans h_set ?_
      have h_same : q.after (.enqueue t) = q := by simp only [GroupQueue.after, h_enq]
      rw [h_same, ← h_at, Function.update_eq_self]

/-- What is written down in the submission of a task, if anything, is its id behind that of the run. -/
theorem sent_post (p : Patrol) (stall : Stall) (place : ℕ) (task : Task) :
    (p.post stall place task).sent = p.sent ∨
      (p.post stall place task).sent = p.sent ++ [(stall.run.id, Engine.idText p.yard.engine.issued)] := by
  obtain ⟨-, ⟨-, h_sent⟩ | ⟨q, -, -, -, h_sent⟩⟩ := p.post_cases stall place task
  · exact .inl h_sent
  · exact .inr h_sent

theorem mem_sent_post {p : Patrol} {stall : Stall} {place : ℕ} {task : Task} {x : String × String}
    (h_x : x ∈ (p.post stall place task).sent) :
    x ∈ p.sent ∨ x = (stall.run.id, Engine.idText p.yard.engine.issued) := by
  rcases p.sent_post stall place task with h_sent | h_sent
  · exact .inl (h_sent ▸ h_x)
  · rw [h_sent] at h_x
    exact (List.mem_append.mp h_x).imp_right List.mem_singleton.mp

/-! ### The invariant -/

/-- What the watch has found and sent fits the runs of the yard. -/
structure Sober (p : Patrol) : Prop where
  ordered : p.yard.Ordered
  /-- The runs are known by the texts of their numbers. -/
  named : p.yard.Named
  /-- The runs that began are listed. -/
  roll : p.yard.Roll p.began
  /-- A run that was found has begun. -/
  found_began : ∀ s ∈ p.found, s.run ∈ p.began
  /-- The errands are the last stalls that were found. -/
  suffix : p.errands <:+ p.found
  /-- They are stalls of different runs. -/
  distinct : (p.errands.map (·.run.id)).Nodup
  /-- A script is looked up only for a run that names one. -/
  asks : p.phase.asks = true → ∀ s ∈ p.errands.head?, s.run.exceptionScript.isSome = true
  /-- A stall that was found is among the errands, or its run is silenced. -/
  silent : ∀ s ∈ p.found, s ∈ p.errands ∨ p.yard.Silenced s.run.id
  /-- For the errands that wait no task was queued. -/
  unsent : ∀ s ∈ p.waiting, s.run.id ∉ p.sent.map Prod.fst
  /-- No two tasks were queued for one run. -/
  once : (p.sent.map Prod.fst).Nodup
  /-- A task was queued only for a run that was found and names a script. -/
  senders : ∀ x ∈ p.sent, ∃ s ∈ p.found, s.run.id = x.1 ∧ s.run.exceptionScript.isSome = true
  /-- What was queued is marked. -/
  handled : ∀ x ∈ p.sent, p.yard.Handled x.2
  /-- A run of a task that was queued for a stall names no script. -/
  plain : ∀ i ∈ p.began, ∀ x ∈ p.sent, i.task = some x.2 → i.exceptionScript = none

variable {p : Patrol}

/-- Unless the stall at hand is all but over, all errands wait. -/
theorem waiting_eq (h : p.phase ≠ .last) : p.waiting = p.errands := by
  unfold waiting
  split
  · next h_last => exact absurd h_last h
  · rfl

theorem scan_eq (h : p.errands = []) (threshold : Span) (now : Moment) (order : Stall → Stall → Bool) :
    p.step (.scan threshold now order) = { p with
      errands := (p.yard.engine.table.stalled threshold now).mergeSort order
      phase := .fresh
      found := p.found ++ (p.yard.engine.table.stalled threshold now).mergeSort order } := by
  simp only [step, scan, h]

theorem mem_stalled {e : Engine} {threshold : Span} {now : Moment} {order : Stall → Stall → Bool} {s : Stall} :
    s ∈ (e.table.stalled threshold now).mergeSort order ↔ ∃ r ∈ e.runs, r.isLive = true ∧ r.context.cancelled = false ∧
      threshold < r.context.idle now ∧ s = ⟨r.info, r.context.idle now⟩ := by
  rw [List.mem_mergeSort]
  unfold RunTable.stalled Engine.table
  rw [List.filterMap_map, List.mem_filterMap]
  refine exists_congr fun r => and_congr_right fun _ => ?_
  -- the test of a record is the conjunction on the right side
  simp only [Function.comp_apply, TrackedRun.stall?, EngineRun.tracked]
  split
  · next h =>
    simp only [Bool.and_eq_true, Bool.not_eq_true', decide_eq_true_eq] at h
    obtain ⟨⟨h_live, h_awake⟩, h_idle⟩ := h
    constructor
    · intro h_s
      exact ⟨h_live, h_awake, h_idle, (Option.some.inj h_s).symm⟩
    · rintro ⟨-, -, -, rfl⟩
      rfl
  · next h =>
    constructor
    · intro h_s
      cases h_s
    · rintro ⟨h_live, h_awake, h_idle, -⟩
      exact absurd (by simp [h_live, h_awake, h_idle]) h

/-- A scan finds no run twice. -/
theorem nodup_stalled {y : Yard} (h : y.Ordered) (h_named : y.Named) (threshold : Span) (now : Moment)
    (order : Stall → Stall → Bool) :
    (((y.engine.table.stalled threshold now).mergeSort order).map (·.run.id)).Nodup := by
  have h_ids : (y.engine.runs.map (·.info.id)).Nodup := by
    refine List.Nodup.map_on (fun r h_r r' h_r' h_id => ?_) (List.Nodup.of_map _ h.sound.numbers)
    exact h_named.eq_of_id_eq h h_r h_r' h_id
  rw [((List.mergeSort_perm _ order).map _).nodup_iff]
  unfold RunTable.stalled Engine.table
  rw [List.filterMap_map, List.Nodup, List.pairwise_map, List.pairwise_filterMap]
  rw [List.Nodup, List.pairwise_map] at h_ids
  -- a stall has the id of its run
  have h_id : ∀ (r : EngineRun) s, r.tracked.stall? threshold now = some s → s.run.id = r.info.id := by
    intro r s h_s
    unfold TrackedRun.stall? at h_s
    split at h_s
    · cases h_s
      rfl
    · cases h_s
  refine h_ids.imp fun {r r'} h_ne s h_s s' h_s' => ?_
  rw [h_id r s h_s, h_id r' s' h_s']
  exact h_ne

namespace Sober

theorem idle (settings : EngineSettings) : (Patrol.idle settings).Sober where
  ordered := .idle settings
  named := fun _ h => absurd h List.not_mem_nil
  roll := ⟨fun _ h => absurd h List.not_mem_nil, fun _ h => absurd h List.not_mem_nil,
    fun _ h => absurd h List.not_mem_nil, List.nodup_nil, fun _ h => absurd h List.not_mem_nil⟩
  found_began := fun _ h => absurd h List.not_mem_nil
  suffix := List.nil_suffix
  distinct := List.nodup_nil
  asks := fun h => by cases h
  silent := fun _ h => absurd h List.not_mem_nil
  unsent := fun _ h => absurd h List.not_mem_nil
  once := List.nodup_nil
  senders := fun _ h => absurd h List.not_mem_nil
  handled := fun _ h => absurd h List.not_mem_nil
  plain := fun _ h => absurd h List.not_mem_nil

/-- **Every move** of the yard keeps a patrol sober. -/
theorem other (h : p.Sober) (m : Move) : (p.step (.other m)).Sober where
  ordered := h.ordered.step m
  named := h.named.step h.ordered m
  roll := h.roll.step h.ordered h.named m
  found_began := fun s h_s => List.mem_append_left _ (h.found_began s h_s)
  suffix := h.suffix
  distinct := h.distinct
  asks := h.asks
  -- a run that was silenced stays so, whatever the yard does
  silent := fun s h_s => (h.silent s h_s).imp_right fun h_quiet => h_quiet.step h.ordered m
  unsent := h.unsent
  once := h.once
  senders := h.senders
  handled := fun x h_x => (h.handled x h_x).step h.ordered m
  -- a run that begins has no task that a patrol has sent, which `handled` tells
  plain := fun i h_i x h_x h_task => by
    rcases List.mem_append.mp h_i with h_i | h_i
    · exact h.plain i h_i x h_x h_task
    · obtain ⟨r, h_r, rfl, -⟩ := (Yard.mem_entered h.ordered).mp h_i
      exact (h.handled x h_x).runs r h_r h_task

/-- **A scan** keeps a patrol sober. The runs of all earlier stalls are silenced by then, so that none of
them is found again. -/
theorem scan (h : p.Sober) (threshold : Span) (now : Moment) (order : Stall → Stall → Bool) :
    (p.step (.scan threshold now order)).Sober := by
  show (p.scan threshold now order).Sober
  unfold Patrol.scan
  split
  · next h_errands =>
    have h_silent : ∀ s ∈ p.found, p.yard.Silenced s.run.id := by
      intro s h_s
      rcases h.silent s h_s with h_s | h_s
      · rw [h_errands] at h_s
        exact absurd h_s List.not_mem_nil
      · exact h_s
    exact
    { ordered := h.ordered
      named := h.named
      roll := h.roll
      found_began := fun s h_s => by
        rcases List.mem_append.mp h_s with h_s | h_s
        · exact h.found_began s h_s
        · obtain ⟨r, h_r, h_live, -, -, rfl⟩ := mem_stalled.mp h_s
          exact h.roll.enrolled r h_r (Bool.and_eq_true_iff.mp h_live).1
      suffix := List.suffix_append _ _
      distinct := nodup_stalled h.ordered h.named threshold now order
      asks := fun h => by cases h
      silent := fun s h_s => by
        rcases List.mem_append.mp h_s with h_s | h_s
        · exact .inr (h_silent s h_s)
        · exact .inl h_s
      unsent := fun s h_s h_sent => by
        obtain ⟨x, h_x, h_id⟩ := List.mem_map.mp h_sent
        obtain ⟨s', h_s', h_run, -⟩ := h.senders x h_x
        obtain ⟨r, h_r, h_live, h_awake, -, rfl⟩ := mem_stalled.mp h_s
        -- a run for which a task was queued is silenced, and does not stall
        obtain ⟨-, h_quiet⟩ := (h_silent s' h_s').runs r h_r (h_id.symm.trans h_run.symm)
        rcases h_quiet with h_cancelled | h_end
        · rw [h_awake] at h_cancelled
          cases h_cancelled
        · have h_none := (Bool.and_eq_true_iff.mp h_live).2
          rw [Option.isNone_iff_eq_none.mp h_none] at h_end
          cases h_end
      once := h.once
      senders := fun x h_x => by
        obtain ⟨s, h_s, h_rest⟩ := h.senders x h_x
        exact ⟨s, List.mem_append_left _ h_s, h_rest⟩
      handled := h.handled
      plain := h.plain }
  · exact h

variable {stall : Stall} {rest : List Stall}

/-- A move in which no run begins adds nobody to those who began. -/
theorem step_other {m : Move} (h_m : p.yard.entered m = []) :
    p.step (.other m) = { p with yard := p.yard.step m } := by
  rw [Patrol.step, h_m, List.append_nil]

/-- **The submission of a marked task** keeps a patrol sober, if the run at hand names a script. -/
theorem post (h : p.Sober) (place : ℕ) {task : Task} (h_errands : p.errands = stall :: rest)
    (h_asks : p.phase.asks = true) (h_mark : task.isExceptionHandler = true) :
    (p.post stall place task).Sober := by
  have h_move := h.other (.submit place task)
  rw [step_other rfl] at h_move
  have h_open : p.waiting = p.errands := by
    refine waiting_eq fun h_last => ?_
    rw [h_last] at h_asks
    cases h_asks
  have h_head : stall ∈ p.errands := by simp [h_errands]
  have h_fresh : stall.run.id ∉ p.sent.map Prod.fst := h.unsent stall (h_open ▸ h_head)
  have h_script := h.asks h_asks stall (by simp [h_errands])
  have h_distinct := h.distinct
  rw [h_errands, List.map_cons, List.nodup_cons] at h_distinct
  exact
  { ordered := h_move.ordered
    named := h_move.named
    roll := h_move.roll
    found_began := h.found_began
    suffix := h.suffix
    distinct := h.distinct
    asks := fun h => by cases h
    silent := h_move.silent
    unsent := fun s h_s h_sent => by
      have h_s : s ∈ rest := by simpa [waiting, Patrol.post, h_errands] using h_s
      obtain ⟨x, h_x, h_id⟩ := List.mem_map.mp h_sent
      rcases mem_sent_post h_x with h_x | rfl
      · have h_wait : s ∈ p.waiting := by
          rw [h_open, h_errands]
          exact List.mem_cons_of_mem _ h_s
        exact h.unsent s h_wait (List.mem_map.mpr ⟨x, h_x, h_id⟩)
      · exact h_distinct.1 (List.mem_map.mpr ⟨s, h_s, h_id.symm⟩)
    once := by
      rcases p.sent_post stall place task with h_sent | h_sent
      · rw [h_sent]
        exact h.once
      · rw [h_sent, List.map_append, List.nodup_append]
        refine ⟨h.once, List.nodup_singleton _, ?_⟩
        rintro id h_id _ h_new rfl
        rw [List.mem_singleton.mp h_new] at h_id
        exact h_fresh h_id
    senders := fun x h_x => by
      rcases mem_sent_post h_x with h_x | rfl
      · exact h.senders x h_x
      · exact ⟨stall, h.suffix.subset h_head, rfl, h_script⟩
    handled := fun x h_x => by
      rcases mem_sent_post h_x with h_x | rfl
      · exact h_move.handled x h_x
      · exact .submitted h.ordered place h_mark
    plain := fun i h_i x h_x h_task => by
      rcases mem_sent_post h_x with h_x | rfl
      · exact h.plain i h_i x h_x h_task
      · -- no run that began is one of a task that did not exist
        exact absurd rfl (Yard.ne_of_issued (h.roll.tasks i h_i _ h_task)) }

/-- **The end of an errand** keeps a patrol sober. The run is silenced then, whatever became of its task. -/
theorem strike (h : p.Sober) (h_errands : p.errands = stall :: rest) (h_phase : p.phase = .last) :
    (p.strike stall rest).Sober := by
  have h_move := h.other (.stop fun r => r.isLive && r.info.id == stall.run.id)
  rw [step_other rfl] at h_move
  have h_found : stall ∈ p.found := h.suffix.subset (by simp [h_errands])
  -- the run began when it was found, so the stop reaches it
  have h_struck : (p.strike stall rest).yard.Silenced stall.run.id :=
    h.roll.silenced_stop (h.found_began stall h_found)
  have h_distinct := h.distinct
  rw [h_errands, List.map_cons, List.nodup_cons] at h_distinct
  exact
  { ordered := h_move.ordered
    named := h_move.named
    roll := h_move.roll
    found_began := h.found_began
    suffix := (List.suffix_cons stall rest).trans (h_errands ▸ h.suffix)
    distinct := h_distinct.2
    asks := fun h => by cases h
    silent := fun s h_s => by
      rcases h_move.silent s h_s with h_s | h_s
      · rw [show p.errands = stall :: rest from h_errands] at h_s
        rcases List.mem_cons.mp h_s with rfl | h_s
        · exact .inr h_struck
        · exact .inl h_s
      · exact .inr h_s
    -- in the last phase the stall itself no longer waits to be sent
    unsent := fun s h_s => by
      refine h.unsent s ?_
      rw [waiting, h_phase, h_errands]
      exact h_s
    once := h.once
    senders := h.senders
    handled := h_move.handled
    plain := h.plain }

/-- **Every step for a stall** keeps a patrol sober. -/
theorem proceed (h : p.Sober) (now : Instant) : (p.step (.proceed now)).Sober := by
  show (p.proceed now).Sober
  have h_advance := p.advance now h.asks
  -- what a step can do is known by `advance`; one case for each way
  generalize p.proceed now = p' at h_advance
  cases h_advance with
  | idle => exact h
  | looked stall rest phase h_errands h_left h_asks =>
    -- looking things up does not make anything wait that did not
    have h_wait : ∀ s ∈ ({ p with phase := phase } : Patrol).waiting, s ∈ p.waiting := by
      have h_open : p.waiting = p.errands := by
        refine waiting_eq fun h_last => ?_
        rw [h_last] at h_left
        exact absurd h_left (Nat.not_lt_zero _)
      rw [h_open]
      unfold waiting
      split
      · exact fun s h_s => List.mem_of_mem_tail h_s
      · exact fun s h_s => h_s
    exact { h with
      asks := fun h_ask s h_s => by
        rw [show p.errands = stall :: rest from h_errands] at h_s
        cases h_s
        exact h_asks h_ask
      unsent := fun s h_s => h.unsent s (h_wait s h_s) }
  | posted stall rest place task h_errands h_asks h_mark => exact h.post place h_errands h_asks h_mark
  | struck stall rest h_errands h_phase => exact h.strike h_errands h_phase

theorem step (h : p.Sober) (w : Watch) : (p.step w).Sober := by
  cases w with
  | other m => exact h.other m
  | scan threshold now order => exact h.scan threshold now order
  | proceed now => exact h.proceed now

theorem run (h : p.Sober) (watches : List Watch) : (p.run watches).Sober := by
  induction watches generalizing p with
  | nil => exact h
  | cons w watches ih => exact ih (h.step w)

end Sober

end Patrol

end ScriptYard
