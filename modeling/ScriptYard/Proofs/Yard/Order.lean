import ScriptYard.Proofs.Yard.Places

/-!
# The order of a yard

`Yard.Ordered` is the invariant of all moves. It ties together what the parts of an engine know of each
other: the queue with its running task and the token that it holds, the run with its number, and the tasks
that were given out and are not launched yet. Most of it is about one place at a time (`Yard.Tended`):

* A queue has a running task exactly if somebody is at work for it: the task was given out and is not
  launched, and then the queue holds no token, or there is one run of it, and then the queue holds the
  token of that run (`handed`, `placed`, `manned`). One of these at most, as a token tells which.
* A token that a queue holds was fired exactly if its task is marked as one to be cancelled, and then its
  run is cancelled (`fired`, `placed`).

Beside this the runs by themselves are as they should be (`SoundRuns`): what waits for the next step of a
run makes no call before it has looked at the cancellation.

Every move keeps a yard ordered (`Yard.Ordered.step`), and so does every run (`Yard.Ordered.run`). The
moves fall into few kinds: those that leave every queue its running task (`Yard.Ordered.adjust`), an
operation of a queue from outside, which marks the running task at most (`Yard.Ordered.outside`), and those
that pass a task on, from the queue to the scheduler (`Yard.Ordered.handOut`), from there to a run
(`Yard.Ordered.launch`), and back to the queue (`Yard.Ordered.finish`). A move of the last two kinds has its
place, which is tended afterwards in one of four ways (`Yard.Tended.marked`, `Yard.Tended.given`,
`Yard.Tended.launched`, `Yard.Tended.of_nothing`), and all others stay tended as they were
(`Yard.Tended.frame`).
-/

namespace ScriptYard

namespace Engine

/-- A task is the running one of the queue at a place. -/
def RunsAt (e : Engine) (place : ℕ) (u : Task) : Prop :=
  ∃ q, e.queueAt place = some q ∧ q.running = some u

theorem RunsAt.unique {e : Engine} {p : ℕ} {u v : Task} (h : e.RunsAt p u) (h' : e.RunsAt p v) :
    u = v := by
  obtain ⟨q, h_at, h_run⟩ := h
  obtain ⟨q', h_at', h_run'⟩ := h'
  rw [h_at] at h_at'
  cases h_at'
  rw [h_run] at h_run'
  exact Option.some.inj h_run'

theorem runsAt_update {e e' : Engine} {p p' : ℕ} {q' : GroupQueue} {u : Task}
    (h : e'.queueAt = Function.update e.queueAt p (some q')) :
    e'.RunsAt p' u ↔ p' = p ∧ q'.running = some u ∨ p' ≠ p ∧ e.RunsAt p' u := by
  unfold RunsAt
  rw [h, Function.update_apply]
  by_cases h_eq : p' = p
  · simp [h_eq]
  · simp [h_eq]

end Engine

/-- A run goes on as another record of it tells: it is the same run, a cancellation is not taken back,
and what is left to do stays steady. -/
structure EngineRun.Kept (r r' : EngineRun) : Prop where
  /-- The number is the same. -/
  number : r'.number = r.number
  /-- What is known of the run is the same. -/
  info : r'.info = r.info
  /-- The place of its queue is the same. -/
  place : r'.place = r.place
  /-- A cancellation is not taken back. -/
  cancelled : r.context.cancelled = true → r'.context.cancelled = true
  /-- What is left to do stays steady. -/
  steady : r.process.Steady → r'.process.Steady

namespace EngineRun.Kept

theorem refl (r : EngineRun) : r.Kept r := ⟨rfl, rfl, rfl, fun h => h, fun h => h⟩

theorem cancel (r : EngineRun) : r.Kept r.cancel := ⟨rfl, rfl, rfl, fun _ => rfl, fun h => h⟩

end EngineRun.Kept

/-- The runs of an engine, taken by themselves. -/
structure SoundRuns (runs : List EngineRun) (issued : ℕ) : Prop where
  /-- No two runs have the same number. -/
  numbers : (runs.map (·.number)).Nodup
  /-- The numbers of runs were issued. -/
  issued_numbers : ∀ r ∈ runs, r.number < issued
  /-- A run makes no call before it has looked at the cancellation. -/
  steady : ∀ r ∈ runs, r.process.Steady
  /-- A run without a queue has no task. -/
  placeless : ∀ r ∈ runs, r.place = none → r.info.task = none

namespace SoundRuns

variable {runs : List EngineRun} {issued issued' : ℕ} {r r' : EngineRun}

theorem eq_of_number_eq (h : SoundRuns runs issued) (h_r : r ∈ runs) (h_r' : r' ∈ runs)
    (h_eq : r.number = r'.number) : r = r' :=
  List.inj_on_of_nodup_map h.numbers h_r h_r' h_eq

/-- A run that alone has a property is all that is left of the runs with it. -/
theorem filter_eq_singleton (h : SoundRuns runs issued) (h_r : r ∈ runs) {keep : EngineRun → Bool}
    (h_keep : keep r = true) (h_only : ∀ r' ∈ runs, keep r' = true → r' = r) : runs.filter keep = [r] := by
  have h_nodup : (runs.filter keep).Nodup := (List.Nodup.of_map _ h.numbers).filter _
  refine List.perm_singleton.mp ((List.perm_ext_iff_of_nodup h_nodup (List.nodup_singleton r)).mpr fun r' => ?_)
  rw [List.mem_filter, List.mem_singleton]
  constructor
  · rintro ⟨h_r', h_keep'⟩
    exact h_only r' h_r' h_keep'
  · rintro rfl
    exact ⟨h_r, h_keep⟩

theorem map (h : SoundRuns runs issued) {f : EngineRun → EngineRun} (h_kept : ∀ r ∈ runs, r.Kept (f r))
    (h_le : issued ≤ issued') : SoundRuns (runs.map f) issued' where
  numbers := by
    -- the numbers are those of before, as every run keeps its own
    have h_same : (runs.map f).map (·.number) = runs.map (·.number) := by
      rw [List.map_map]
      exact List.map_congr_left fun r h_r => (h_kept r h_r).number
    rw [h_same]
    exact h.numbers
  issued_numbers := fun r' h_r' => by
    obtain ⟨r, h_r, rfl⟩ := List.mem_map.mp h_r'
    rw [(h_kept r h_r).number]
    exact Nat.lt_of_lt_of_le (h.issued_numbers r h_r) h_le
  steady := fun r' h_r' => by
    obtain ⟨r, h_r, rfl⟩ := List.mem_map.mp h_r'
    exact (h_kept r h_r).steady (h.steady r h_r)
  placeless := fun r' h_r' h_none => by
    obtain ⟨r, h_r, rfl⟩ := List.mem_map.mp h_r'
    rw [(h_kept r h_r).info]
    exact h.placeless r h_r ((h_kept r h_r).place ▸ h_none)

/-- One more run, with the next number. -/
theorem append (h : SoundRuns runs issued) (h_number : r.number = issued) (h_steady : r.process.Steady)
    (h_placeless : r.place = none → r.info.task = none) : SoundRuns (runs ++ [r]) (issued + 1) where
  numbers := by
    rw [List.map_append, List.map_singleton, List.nodup_append]
    -- all numbers so far are below the next one
    refine ⟨h.numbers, List.nodup_singleton _, fun i h_i j h_j h_eq => ?_⟩
    obtain ⟨r', h_r', rfl⟩ := List.mem_map.mp h_i
    have h_lt := h.issued_numbers r' h_r'
    rw [h_eq, List.mem_singleton.mp h_j, h_number] at h_lt
    exact absurd h_lt (Nat.lt_irrefl issued)
  issued_numbers := fun r' h_r' => by
    rcases List.mem_append.mp h_r' with h_r' | h_r'
    · exact Nat.lt_succ_of_lt (h.issued_numbers r' h_r')
    · rw [List.mem_singleton.mp h_r', h_number]
      exact Nat.lt_succ_self _
  steady := fun r' h_r' => by
    rcases List.mem_append.mp h_r' with h_r' | h_r'
    · exact h.steady r' h_r'
    · exact List.mem_singleton.mp h_r' ▸ h_steady
  placeless := fun r' h_r' => by
    rcases List.mem_append.mp h_r' with h_r' | h_r'
    · exact h.placeless r' h_r'
    · exact List.mem_singleton.mp h_r' ▸ h_placeless

theorem filter (h : SoundRuns runs issued) (p : EngineRun → Bool) : SoundRuns (runs.filter p) issued where
  numbers := h.numbers.sublist (List.filter_sublist.map _)
  issued_numbers := fun r h_r => h.issued_numbers r (List.mem_of_mem_filter h_r)
  steady := fun r h_r => h.steady r (List.mem_of_mem_filter h_r)
  placeless := fun r h_r => h.placeless r (List.mem_of_mem_filter h_r)

end SoundRuns

/-- The runs of the task at a place go on from one list to another, and no others take their place. -/
structure RunsGoOn (place : ℕ) (runs runs' : List EngineRun) : Prop where
  /-- A run that is there was there before. -/
  back : ∀ r' ∈ runs', r'.place = some place → ∃ r ∈ runs, r.Kept r'
  /-- A run that was there is there still. -/
  forth : ∀ r ∈ runs, r.place = some place → ∃ r' ∈ runs', r.Kept r'

namespace RunsGoOn

variable {p : ℕ} {runs : List EngineRun}

theorem refl : RunsGoOn p runs runs :=
  ⟨fun r h_r _ => ⟨r, h_r, .refl r⟩, fun r h_r _ => ⟨r, h_r, .refl r⟩⟩

theorem map {f : EngineRun → EngineRun} (h_kept : ∀ r ∈ runs, r.Kept (f r)) : RunsGoOn p runs (runs.map f) where
  back := fun r' h_r' _ => by
    obtain ⟨r, h_r, rfl⟩ := List.mem_map.mp h_r'
    exact ⟨r, h_r, h_kept r h_r⟩
  forth := fun r h_r _ => ⟨f r, List.mem_map_of_mem h_r, h_kept r h_r⟩

theorem append {r : EngineRun} (h_place : r.place ≠ some p) : RunsGoOn p runs (runs ++ [r]) where
  back := fun r' h_r' h_p => by
    rcases List.mem_append.mp h_r' with h_r' | h_r'
    · exact ⟨r', h_r', .refl r'⟩
    · rw [List.mem_singleton.mp h_r'] at h_p
      exact absurd h_p h_place
  forth := fun r' h_r' _ => ⟨r', List.mem_append_left _ h_r', .refl r'⟩

theorem filter {keep : EngineRun → Bool} (h_keep : ∀ r ∈ runs, r.place = some p → keep r = true) :
    RunsGoOn p runs (runs.filter keep) where
  back := fun r' h_r' _ => ⟨r', List.mem_of_mem_filter h_r', .refl r'⟩
  forth := fun r' h_r' h_p => ⟨r', List.mem_filter.mpr ⟨h_r', h_keep r' h_r' h_p⟩, .refl r'⟩

end RunsGoOn

namespace Yard

/-- What the parts of a yard know of each other about one place. -/
structure Tended (y : Yard) (p : ℕ) : Prop where
  /-- A task that was given out is the running one of its queue, and no run of it is known. -/
  handed : ∀ t, (p, t) ∈ y.handed → ∃ u, y.engine.RunsAt p u ∧ u.id = t.id ∧ u.group = t.group ∧ u.token = none
  /-- The task of a run is the running one of its queue, which holds the token of the run. If it is
  marked, the run is cancelled. -/
  placed : ∀ r ∈ y.engine.runs, r.place = some p → ∃ u, y.engine.RunsAt p u ∧ r.info.task = some u.id ∧
    r.info.group = u.group ∧ u.token = some ⟨r.number⟩ ∧
    (u.cancelRequested = true → r.context.cancelled = true)
  /-- A running task was given out and is not launched, or there is a run of it. -/
  manned : ∀ u, y.engine.RunsAt p u → (u.token = none ∧ ∃ t, (p, t) ∈ y.handed) ∨
    ∃ r ∈ y.engine.runs, r.place = some p ∧ u.token = some ⟨r.number⟩
  /-- The token of a running task was fired exactly if the task is marked. -/
  fired : ∀ u k, y.engine.RunsAt p u → u.token = some k → (.fired k ∈ y.log ↔ u.cancelRequested = true)

/-- The parts of a yard know of each other what they should. -/
structure Ordered (y : Yard) : Prop where
  /-- The queues have books that agree with what they keep. -/
  books : ∃ books, Booked y.engine.queueAt y.engine.issued books
  /-- Nobody asked for the end of a task that waits, and no run of it is known. -/
  untouched : ∀ p q, y.engine.queueAt p = some q → ∀ t ∈ q.pending, t.Untouched
  /-- The runs are as they should be by themselves. -/
  sound : SoundRuns y.engine.runs y.engine.issued
  /-- A queue gave one task out at most that is not launched yet. -/
  hands : (y.handed.map Prod.fst).Nodup
  /-- All places are tended. -/
  tended : ∀ p, y.Tended p
  /-- Only tokens of runs were fired. -/
  fired_issued : ∀ k, .fired k ∈ y.log → k.number < y.engine.issued

/-- **The frame.** A place stays tended where its queue runs what it did, the task that was given out and
the run are the same, and the token of the running task is not fired. -/
theorem Tended.frame {y y' : Yard} {p : ℕ} (h : y.Tended p)
    (h_at : ∀ u, y'.engine.RunsAt p u ↔ y.engine.RunsAt p u)
    (h_handed : ∀ t, (p, t) ∈ y'.handed ↔ (p, t) ∈ y.handed)
    (h_runs : RunsGoOn p y.engine.runs y'.engine.runs)
    (h_fired : ∀ u k, y.engine.RunsAt p u → u.token = some k → (.fired k ∈ y'.log ↔ .fired k ∈ y.log)) :
    y'.Tended p where
  handed := fun t h_t => by
    obtain ⟨u, h_u, h_rest⟩ := h.handed t ((h_handed t).mp h_t)
    exact ⟨u, (h_at u).mpr h_u, h_rest⟩
  placed := fun r' h_r' h_p => by
    -- the queue still runs the task of the run that this one was before
    obtain ⟨r, h_r, h_kept⟩ := h_runs.back r' h_r' h_p
    obtain ⟨u, h_u, h_task, h_group, h_token, h_stop⟩ := h.placed r h_r (h_kept.place ▸ h_p)
    rw [h_kept.info, h_kept.number]
    exact ⟨u, (h_at u).mpr h_u, h_task, h_group, h_token, fun h => h_kept.cancelled (h_stop h)⟩
  manned := fun u h_u => by
    obtain ⟨h_none, t, h_t⟩ | ⟨r, h_r, h_place, h_token⟩ := h.manned u ((h_at u).mp h_u)
    · exact .inl ⟨h_none, t, (h_handed t).mpr h_t⟩
    · obtain ⟨r', h_r', h_kept⟩ := h_runs.forth r h_r h_place
      exact .inr ⟨r', h_r', h_kept.place.trans h_place, by rw [h_kept.number]; exact h_token⟩
  fired := fun u k h_u h_k => by
    have h_u := (h_at u).mp h_u
    rw [h_fired u k h_u h_k]
    exact h.fired u k h_u h_k

/-- A place with nothing to do is tended. -/
theorem Tended.of_nothing {y : Yard} {p : ℕ} (h_at : ∀ u, ¬ y.engine.RunsAt p u) (h_handed : ∀ t, (p, t) ∉ y.handed)
    (h_runs : ∀ r ∈ y.engine.runs, r.place ≠ some p) : y.Tended p where
  handed := fun t h_t => absurd h_t (h_handed t)
  placed := fun r h_r h_p => absurd h_p (h_runs r h_r)
  manned := fun u h_u => absurd h_u (h_at u)
  fired := fun u _ h_u => absurd h_u (h_at u)

/-- A place stays tended where the running task is marked, if the run that holds its token is cancelled and the
token is fired. -/
theorem Tended.marked {y y' : Yard} {p : ℕ} {u : Task} {f : EngineRun → EngineRun} (h : y.Tended p)
    (h_u : y.engine.RunsAt p u) (h_at : y'.engine.RunsAt p { u with cancelRequested := true })
    (h_handed : y'.handed = y.handed) (h_runs : y'.engine.runs = y.engine.runs.map f)
    (h_kept : ∀ r ∈ y.engine.runs, r.Kept (f r))
    (h_stop : ∀ r ∈ y.engine.runs, u.token = some ⟨r.number⟩ → (f r).context.cancelled = true)
    (h_fired : ∀ k, u.token = some k → .fired k ∈ y'.log) : y'.Tended p where
  handed := fun t h_t => by
    obtain ⟨v, h_v, h_rest⟩ := h.handed t (h_handed ▸ h_t)
    cases h_v.unique h_u
    exact ⟨_, h_at, h_rest⟩
  -- the run at this place holds the token of the task, so `h_stop` is about it
  placed := fun r' h_r' h_p => by
    rw [h_runs] at h_r'
    obtain ⟨r, h_r, rfl⟩ := List.mem_map.mp h_r'
    obtain ⟨v, h_v, h_id, h_group, h_token, -⟩ := h.placed r h_r ((h_kept r h_r).place ▸ h_p)
    cases h_v.unique h_u
    rw [(h_kept r h_r).info, (h_kept r h_r).number]
    exact ⟨_, h_at, h_id, h_group, h_token, fun _ => h_stop r h_r h_token⟩
  manned := fun v h_v => by
    obtain rfl := h_v.unique h_at
    obtain ⟨h_none, t, h_t⟩ | ⟨r, h_r, h_place, h_token⟩ := h.manned u h_u
    · exact .inl ⟨h_none, t, h_handed ▸ h_t⟩
    · refine .inr ⟨_, h_runs ▸ List.mem_map_of_mem h_r, (h_kept r h_r).place.trans h_place, ?_⟩
      rw [(h_kept r h_r).number]
      exact h_token
  fired := fun v k h_v h_k => by
    obtain rfl := h_v.unique h_at
    exact ⟨fun _ => rfl, fun _ => h_fired k h_k⟩

/-- A place that ran nothing is tended when a task is given out there that holds no token. -/
theorem Tended.given {y y' : Yard} {p : ℕ} {t : Task} (h : y.Tended p) (h_free : ∀ v, ¬ y.engine.RunsAt p v)
    (h_at : y'.engine.RunsAt p t) (h_none : t.token = none) (h_handed : y'.handed = y.handed ++ [(p, t)])
    (h_runs : y'.engine.runs = y.engine.runs) : y'.Tended p where
  handed := fun t' h_t' => by
    rcases List.mem_append.mp (h_handed ▸ h_t') with h_t' | h_t'
    · obtain ⟨v, h_v, -⟩ := h.handed t' h_t'
      exact absurd h_v (h_free v)
    · cases List.mem_singleton.mp h_t'
      exact ⟨_, h_at, rfl, rfl, h_none⟩
  -- a run here would be of a task that the queue ran before
  placed := fun r h_r h_p => by
    obtain ⟨v, h_v, -⟩ := h.placed r (h_runs ▸ h_r) h_p
    exact absurd h_v (h_free v)
  manned := fun v h_v => by
    obtain rfl := h_v.unique h_at
    rw [h_handed]
    exact .inl ⟨h_none, _, List.mem_append_right _ (List.mem_singleton_self _)⟩
  fired := fun v k h_v h_k => by
    obtain rfl := h_v.unique h_at
    cases h_k.symm.trans h_none

/-- A place is tended whose running task has one run, which is cancelled, with its token fired, if the task is
marked. -/
theorem Tended.launched {y : Yard} {p : ℕ} {u : Task} {r : EngineRun} (h_at : y.engine.RunsAt p u)
    (h_handed : ∀ t, (p, t) ∉ y.handed) (h_r : r ∈ y.engine.runs)
    (h_only : ∀ r' ∈ y.engine.runs, r'.place = some p → r' = r) (h_place : r.place = some p)
    (h_task : r.info.task = some u.id) (h_group : r.info.group = u.group) (h_token : u.token = some ⟨r.number⟩)
    (h_stop : u.cancelRequested = true → r.context.cancelled = true)
    (h_fired : .fired ⟨r.number⟩ ∈ y.log ↔ u.cancelRequested = true) : y.Tended p where
  handed := fun t h_t => absurd h_t (h_handed t)
  placed := fun r' h_r' h_p => by
    rw [h_only r' h_r' h_p]
    exact ⟨u, h_at, h_task, h_group, h_token, h_stop⟩
  manned := fun v h_v => by
    rw [h_v.unique h_at]
    exact .inr ⟨r, h_r, h_place, h_token⟩
  fired := fun v k h_v h_k => by
    obtain rfl := h_v.unique h_at
    cases h_token.symm.trans h_k
    exact h_fired

/-- What a launch changes: a task that its queue `q` runs as `u` was given out, and `r` is the run of it. -/
structure Launch (y y' : Yard) (p index : ℕ) (q : GroupQueue) (u : Task) (r : EngineRun) : Prop where
  /-- The run has the next number. -/
  number : r.number = y.engine.issued
  /-- The run is at the place of the queue. -/
  place : r.place = some p
  /-- The run is one of the task. -/
  task : r.info.task = some u.id
  /-- The run is one of the group of the task. -/
  group : r.info.group = u.group
  /-- The run is cancelled from the start exactly if the task was marked before. -/
  cancelled : r.context.cancelled = u.cancelRequested
  /-- The run makes no call before it has looked at the cancellation. -/
  steady : r.process.Steady
  /-- The queue is told of the run. -/
  queues : y'.engine.queueAt = Function.update y.engine.queueAt p
    (some (q.after (.attach u.id (Engine.idText y.engine.issued) ⟨y.engine.issued⟩)))
  /-- The queue runs the task with the token of the run, and the others run what they did. -/
  runsAt : ∀ p' v, y'.engine.RunsAt p' v ↔
    p' = p ∧ v = u.attached (Engine.idText y.engine.issued) ⟨y.engine.issued⟩ ∨ p' ≠ p ∧ y.engine.RunsAt p' v
  /-- The run is one more. -/
  runs : y'.engine.runs = y.engine.runs ++ [r]
  /-- The number is used up. -/
  issued : y'.engine.issued = y.engine.issued + 1
  /-- The task is no longer among those given out. -/
  handed : y'.handed = y.handed.eraseIdx index
  /-- The token of the run is fired at once if the task was marked before. -/
  fired : ∀ k, .fired k ∈ y'.log ↔ .fired k ∈ y.log ∨ u.cancelRequested = true ∧ k = ⟨y.engine.issued⟩

/-! ### What the order says -/

namespace Ordered

variable {y y' : Yard} {p p' : ℕ} {q q' : GroupQueue} {u v : Task} {r r' : EngineRun} {op : QueueOp}

theorem idle (settings : EngineSettings) : (Yard.idle settings).Ordered where
  books := ⟨fun _ => ⟨.create "" "" 0 {}, [], []⟩, fun _ _ h => (nomatch h),
    fun _ _ _ h => absurd h List.not_mem_nil, fun _ _ h => absurd h List.not_mem_nil⟩
  untouched := fun _ _ h => nomatch h
  sound := ⟨List.nodup_nil, fun _ h => absurd h List.not_mem_nil, fun _ h => absurd h List.not_mem_nil,
    fun _ h => absurd h List.not_mem_nil⟩
  hands := List.nodup_nil
  tended := fun _ => ⟨fun _ h => absurd h List.not_mem_nil, fun _ h => absurd h List.not_mem_nil,
    fun _ ⟨_, h_at, _⟩ => (nomatch h_at), fun _ _ ⟨_, h_at, _⟩ => (nomatch h_at)⟩
  fired_issued := fun _ h => absurd h List.not_mem_nil

/-- What one queue keeps, no other does. -/
theorem alone (h : y.Ordered) (h_at : y.engine.queueAt p = some q) (h_v : v ∈ q.tasks) :
    ∀ p' q', p' ≠ p → y.engine.queueAt p' = some q' → ∀ u ∈ q'.tasks, u.id ≠ v.id := by
  obtain ⟨books, h_books⟩ := h.books
  exact fun p' q' h_ne h_at' u h_u h_id => h_ne (h_books.place_unique h_at' h_u h_at h_v h_id)

/-- The task of a run is the running one of the queue at its place, which holds the token of the run. -/
theorem placed_of_task (h : y.Ordered) (h_r : r ∈ y.engine.runs) {t : String} (h_task : r.info.task = some t) :
    ∃ p u, r.place = some p ∧ y.engine.RunsAt p u ∧ u.id = t ∧ r.info.group = u.group ∧
      u.token = some ⟨r.number⟩ ∧ (u.cancelRequested = true → r.context.cancelled = true) := by
  cases h_place : r.place with
  | none =>
    rw [h.sound.placeless r h_r h_place] at h_task
    cases h_task
  | some p =>
    obtain ⟨u, h_u, h_own, h_rest⟩ := (h.tended p).placed r h_r h_place
    rw [h_task] at h_own
    exact ⟨p, u, rfl, h_u, (Option.some.inj h_own).symm, h_rest⟩

/-- A token that a queue holds is that of a run of its running task. -/
theorem run_of_token (h : y.Ordered) (h_u : y.engine.RunsAt p u) {k : CancelToken}
    (h_k : u.token = some k) : ∃ r ∈ y.engine.runs, r.place = some p ∧ r.number = k.number := by
  obtain ⟨h_none, -⟩ | ⟨r, h_r, h_place, h_token⟩ := (h.tended p).manned u h_u
  · rw [h_none] at h_k
    cases h_k
  · refine ⟨r, h_r, h_place, ?_⟩
    rw [h_token] at h_k
    exact congrArg CancelToken.number (Option.some.inj h_k)

/-- No token is held by two queues. -/
theorem place_of_token (h : y.Ordered) (h_u : y.engine.RunsAt p u) (h_v : y.engine.RunsAt p' v)
    {k : CancelToken} (h_k : u.token = some k) (h_k' : v.token = some k) : p = p' := by
  obtain ⟨r, h_r, h_place, h_num⟩ := h.run_of_token h_u h_k
  obtain ⟨r', h_r', h_place', h_num'⟩ := h.run_of_token h_v h_k'
  cases h.sound.eq_of_number_eq h_r h_r' (h_num.trans h_num'.symm)
  exact Option.some.inj (h_place.symm.trans h_place')

/-- A queue has one run at most. -/
theorem eq_of_place_eq (h : y.Ordered) (h_r : r ∈ y.engine.runs) (h_r' : r' ∈ y.engine.runs)
    (h_place : r.place = some p) (h_place' : r'.place = some p) : r = r' := by
  -- both are the run of the one running task, whose token has the number of one run
  obtain ⟨u, h_u, -, -, h_token, -⟩ := (h.tended p).placed r h_r h_place
  obtain ⟨v, h_v, -, -, h_token', -⟩ := (h.tended p).placed r' h_r' h_place'
  rw [h_u.unique h_v, h_token'] at h_token
  exact h.sound.eq_of_number_eq h_r h_r' (congrArg CancelToken.number (Option.some.inj h_token).symm)

/-- No two runs are of the same task. -/
theorem eq_of_task_eq (h : y.Ordered) (h_r : r ∈ y.engine.runs) (h_r' : r' ∈ y.engine.runs) {t : String}
    (h_task : r.info.task = some t) (h_task' : r'.info.task = some t) : r = r' := by
  obtain ⟨p, u, h_place, ⟨q, h_at, h_run⟩, h_id, -⟩ := h.placed_of_task h_r h_task
  obtain ⟨p', u', h_place', ⟨q', h_at', h_run'⟩, h_id', -⟩ := h.placed_of_task h_r' h_task'
  obtain ⟨books, h_books⟩ := h.books
  obtain rfl : p = p' := h_books.place_unique h_at (GroupQueue.mem_tasks.mpr (.inl h_run)) h_at'
    (GroupQueue.mem_tasks.mpr (.inl h_run')) (h_id.trans h_id'.symm)
  exact h.eq_of_place_eq h_r h_r' h_place h_place'

/-- A run is found by its number. -/
theorem run?_eq (h : y.Ordered) (h_r : r ∈ y.engine.runs) :
    y.engine.run? r.number = some r := by
  cases h_find : y.engine.run? r.number with
  | none => exact absurd (BEq.rfl : (r.number == r.number) = true) (List.find?_eq_none.mp h_find r h_r)
  | some r' =>
    rw [h.sound.eq_of_number_eq (List.mem_of_find?_eq_some h_find) h_r
      (by simpa using List.find?_some h_find)]

/-- A live run that can go on does. -/
theorem goOn_eq (h : y.Ordered) (h_r : r ∈ y.engine.runs) (h_live : r.isLive = true)
    {f : EngineRun → Option (Process RunEnd × RunContext)} {x : Process RunEnd × RunContext}
    (h_x : f r = some x) :
    y.goOn r.number f =
      { y with
        engine := y.engine.updateRun r.number fun r => { r with process := x.1, context := x.2 }
        log := y.log ++ x.1.call?.toList.map (.called r.info.task) } := by
  have h_some : ((y.engine.run? r.number).filter (·.isLive)).bind (fun r => (f r).map (r, ·)) =
      some (r, x.1, x.2) := by
    rw [h.run?_eq h_r, Option.filter_some, if_pos h_live, Option.bind_some, h_x]
    rfl
  unfold Yard.goOn
  rw [h_some]

/-- A queue that gave a task out has no run of it yet. -/
theorem not_handed (h : y.Ordered) (h_r : r ∈ y.engine.runs) (h_place : r.place = some p) :
    ∀ t, (p, t) ∉ y.handed := by
  intro t h_t
  -- the running task would hold a token and hold none
  obtain ⟨u, h_u, -, -, h_none⟩ := (h.tended p).handed t h_t
  obtain ⟨v, h_v, -, -, h_token, -⟩ := (h.tended p).placed r h_r h_place
  rw [h_u.unique h_v, h_token] at h_none
  cases h_none

/-- The tasks that wait stay untouched in an operation that offers none but such. -/
theorem untouched_operate (h : y.Ordered) (op : QueueOp) (h_at : y.engine.queueAt p = some q)
    (h_task : ∀ t, op = .enqueue t → t.Untouched) {queueAt : ℕ → Option GroupQueue}
    (h_queues : queueAt = Function.update y.engine.queueAt p (some (q.after op))) :
    ∀ p' q', queueAt p' = some q' → ∀ t ∈ q'.pending, t.Untouched := by
  intro p' q' h_at' t h_t
  rw [h_queues, Function.update_apply] at h_at'
  split at h_at'
  · cases h_at'
    rcases (q.change op).pending_origin h_t with h_t | ⟨v, h_v, rfl⟩ | ⟨h_t, -⟩
    · exact h.untouched p q h_at t h_t
    · exact h_task v h_v
    · exact h_t
  · exact h.untouched p' q' h_at' t h_t

/-! ### Moves that leave the running tasks alone -/

/-- Every queue keeps its running task, and the runs go on; nothing is fired. -/
theorem adjust (h : y.Ordered) (f : EngineRun → EngineRun)
    (h_books : ∃ books, Booked y'.engine.queueAt y'.engine.issued books)
    (h_untouched : ∀ p q, y'.engine.queueAt p = some q → ∀ t ∈ q.pending, t.Untouched)
    (h_at : ∀ p u, y'.engine.RunsAt p u ↔ y.engine.RunsAt p u)
    (h_kept : ∀ r ∈ y.engine.runs, r.Kept (f r)) (h_runs : y'.engine.runs = y.engine.runs.map f)
    (h_issued : y.engine.issued ≤ y'.engine.issued) (h_handed : y'.handed = y.handed)
    (evs : List Event) (h_log : y'.log = y.log ++ evs) (h_quiet : ∀ k, .fired k ∉ evs) :
    y'.Ordered := by
  have h_fired : ∀ k, .fired k ∈ y'.log ↔ .fired k ∈ y.log := by
    intro k
    rw [h_log, List.mem_append, or_iff_left (h_quiet k)]
  exact
  { books := h_books
    untouched := h_untouched
    sound := h_runs ▸ h.sound.map h_kept h_issued
    hands := by rw [h_handed]; exact h.hands
    tended := fun p => (h.tended p).frame (h_at p) (fun t => by rw [h_handed]) (h_runs ▸ .map h_kept)
      fun _ k _ _ => h_fired k
    fired_issued := fun k h_k => Nat.lt_of_lt_of_le (h.fired_issued k ((h_fired k).mp h_k)) h_issued }

/-- The queues stay as they are. -/
theorem carryOn (h : y.Ordered) (f : EngineRun → EngineRun)
    (h_queues : y'.engine.queueAt = y.engine.queueAt) (h_issued : y'.engine.issued = y.engine.issued)
    (h_kept : ∀ r ∈ y.engine.runs, r.Kept (f r)) (h_runs : y'.engine.runs = y.engine.runs.map f)
    (h_handed : y'.handed = y.handed) (evs : List Event) (h_log : y'.log = y.log ++ evs)
    (h_quiet : ∀ k, .fired k ∉ evs) : y'.Ordered := by
  refine h.adjust f ?_ ?_ (fun p u => ?_) h_kept h_runs (Nat.le_of_eq h_issued.symm) h_handed evs h_log
    h_quiet
  · rw [h_queues, h_issued]
    exact h.books
  · rw [h_queues]
    exact h.untouched
  · unfold Engine.RunsAt
    rw [h_queues]

/-- A new queue is empty. -/
theorem createGroup (h : y.Ordered) {id name : String} {limit : ℕ} {policy : RetryPolicy}
    (h_free : y.engine.queueAt p = none)
    (h_queues : y'.engine.queueAt =
      Function.update y.engine.queueAt p (some (.create id name limit policy)))
    (h_runs : y'.engine.runs = y.engine.runs) (h_issued : y'.engine.issued = y.engine.issued)
    (h_handed : y'.handed = y.handed) (h_log : y'.log = y.log) : y'.Ordered := by
  obtain ⟨books, h_books⟩ := h.books
  refine h.adjust (fun r => r) ⟨_, h_issued ▸ h_queues ▸ h_books.create p id name limit policy⟩ ?_ ?_
    (fun r _ => .refl r) (by rw [h_runs, List.map_id']) (Nat.le_of_eq h_issued.symm) h_handed
    [] (by rw [h_log, List.append_nil]) (fun k => List.not_mem_nil)
  · intro p' q' h_at t h_t
    rw [h_queues, Function.update_apply] at h_at
    split at h_at
    · cases h_at
      exact absurd h_t List.not_mem_nil
    · exact h.untouched p' q' h_at t h_t
  · intro p' u
    rw [Engine.runsAt_update h_queues]
    constructor
    · rintro (⟨-, h_none⟩ | ⟨-, h_u⟩)
      · cases h_none
      · exact h_u
    · -- there was no queue at this place, and nothing that it ran
      intro h_u
      refine .inr ⟨?_, h_u⟩
      rintro rfl
      obtain ⟨q, h_at, -⟩ := h_u
      rw [h_free] at h_at
      cases h_at

/-! ### Operations of a queue -/

/-- **An operation from outside** marks the running task at most. Its run, if there is one, is told to
stop. -/
theorem outside (h : y.Ordered) (op : QueueOp) (h_at : y.engine.queueAt p = some q) (h_out : op.isOutside = true)
    (h_task : ∀ t, op = .enqueue t → t.Untouched)
    (h_new : ∀ i ∈ op.offered, i = Engine.idText y.engine.issued ∧ y.engine.issued < y'.engine.issued)
    (h_issued : y.engine.issued ≤ y'.engine.issued)
    (h_queues : y'.engine.queueAt = Function.update y.engine.queueAt p (some (q.after op)))
    (h_runs : y'.engine.runs = (y.engine.stopFired (q.tells op)).runs) (h_handed : y'.handed = y.handed)
    (h_log : y'.log = y.log ++ q.tells op) : y'.Ordered := by
  obtain ⟨books, h_books⟩ := h.books
  have h_books' : ∃ books, Booked y'.engine.queueAt y'.engine.issued books :=
    ⟨_, h_queues ▸ h_books.operate h_at h_new h_issued⟩
  have h_untouched := h.untouched_operate _ h_at h_task h_queues
  have h_kept : ∀ r ∈ y.engine.runs,
      r.Kept (if decide (.fired ⟨r.number⟩ ∈ q.tells op) = true then r.cancel else r) := by
    intro r _
    split
    · exact .cancel r
    · exact .refl r
  obtain ⟨h_same, h_quiet⟩ | ⟨u, h_run, h_req, h_flag, h_fires⟩ := (q.change op).running_outside h_out
  · -- nothing happened to the running task
    refine h.adjust _ h_books' h_untouched (fun p' v => ?_) h_kept h_runs h_issued h_handed _ h_log h_quiet
    rw [Engine.runsAt_update h_queues, h_same]
    by_cases h_eq : p' = p
    · simp [h_eq, Engine.RunsAt, h_at]
    · simp [h_eq]
  -- the running task was marked
  have h_u : y.engine.RunsAt p u := ⟨q, h_at, h_run⟩
  have h_at' : ∀ p' v, y'.engine.RunsAt p' v ↔
      p' = p ∧ v = { u with cancelRequested := true } ∨ p' ≠ p ∧ y.engine.RunsAt p' v := by
    intro p' v
    rw [Engine.runsAt_update h_queues, h_flag, Option.some.injEq]
    simp only [eq_comm (a := v)]
  have h_marked : y'.engine.RunsAt p { u with cancelRequested := true } := (h_at' p _).mpr (.inl ⟨rfl, rfl⟩)
  have h_fired : ∀ k, .fired k ∈ y'.log ↔ .fired k ∈ y.log ∨ u.token = some k := by
    intro k
    rw [h_log, List.mem_append, h_fires]
  refine
  { books := h_books'
    untouched := h_untouched
    sound := h_runs ▸ h.sound.map h_kept h_issued
    hands := by rw [h_handed]; exact h.hands
    tended := fun p' => ?_
    fired_issued := fun k h_k => ?_ }
  · by_cases h_eq : p' = p
    · rw [h_eq]
      -- the token of the run is the one that was fired
      refine (h.tended p).marked h_u h_marked h_handed h_runs h_kept (fun r h_r h_token => ?_)
        fun k h_k => (h_fired k).mpr (.inr h_k)
      rw [if_pos (decide_eq_true ((h_fires _).mpr h_token))]
      rfl
    · refine (h.tended p').frame (fun v => ?_) (fun t => by rw [h_handed]) (h_runs ▸ .map h_kept)
        fun v k h_v h_k => ?_
      · rw [h_at', or_iff_right fun h => h_eq h.1, and_iff_right h_eq]
      · -- another queue does not hold the token that was fired
        rw [h_fired, or_iff_left]
        exact fun h_same => h_eq (h.place_of_token h_v h_u h_k h_same)
  · rcases (h_fired k).mp h_k with h_k | h_k
    · exact Nat.lt_of_lt_of_le (h.fired_issued k h_k) h_issued
    · obtain ⟨r, h_r, -, h_num⟩ := h.run_of_token h_u h_k
      rw [← h_num]
      exact Nat.lt_of_lt_of_le (h.sound.issued_numbers r h_r) h_issued

/-! ### Tasks that are passed on -/

/-- **A task is given out.** It was untouched, so that its queue, which had no running task, holds no
token now. -/
theorem handOut (h : y.Ordered) {now : Instant} {t : Task} (h_at : y.engine.queueAt p = some q)
    (h_deq : q.dequeue now = some (t, q'))
    (h_queues : y'.engine.queueAt = Function.update y.engine.queueAt p (some q'))
    (h_runs : y'.engine.runs = y.engine.runs) (h_issued : y'.engine.issued = y.engine.issued)
    (h_handed : y'.handed = y.handed ++ [(p, t)]) {evs : List Event} (h_log : y'.log = y.log ++ evs)
    (h_quiet : ∀ k, .fired k ∉ evs) : y'.Ordered := by
  obtain ⟨books, h_books⟩ := h.books
  have h_after : q.after (.dequeue now) = q' := by simp [GroupQueue.after, h_deq]
  obtain ⟨-, h_idle, l₁, u, l₂, h_pending, -, -, rfl, rfl⟩ := GroupQueue.dequeue_eq_some_iff.mp h_deq
  have h_u : u.Untouched := h.untouched p q h_at u (by simp [h_pending])
  have h_at' : ∀ p' v, y'.engine.RunsAt p' v ↔
      p' = p ∧ u.started now = v ∨ p' ≠ p ∧ y.engine.RunsAt p' v := by
    intro p' v
    rw [Engine.runsAt_update h_queues, Option.some.injEq]
  -- the queue was not running anything
  have h_free : ∀ v, ¬ y.engine.RunsAt p v := by
    rintro v ⟨q', h_q', h_run⟩
    rw [h_at] at h_q'
    cases h_q'
    rw [h_idle] at h_run
    cases h_run
  have h_fired : ∀ k, .fired k ∈ y'.log ↔ .fired k ∈ y.log := by
    intro k
    rw [h_log, List.mem_append, or_iff_left (h_quiet k)]
  refine
  { books := ⟨Function.update books p ((books p).after (.dequeue now)), ?_⟩
    untouched := h.untouched_operate (.dequeue now) h_at (fun _ h => by cases h) (h_after ▸ h_queues)
    sound := by rw [h_runs, h_issued]; exact h.sound
    hands := ?_
    tended := fun p' => ?_
    fired_issued := fun k h_k => h_issued ▸ h.fired_issued k ((h_fired k).mp h_k) }
  · rw [h_queues, h_issued, ← h_after]
    exact h_books.operate h_at (fun _ h => absurd h List.not_mem_nil) (Nat.le_refl _)
  · -- a task of this queue that was given out before would be running
    rw [h_handed, List.map_append, List.nodup_append]
    refine ⟨h.hands, List.nodup_singleton _, fun i h_i j h_j h_eq => ?_⟩
    obtain ⟨⟨p', t⟩, h_t, rfl⟩ := List.mem_map.mp h_i
    obtain ⟨v, h_v, -⟩ := (h.tended p').handed t h_t
    rw [show p' = p from h_eq.trans (List.mem_singleton.mp h_j)] at h_v
    exact h_free v h_v
  · by_cases h_eq : p' = p
    · rw [h_eq]
      exact (h.tended p).given h_free ((h_at' p _).mpr (.inl ⟨rfl, rfl⟩)) h_u.2 h_handed h_runs
    · refine (h.tended p').frame (fun v => ?_) (fun t => ?_) (h_runs ▸ .refl) fun _ k _ _ => h_fired k
      · rw [h_at', or_iff_right fun h => h_eq h.1, and_iff_right h_eq]
      · rw [h_handed, List.mem_append, List.mem_singleton, or_iff_left fun h => h_eq (congrArg Prod.fst h)]

/-- A task that is taken out of those given out is no longer there, and all others are. -/
theorem mem_eraseIdx_handed (h : y.Ordered) {index : ℕ} {t : Task} (h_hand : y.handed[index]? = some (p, t)) :
    (∀ t', (p, t') ∉ y.handed.eraseIdx index) ∧
      ∀ p' t', p' ≠ p → ((p', t') ∈ y.handed.eraseIdx index ↔ (p', t') ∈ y.handed) := by
  obtain ⟨l₁, l₂, h_l, h_erase⟩ : ∃ l₁ l₂, y.handed = l₁ ++ (p, t) :: l₂ ∧
      y.handed.eraseIdx index = l₁ ++ l₂ := by
    obtain ⟨h_lt, h_get⟩ := List.getElem?_eq_some_iff.mp h_hand
    refine ⟨y.handed.take index, y.handed.drop (index + 1), ?_, List.eraseIdx_eq_take_drop_succ _ _⟩
    rw [← h_get, List.getElem_cons_drop, List.take_append_drop]
  have h_hands := h.hands
  rw [h_l, List.map_append, List.map_cons, List.perm_middle.nodup_iff, List.nodup_cons,
    ← List.map_append] at h_hands
  rw [h_erase]
  refine ⟨fun t' h_t' => h_hands.1 (List.mem_map.mpr ⟨_, h_t', rfl⟩), fun p' t' h_ne => ?_⟩
  rw [h_l, List.perm_middle.mem_iff, List.mem_cons, or_iff_right fun h => h_ne (congrArg Prod.fst h)]

/-- The move is such a launch, as the task that was given out is the one that its queue runs. -/
theorem launch_spec (h : y.Ordered) {index : ℕ} {t : Task} (c : Clock) (h_hand : y.handed[index]? = some (p, t)) :
    ∃ q u r, y.engine.queueAt p = some q ∧ Launch y (y.launch index c) p index q u r := by
  obtain ⟨u, ⟨q, h_at, h_run⟩, h_id, h_group, -⟩ := (h.tended p).handed t (List.mem_of_getElem? h_hand)
  obtain ⟨r, h_number, h_place, h_task, h_info, h_stop, h_process, -, h_launch⟩ :=
    Engine.launch_spec h_at t c
  -- the queue finds the task that it runs
  have h_attach := GroupQueue.attach_running h_run (Engine.idText y.engine.issued) ⟨y.engine.issued⟩
  rw [← h_id, h_attach] at h_stop h_launch
  have h_step : y.launch index c = ⟨y.engine.launch p t c, y.handed.eraseIdx index, y.log ++
      if u.cancelRequested then [.fired ⟨y.engine.issued⟩] else []⟩ := by
    simp only [Yard.launch, h_hand, h_at, GroupQueue.tells, ← h_id, h_attach]
  have h_queues : (y.launch index c).engine.queueAt = Function.update y.engine.queueAt p
      (some (q.after (.attach u.id (Engine.idText y.engine.issued) ⟨y.engine.issued⟩))) := by
    rw [h_step, h_launch, GroupQueue.after, h_attach]
    exact Engine.queueAt_setQueue h_at
  refine ⟨q, u, r, h_at,
  { number := h_number
    place := h_place
    task := h_task.trans (congrArg some h_id.symm)
    group := h_info.trans h_group.symm
    cancelled := h_stop
    steady := h_process ▸ (guarded_runActions _ _ _).steady
    queues := h_queues
    runsAt := fun p' v => ?_
    runs := by rw [h_step, h_launch]
    issued := by rw [h_step, h_launch]
    handed := by rw [h_step]
    fired := fun k => ?_ }⟩
  · rw [Engine.runsAt_update h_queues, GroupQueue.after, h_attach, Option.some.injEq]
    simp only [eq_comm (a := v)]
  · rw [h_step, List.mem_append]
    cases u.cancelRequested <;> simp

/-- After a launch all places are tended: that of the task, which has one run now, and those of the others, for
which nothing has changed. -/
theorem tended_launch (h : y.Ordered) {index : ℕ} {t : Task} (h_hand : y.handed[index]? = some (p, t))
    (h_l : Launch y y' p index q u r) (p' : ℕ) : y'.Tended p' := by
  obtain ⟨h_gone, h_others⟩ := h.mem_eraseIdx_handed h_hand
  by_cases h_eq : p' = p
  · have h_attached : y'.engine.RunsAt p (u.attached (Engine.idText y.engine.issued) ⟨y.engine.issued⟩) :=
      (h_l.runsAt p _).mpr (.inl ⟨rfl, rfl⟩)
    have h_token : (u.attached (Engine.idText y.engine.issued) ⟨y.engine.issued⟩).token = some ⟨r.number⟩ := by
      rw [h_l.number]
      rfl
    -- the queue had no run of a task that was given out
    have h_only : ∀ r' ∈ y'.engine.runs, r'.place = some p → r' = r := by
      intro r' h_r' h_p
      rw [h_l.runs] at h_r'
      rcases List.mem_append.mp h_r' with h_r' | h_r'
      · exact absurd (List.mem_of_getElem? h_hand) (h.not_handed h_r' h_p t)
      · exact List.mem_singleton.mp h_r'
    -- the token is new, so that it was not fired before
    have h_fresh : .fired ⟨y.engine.issued⟩ ∉ y.log := fun h_old =>
      absurd (h.fired_issued _ h_old) (Nat.lt_irrefl _)
    rw [h_eq]
    refine .launched h_attached (fun t' => h_l.handed ▸ h_gone t')
      (h_l.runs ▸ List.mem_append_right _ (List.mem_singleton_self r)) h_only h_l.place h_l.task h_l.group h_token
      (fun h_req => h_l.cancelled.trans h_req) ?_
    rw [h_l.number, h_l.fired, or_iff_right h_fresh, and_iff_left rfl]
    exact Iff.rfl
  · refine (h.tended p').frame (fun v => ?_) (fun t' => ?_) (h_l.runs ▸ .append ?_) fun v k h_v h_k => ?_
    · rw [h_l.runsAt, or_iff_right fun h => h_eq h.1, and_iff_right h_eq]
    · rw [h_l.handed]
      exact h_others p' t' h_eq
    · rw [h_l.place]
      exact fun h => h_eq (Option.some.inj h).symm
    · -- a token that a queue held has the number of an older run
      obtain ⟨r', h_r', -, h_num⟩ := h.run_of_token h_v h_k
      have h_old : k ≠ ⟨y.engine.issued⟩ := by
        rintro rfl
        exact absurd (h.sound.issued_numbers r' h_r') (by rw [h_num]; exact Nat.lt_irrefl _)
      rw [h_l.fired, or_iff_left fun h => h_old h.2]

/-- **A task is launched.** Its queue learns the token of the run; if the task is marked already, the
token is fired at once and the run is cancelled from the start. -/
theorem launch (h : y.Ordered) {index : ℕ} {t : Task} {c : Clock} (h_hand : y.handed[index]? = some (p, t)) :
    (y.launch index c).Ordered := by
  obtain ⟨books, h_books⟩ := h.books
  obtain ⟨q, u, r, h_at, h_l⟩ := h.launch_spec c h_hand
  refine
  { books := ⟨Function.update books p ((books p).after
      (.attach u.id (Engine.idText y.engine.issued) ⟨y.engine.issued⟩)), ?_⟩
    untouched := h.untouched_operate (.attach u.id (Engine.idText y.engine.issued) ⟨y.engine.issued⟩) h_at
      (fun _ h => by cases h) h_l.queues
    sound := ?_
    hands := h_l.handed ▸ h.hands.sublist ((List.eraseIdx_sublist _ _).map _)
    tended := h.tended_launch h_hand h_l
    fired_issued := fun k h_k => ?_ }
  · rw [h_l.queues, h_l.issued]
    exact h_books.operate h_at (fun _ h => absurd h List.not_mem_nil) (Nat.le_succ _)
  · rw [h_l.runs, h_l.issued]
    refine h.sound.append h_l.number h_l.steady fun h_p => ?_
    -- the new run has a place, so nothing is asked of its task
    rw [h_l.place] at h_p
    cases h_p
  · rw [h_l.issued]
    rcases (h_l.fired k).mp h_k with h_k | ⟨-, rfl⟩
    · exact Nat.lt_succ_of_lt (h.fired_issued k h_k)
    · exact Nat.lt_succ_self _

/-- A run without a queue is opened. -/
theorem openRun (h : y.Ordered) {e : Engine} (h_number : r.number = y.engine.issued)
    (h_process : r.process.Steady) (h_place : r.place = none) (h_task : r.info.task = none)
    (h_queues : e.queueAt = y.engine.queueAt) (h_runs : e.runs = y.engine.runs ++ [r])
    (h_issued : e.issued = y.engine.issued + 1) : Ordered { y with engine := e } := by
  obtain ⟨books, h_books⟩ := h.books
  exact
  { books := ⟨books, h_queues ▸ h_issued ▸ h_books.mono (Nat.le_succ _)⟩
    untouched := h_queues ▸ h.untouched
    sound := h_runs ▸ h_issued ▸ h.sound.append h_number h_process fun _ => h_task
    hands := h.hands
    tended := fun p => (h.tended p).frame (fun u => by unfold Engine.RunsAt; rw [h_queues])
      (fun _ => Iff.rfl) (h_runs ▸ .append (by simp [h_place])) fun _ _ _ _ => Iff.rfl
    fired_issued := fun k h_k => h_issued ▸ Nat.lt_succ_of_lt (h.fired_issued k h_k) }

/-- The queue of a run is told of its end, which it does not refuse, and runs nothing then. -/
theorem complete_of_placed (h : y.Ordered) (h_r : r ∈ y.engine.runs) (h_place : r.place = some p)
    (outcome : TaskOutcome) (now : Instant) :
    ∃ q u d q', y.engine.queueAt p = some q ∧ q.running = some u ∧ r.info.task = some u.id ∧
      q.complete u.id outcome now = .ok (d, q') ∧ q'.running = none := by
  obtain ⟨books, h_books⟩ := h.books
  obtain ⟨u, ⟨q, h_at, h_run⟩, h_task, -⟩ := (h.tended p).placed r h_r h_place
  obtain ⟨d, q', h_com⟩ :=
    GroupQueue.complete_isOk h_run (h_books.running_group h_at h_run) outcome now
  refine ⟨q, u, d, q', h_at, h_run, h_task, h_com, ?_⟩
  obtain ⟨v, -, -, ⟨w, -, -, -, -, -, rfl⟩ | ⟨f, -, -, -, rfl⟩⟩ := GroupQueue.complete_cases h_com
  · rfl
  · rfl

theorem completion_of_placed (h_r : y.engine.run? r.number = some r)
    (h_place : r.place = some p) (h_at : y.engine.queueAt p = some q) {t : String}
    (h_task : r.info.task = some t) (outcome : TaskOutcome) (now : Instant) :
    completion y.engine r.number outcome now = q.tells (.complete t outcome now) := by
  simp only [completion, h_r, h_place, Option.bind_some, h_at, h_task]

theorem completion_of_placeless (h_r : y.engine.run? r.number = some r) (h_place : r.place = none)
    (outcome : TaskOutcome) (now : Instant) : completion y.engine r.number outcome now = [] := by
  simp only [completion, h_r, h_place, Option.bind_none]

/-- Where a run is finished, its queue runs nothing any more, and all others run what they did. -/
theorem runsAt_finish (h : y.Ordered) (h_mem : r ∈ y.engine.runs) {c : Clock} {report : RunReport}
    {e : Engine} (h_fin : y.engine.finish r.number c = some (report, e)) (p : ℕ) (v : Task) :
    e.RunsAt p v ↔ r.place ≠ some p ∧ y.engine.RunsAt p v := by
  obtain ⟨r', h_r', -, -, -, -, h_free, h_busy⟩ := Engine.finish_spec h_fin
  obtain rfl := h.sound.eq_of_number_eq (List.mem_of_find?_eq_some h_r') h_mem
    (by simpa using List.find?_some h_r')
  cases h_place : r'.place with
  -- a run without a queue leaves all queues as they are
  | none =>
    unfold Engine.RunsAt
    rw [h_free h_place]
    simp
  | some p' =>
    obtain ⟨q, u, d, q', h_at, -, h_task, h_com, h_idle⟩ :=
      h.complete_of_placed h_mem h_place report.outcome c.time
    -- the queue is told of the end, and that empties its running place
    rw [Engine.runsAt_update (h_busy p' q u.id h_place h_at h_task)]
    simp only [GroupQueue.after, h_com, h_idle]
    simp [eq_comm (a := p)]

/-- **A run is finished**, and its queue, if it has one, runs nothing any more. -/
theorem finish (h : y.Ordered) {run : ℕ} {c : Clock} {report : RunReport} {e : Engine}
    (h_fin : y.engine.finish run c = some (report, e)) : (y.finish run c).Ordered := by
  obtain ⟨books, h_books⟩ := h.books
  obtain ⟨r, h_r, -, -, h_runs, h_issued, h_free, h_busy⟩ := Engine.finish_spec h_fin
  have h_mem : r ∈ y.engine.runs := List.mem_of_find?_eq_some h_r
  obtain rfl : r.number = run := by simpa using List.find?_some h_r
  have h_step : y.finish r.number c =
      ⟨e, y.handed, y.log ++ completion y.engine r.number report.outcome c.time⟩ := by
    simp only [Yard.finish, h_fin]
  rw [h_step]
  -- whether the run has a queue or not, no other queue takes part
  have h_at' := h.runsAt_finish h_mem h_fin
  obtain ⟨h_books', h_untouched, h_quiet⟩ : (∃ books, Booked e.queueAt e.issued books) ∧
      (∀ p q, e.queueAt p = some q → ∀ t ∈ q.pending, t.Untouched) ∧
      ∀ k, .fired k ∉ completion y.engine r.number report.outcome c.time := by
    cases h_place : r.place with
    | none =>
      have h_queues := h_free h_place
      refine ⟨⟨books, h_issued ▸ h_queues ▸ h_books⟩, h_queues ▸ h.untouched, fun k => ?_⟩
      rw [completion_of_placeless h_r h_place]
      exact List.not_mem_nil
    | some p =>
      obtain ⟨q, u, d, q', h_at, -, h_task, h_com, -⟩ :=
        h.complete_of_placed h_mem h_place report.outcome c.time
      have h_queues := h_busy p q u.id h_place h_at h_task
      refine ⟨⟨_, h_issued ▸ h_queues ▸ h_books.operate h_at (fun _ h => absurd h List.not_mem_nil)
        (Nat.le_refl _)⟩, h.untouched_operate
          (.complete u.id report.outcome c.time) h_at (fun _ h => by cases h) h_queues, fun k h_k => ?_⟩
      rw [completion_of_placed h_r h_place h_at h_task] at h_k
      simp only [GroupQueue.tells, h_com] at h_k
      cases d <;> simp at h_k
  have h_fired : ∀ k, .fired k ∈ y.log ++ completion y.engine r.number report.outcome c.time ↔
      .fired k ∈ y.log := fun k => by rw [List.mem_append, or_iff_left (h_quiet k)]
  refine
  { books := h_books'
    untouched := h_untouched
    sound := h_runs ▸ h_issued ▸ h.sound.filter _
    hands := h.hands
    tended := fun p' => ?_
    fired_issued := fun k h_k => h_issued ▸ h.fired_issued k ((h_fired k).mp h_k) }
  by_cases h_place : r.place = some p'
  · -- nothing is left at the place of the run
    refine .of_nothing (fun v h_v => ((h_at' p' v).mp h_v).1 h_place) (h.not_handed h_mem h_place)
      fun r' h_r' h_p => ?_
    rw [h_runs] at h_r'
    cases h.eq_of_place_eq (List.mem_of_mem_filter h_r') h_mem h_p h_place
    exact absurd (List.mem_filter.mp h_r').2 (by simp)
  · refine (h.tended p').frame (fun v => ?_) (fun _ => Iff.rfl) (h_runs ▸ .filter fun r' h_r' h_p => ?_)
      fun _ k _ _ => h_fired k
    · exact (h_at' p' v).trans (and_iff_right h_place)
    · refine bne_iff_ne.mpr fun h_eq => h_place ?_
      rw [← h.sound.eq_of_number_eq h_r' h_mem h_eq]
      exact h_p

/-! ### Every move -/

/-- The runs that a move of the runs goes on with are kept. -/
theorem goOn (h : y.Ordered) (run : ℕ) {f : EngineRun → Option (Process RunEnd × RunContext)}
    (h_f : ∀ r ∈ y.engine.runs, ∀ x, f r = some x →
      x.1.Steady ∧ (r.context.cancelled = true → x.2.cancelled = true)) : (y.goOn run f).Ordered := by
  unfold Yard.goOn
  split
  · next r p context h_some =>
    obtain ⟨r', h_r', h_map⟩ := Option.bind_eq_some_iff.mp h_some
    obtain ⟨x, h_x, h_eq⟩ := Option.map_eq_some_iff.mp h_map
    cases h_eq
    obtain ⟨h_find, -⟩ := Option.filter_eq_some_iff.mp h_r'
    have h_mem : r ∈ y.engine.runs := List.mem_of_find?_eq_some h_find
    have h_number : r.number = run := by simpa using List.find?_some h_find
    obtain ⟨h_steady, h_cancelled⟩ := h_f r h_mem _ h_x
    refine h.carryOn (fun r => if r.number == run then { r with process := p, context := context } else r)
      rfl rfl (fun r' h_r' => ?_) rfl rfl _ rfl fun k h_k => ?_
    · -- no other run has this number
      by_cases h_eq : r'.number = run
      · obtain rfl := h.sound.eq_of_number_eq h_r' h_mem (h_eq.trans h_number.symm)
        simp only [h_eq, BEq.rfl, if_true]
        exact ⟨h_eq.symm, rfl, rfl, h_cancelled, fun _ => h_steady⟩
      · simp only [beq_iff_eq, h_eq, if_false]
        exact .refl r'
    · obtain ⟨request, -, h_eq⟩ := List.mem_map.mp h_k
      cases h_eq
  · exact h

/-- An operation from outside that offers no task. -/
theorem operate (h : y.Ordered) (place : ℕ) (h_out : op.isOutside = true) (h_offer : op.offered = []) :
    (y.operate place op).Ordered := by
  unfold Yard.operate
  split
  · next q h_at =>
    refine h.outside op h_at h_out (fun t h_t => ?_) (fun i h_i => ?_) (Nat.le_refl _)
      (Engine.queueAt_setQueue h_at) rfl rfl rfl
    · rw [h_t] at h_offer
      cases h_offer
    · rw [h_offer] at h_i
      exact absurd h_i List.not_mem_nil
  · exact h

/-- **Every move keeps a yard ordered.** -/
theorem step (h : y.Ordered) (m : Move) : (y.step m).Ordered := by
  cases m with
  | createGroup id name =>
    simp only [Yard.step]
    split
    · next e h_e =>
      obtain rfl := Engine.createGroup_eq_ok h_e
      exact h.createGroup (Engine.queueAt_length _) (Engine.queueAt_append _ _ _) rfl rfl rfl rfl
    · exact h
  | unlist place =>
    -- a queue that is taken out of those that exist stays at its place
    exact h.carryOn (fun r => r) (Engine.queueAt_unlist _ _) rfl (fun r _ => .refl r)
      (List.map_id' _).symm rfl [] (List.append_nil _).symm fun k => List.not_mem_nil
  | setEnabled place enabled => exact h.operate place rfl rfl
  | setExceptionScript place script => exact h.operate place rfl rfl
  | submit place draft =>
    simp only [Yard.step, Yard.submit, Yard.operate]
    split
    · next q h_at =>
      refine h.outside (.enqueue (draft.fresh (Engine.idText y.engine.issued))) h_at rfl
        (fun t h_t => ?_) (fun i h_i => ⟨List.mem_singleton.mp h_i, Nat.lt_succ_self _⟩) (Nat.le_succ _)
        (Engine.queueAt_setQueue h_at) rfl rfl rfl
      cases h_t
      exact ⟨rfl, rfl⟩
    · -- there is no such queue, but the id is used up
      obtain ⟨books, h_books⟩ := h.books
      exact h.adjust (fun r => r) ⟨books, h_books.mono (Nat.le_succ _)⟩ h.untouched (fun _ _ => Iff.rfl)
        (fun r _ => .refl r) (List.map_id' _).symm (Nat.le_succ _) rfl [] (List.append_nil _).symm
        fun k => List.not_mem_nil
  | cancel place task now => exact h.operate place rfl rfl
  | cancelAll place now => exact h.operate place rfl rfl
  | handOut place now =>
    simp only [Yard.step, Yard.handOut]
    split
    · -- a start fires no token
      next t q' h_some =>
      obtain ⟨q, h_at, h_deq⟩ := Option.bind_eq_some_iff.mp h_some
      have h_after : q.after (.dequeue now) = q' := by simp only [GroupQueue.after, h_deq]
      have h_tells : q.tells (.dequeue now) = [.started t.id] := by simp only [GroupQueue.tells, h_deq]
      have h_quiet : ∀ k, .fired k ∉ q.tells (.dequeue now) := by simp [h_tells]
      simp only [Yard.operate, h_at, Engine.stopFired_of_quiet _ h_quiet, h_after]
      exact h.handOut h_at h_deq (Engine.queueAt_setQueue h_at) rfl rfl rfl rfl h_quiet
    · exact h
  | launch index c =>
    cases h_hand : y.handed[index]? with
    | some x => exact h.launch h_hand
    | none =>
      simp only [Yard.step, Yard.launch, h_hand]
      exact h
  | openRun group script actions vars exceptionScript c =>
    obtain ⟨r, h_number, h_place, h_task, h_process, h_open⟩ :=
      y.engine.openRun_spec group script actions vars exceptionScript c
    simp only [Yard.step, h_open]
    exact h.openRun h_number (h_process ▸ (guarded_runActions actions 0 .null).steady) h_place h_task rfl
      rfl rfl
  | begin run c =>
    -- only the time of the beginning is written down
    refine h.carryOn (fun r => if r.number == run then { r with begunAt := r.begunAt.or (some c.time) } else r)
      rfl rfl (fun r _ => ?_) rfl rfl [] (List.append_nil _).symm fun k => List.not_mem_nil
    split
    · exact ⟨rfl, rfl, rfl, fun h => h, fun h => h⟩
    · exact .refl r
  | work run now =>
    refine h.goOn run fun r h_r x h_x => ?_
    exact ⟨(h.sound.steady r h_r).advance h_x, Process.advance_cancelled h_x⟩
  | reply run answer =>
    -- replies and sleeps leave the context of the run alone
    refine h.goOn run fun r h_r x h_x => ?_
    obtain ⟨p, h_p, rfl⟩ := Option.map_eq_some_iff.mp h_x
    exact ⟨((h.sound.steady r h_r).reply h_p).steady, fun h => h⟩
  | wake run =>
    refine h.goOn run fun r h_r x h_x => ?_
    obtain ⟨p, h_p, rfl⟩ := Option.map_eq_some_iff.mp h_x
    exact ⟨((h.sound.steady r h_r).wake h_p).steady, fun h => h⟩
  | finish run c =>
    cases h_fin : y.engine.finish run c with
    | some x => exact h.finish h_fin
    | none =>
      simp only [Yard.step, Yard.finish, h_fin]
      exact h
  | stop which =>
    -- a run may be cancelled without its task being marked, but not the other way round
    refine h.carryOn (fun r => if which r then r.cancel else r) rfl rfl (fun r _ => ?_) rfl rfl []
      (List.append_nil _).symm fun k => List.not_mem_nil
    split
    · exact .cancel r
    · exact .refl r
  | catalog scripts =>
    exact h.carryOn (fun r => r) rfl rfl (fun r _ => .refl r) (List.map_id' _).symm rfl []
      (List.append_nil _).symm fun k => List.not_mem_nil
  | switch paused started =>
    exact h.carryOn (fun r => r) rfl rfl (fun r _ => .refl r) (List.map_id' _).symm rfl []
      (List.append_nil _).symm fun k => List.not_mem_nil

/-- Every run keeps a yard ordered. -/
theorem run (h : y.Ordered) (moves : List Move) : (y.run moves).Ordered := by
  induction moves generalizing y with
  | nil => exact h
  | cons m moves ih => exact ih (h.step m)

end Ordered

end Yard

end ScriptYard
