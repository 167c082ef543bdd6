import ScriptYard.Proofs.Yard.Runs

/-!
# Every running task can come to its end

A task that a queue runs is never stuck. If it was given out, it can be launched; if it was launched, its
run can begin; and from there the run can be taken to its end, one step after the other, by induction on
what is left to do of it: a process is a tree, and each reply and each step leads into a smaller one. What
the calls are answered does not matter for this, and neither does what else goes on in the yard.

`Yard.Works` says that a live run has some process left, `Yard.Works.to_end` takes it to its end, and
`Yard.Ordered.exists_end` puts the pieces together.
-/

namespace ScriptYard

namespace Yard

/-- The live run of a number, of a task at a place, has so much left to do. -/
def Works (y : Yard) (n p : ℕ) (t : String) (left : Process RunEnd) : Prop :=
  ∃ r ∈ y.engine.runs, r.number = n ∧ r.place = some p ∧ r.info.task = some t ∧ r.begunAt.isSome = true ∧
    r.process = left

variable {y : Yard} {n p : ℕ} {t : String} {left : Process RunEnd}

/-- Moves after moves. -/
theorem run_append (y : Yard) (moves more : List Move) : y.run (moves ++ more) = (y.run moves).run more :=
  List.foldl_append

namespace Works

/-- A live run that can go on does. -/
theorem goOn (h_works : y.Works n p t left) (h : y.Ordered) (h_live : left.end? = none)
    {f : EngineRun → Option (Process RunEnd × RunContext)}
    (h_f : ∀ r, r.process = left → ∃ x, f r = some x) :
    ∃ r x, r.process = left ∧ f r = some x ∧ (y.goOn n f).Works n p t x.1 := by
  obtain ⟨r, h_r, rfl, h_place, h_task, h_begun, h_left⟩ := h_works
  obtain ⟨x, h_x⟩ := h_f r h_left
  have h_isLive : r.isLive = true := by simp [EngineRun.isLive, h_begun, h_left, h_live]
  refine ⟨r, x, h_left, h_x, ?_⟩
  rw [h.goOn_eq h_r h_isLive h_x]
  refine ⟨{ r with process := x.1, context := x.2 }, ?_, rfl, h_place, h_task, h_begun, rfl⟩
  exact List.mem_map.mpr ⟨r, h_r, by simp⟩

/-- Its own moves lead the run of a number to its end. -/
def ToEnd (y : Yard) (n p : ℕ) (t : String) : Prop :=
  ∃ moves x, (∀ m ∈ moves, m.worker? = some n) ∧ (y.run moves).Works n p t (.done x)

/-- One move of the run in front of others. -/
theorem ToEnd.cons {m : Move} (h_worker : m.worker? = some n) (h : ToEnd (y.step m) n p t) :
    ToEnd y n p t := by
  obtain ⟨moves, x, h_moves, h_works⟩ := h
  exact ⟨m :: moves, x, List.forall_mem_cons.mpr ⟨h_worker, h_moves⟩, h_works⟩

/-- **A live run can be taken to its end** by its own moves, also if it has just looked at the
variables. -/
theorem to_end (left : Process RunEnd) :
    (∀ y : Yard, y.Ordered → y.Works n p t left → ToEnd y n p t) ∧
    ∀ (vars : Variables) (y : Yard), y.Ordered → y.Works n p t (left.seen vars) → ToEnd y n p t := by
  -- the second part carries a look at the cancellation, which takes the looks behind it along
  induction left with
  | done x =>
    have h_here : ∀ y : Yard, y.Works n p t (.done x) → ToEnd y n p t :=
      fun y h_works => ⟨[], x, fun m h_m => absurd h_m List.not_mem_nil, h_works⟩
    exact ⟨fun y _ => h_here y, fun _ y _ => h_here y⟩
  | look k ih =>
    refine ⟨fun y h h_works => ToEnd.cons (m := .work n 0) rfl ?_, fun vars => (ih vars).2 vars⟩
    obtain ⟨r, x, h_r, h_x, h_works⟩ := h_works.goOn h rfl
      (f := fun r => r.process.advance 0 r.context) fun r h_r => ⟨_, by rw [h_r]; rfl⟩
    simp only [h_r] at h_x
    cases h_x
    exact (ih _).1 _ (h.step _) h_works
  | poll k ih =>
    suffices h_all : ∀ y : Yard, y.Ordered → y.Works n p t (.poll k) → ToEnd y n p t from ⟨h_all, fun _ => h_all⟩
    refine fun y h h_works => ToEnd.cons (m := .work n 0) rfl ?_
    obtain ⟨r, x, h_r, h_x, h_works⟩ := h_works.goOn h rfl
      (f := fun r => r.process.advance 0 r.context) fun r h_r => ⟨_, by rw [h_r]; rfl⟩
    simp only [h_r] at h_x
    cases h_x
    exact (ih _).2 _ _ (h.step _) h_works
  | cancel k ih | touch k ih | assign name value k ih =>
    refine ⟨fun y h h_works => ToEnd.cons (m := .work n 0) rfl ?_, fun _ y h h_works => ToEnd.cons (m := .work n 0) rfl ?_⟩
    all_goals
      obtain ⟨r, x, h_r, h_x, h_works⟩ := Works.goOn h_works h rfl
        (f := fun r => r.process.advance 0 r.context) fun r h_r => ⟨_, by rw [h_r]; rfl⟩
      simp only [h_r] at h_x
      cases h_x
      exact ih.1 _ (h.step _) h_works
  | call request k ih =>
    suffices h_all : ∀ y : Yard, y.Ordered → y.Works n p t (.call request k) → ToEnd y n p t from ⟨h_all, fun _ => h_all⟩
    -- any reply will do, as the induction is over all of them
    refine fun y h h_works => ToEnd.cons (m := .reply n fun _ => .error (.notFound "")) rfl ?_
    obtain ⟨r, x, h_r, h_x, h_works⟩ := h_works.goOn h rfl
      (f := fun r => (r.process.reply fun _ => .error (.notFound "")).map (·, r.context))
      fun r h_r => ⟨_, by rw [h_r]; rfl⟩
    simp only [h_r] at h_x
    cases h_x
    exact (ih _).1 _ (h.step _) h_works
  | sleep time k ih =>
    suffices h_all : ∀ y : Yard, y.Ordered → y.Works n p t (.sleep time k) → ToEnd y n p t from ⟨h_all, fun _ => h_all⟩
    refine fun y h h_works => ToEnd.cons (m := .wake n) rfl ?_
    obtain ⟨r, x, h_r, h_x, h_works⟩ := h_works.goOn h rfl
      (f := fun r => r.process.wake.map (·, r.context)) fun r h_r => ⟨_, by rw [h_r]; rfl⟩
    simp only [h_r] at h_x
    cases h_x
    exact (ih _).1 _ (h.step _) h_works

/-- A live run that is at its end can be finished. Its queue does not run the task then, and no other
does. -/
theorem finish {x : RunEnd} (h_works : y.Works n p t (.done x)) (h : y.Ordered) (c : Clock) :
    ∀ p' v, (y.finish n c).engine.RunsAt p' v → v.id ≠ t := by
  obtain ⟨r, h_r, rfl, h_place, h_task, h_begun, h_left⟩ := h_works
  obtain ⟨begun, h_begun⟩ := Option.isSome_iff_exists.mp h_begun
  obtain ⟨report, e, h_fin⟩ : ∃ report e, y.engine.finish r.number c = some (report, e) := by
    simp [Engine.finish, h.run?_eq h_r, h_left, Process.end?, h_begun]
  have h_step : (y.finish r.number c).engine = e := by simp only [Yard.finish, h_fin]
  obtain ⟨u, ⟨q, h_at, h_run⟩, h_u, -⟩ := (h.tended p).placed r h_r h_place
  intro p' v h_v h_id
  rw [h_step, h.runsAt_finish h_r h_fin, h_place] at h_v
  obtain ⟨h_ne, q', h_at', h_run'⟩ := h_v
  -- another queue that ran the task would keep it too, which the books exclude
  refine h.alone h_at (GroupQueue.mem_tasks.mpr (.inl h_run)) p' q' (fun h => h_ne (congrArg some h.symm))
    h_at' v (GroupQueue.mem_tasks.mpr (.inl h_run')) ?_
  rw [h_task] at h_u
  rw [h_id]
  exact Option.some.inj h_u

/-- A live run that is at its end can be finished, and its queue runs nothing then. -/
theorem finish_idle {x : RunEnd} (h_works : y.Works n p t (.done x)) (h : y.Ordered) (c : Clock) :
    ∀ v, ¬ (y.finish n c).engine.RunsAt p v := by
  obtain ⟨r, h_r, rfl, h_place, h_task, h_begun, h_left⟩ := h_works
  obtain ⟨begun, h_begun⟩ := Option.isSome_iff_exists.mp h_begun
  obtain ⟨report, e, h_fin⟩ : ∃ report e, y.engine.finish r.number c = some (report, e) := by
    simp [Engine.finish, h.run?_eq h_r, h_left, Process.end?, h_begun]
  have h_step : (y.finish r.number c).engine = e := by simp only [Yard.finish, h_fin]
  intro v h_v
  rw [h_step, h.runsAt_finish h_r h_fin] at h_v
  exact h_v.1 h_place

end Works

/-- A run that was launched can begin, and be taken to its end from there. -/
theorem Ordered.to_end (h : y.Ordered) {r : EngineRun} (h_r : r ∈ y.engine.runs) (h_place : r.place = some p)
    (h_task : r.info.task = some t) : Works.ToEnd y r.number p t := by
  have h_works : (y.step (.begin r.number default)).Works r.number p t r.process := by
    refine ⟨{ r with begunAt := r.begunAt.or (some _) }, List.mem_map.mpr ⟨r, h_r, by simp; rfl⟩, rfl,
      h_place, h_task, ?_, rfl⟩
    simp
  exact .cons (m := .begin r.number default) rfl ((Works.to_end r.process).1 _ (h.step _) h_works)

/-- **A worker can free its queue** by its own moves. -/
theorem Ordered.exists_release (h : y.Ordered) {r : EngineRun} (h_r : r ∈ y.engine.runs)
    (h_place : r.place = some p) :
    ∃ moves, (∀ m ∈ moves, m.worker? = some r.number) ∧ ∀ v, ¬ (y.run moves).engine.RunsAt p v := by
  obtain ⟨u, -, h_task, -⟩ := (h.tended p).placed r h_r h_place
  obtain ⟨moves, x, h_moves, h_works⟩ := h.to_end h_r h_place h_task
  refine ⟨moves ++ [.finish r.number default], fun m h_m => ?_, ?_⟩
  · rcases List.mem_append.mp h_m with h_m | h_m
    · exact h_moves m h_m
    · rw [List.mem_singleton.mp h_m]
      rfl
  · rw [run_append]
    exact h_works.finish_idle (h.run moves) default

/-- **A running task can come to its end**: some moves lead to a yard in which it is not running. -/
theorem Ordered.exists_end (h : y.Ordered) {u : Task} (h_u : y.engine.RunsAt p u) :
    ∃ moves, ∀ p' v, (y.run moves).engine.RunsAt p' v → v.id ≠ u.id := by
  -- from a run that has been launched
  have h_launched : ∀ y : Yard, y.Ordered → ∀ r ∈ y.engine.runs, r.place = some p →
      r.info.task = some u.id → ∃ moves, ∀ p' v, (y.run moves).engine.RunsAt p' v → v.id ≠ u.id := by
    intro y h r h_r h_place h_task
    obtain ⟨moves, x, -, h_works⟩ := h.to_end h_r h_place h_task
    refine ⟨moves ++ [.finish r.number default], ?_⟩
    rw [run_append]
    exact h_works.finish (h.run moves) default
  obtain ⟨-, t, h_t⟩ | ⟨r, h_r, h_place, h_token⟩ := (h.tended p).manned u h_u
  · -- the task was given out and is launched first
    obtain ⟨index, h_hand⟩ := List.getElem?_of_mem h_t
    obtain ⟨v, h_v, h_id, -⟩ := (h.tended p).handed t h_t
    cases h_v.unique h_u
    obtain ⟨q, h_at, h_run⟩ := h_u
    obtain ⟨r, -, h_place, h_task, -, -, -, -, h_launch⟩ := Engine.launch_spec h_at t default
    have h_r : r ∈ (y.step (.launch index default)).engine.runs := by
      simp [Yard.step, Yard.launch, h_hand, h_launch]
    obtain ⟨moves, h_moves⟩ := h_launched _ (h.step (.launch index default)) r h_r h_place
      (h_task.trans (congrArg some h_id.symm))
    exact ⟨.launch index default :: moves, h_moves⟩
  · obtain ⟨v, h_v, h_task, -⟩ := (h.tended p).placed r h_r h_place
    cases h_v.unique h_u
    exact h_launched y h r h_r h_place h_task

end Yard

end ScriptYard
