import ScriptYard.Proofs.Yard.Progress

/-!
# Slots, workers and the registry of live runs

Three parts of an engine keep track of the runs of tasks, each by itself: a queue has a slot for its running
task, a run that was launched is a worker until it tells its queue of its end, and the registry lists the
runs that are live. They are changed by different parties at different moments. The scheduler fills the
slot and launches the worker; the worker enters the registry when it begins, leaves it when it comes to its
end, and only then frees the slot.

An `Attendance` is a yard with a registry beside it, which is a `RunTable` that is written by the workers
alone: by `RunTable.register` when a run begins and by `RunTable.drop` when it is at its end. A `Stride` is
a move, or one task that the scheduler gives out and launches at once. `Attendance.slots_and_workers` says
that the three agree after any strides: a slot is filled exactly if there is one worker of the queue, which
is that of the task; the registry lists exactly the live runs; no end of a run is refused; and the worker
that fills a slot can free it by its own moves.
-/

namespace ScriptYard

/-! ### The registry -/

namespace RunTable

def Lists (t : RunTable) (i : RunInfo) : Prop := ∃ x ∈ t.live, x.info = i

/-- The table lists no id twice. -/
def Distinct (t : RunTable) : Prop := (t.live.map (·.info.id)).Nodup

variable {t : RunTable} {i j : RunInfo} {c : RunContext} {id : String}

theorem live_register (t : RunTable) (i : RunInfo) (c : RunContext) :
    (t.register i c).live = t.live.filter (fun x => x.info.id != i.id) ++ [⟨i, c, true⟩] := by
  simp only [register, live, List.filter_append, List.filter_filter, Bool.and_comm]
  rfl

theorem live_drop (t : RunTable) (id : String) :
    (t.drop id).live = t.live.filter fun x => x.info.id != id := by
  unfold drop live
  induction t with
  | nil => rfl
  | cons x t ih =>
    rw [List.map_cons]
    by_cases h_id : x.info.id = id
    · cases h_live : x.live <;> simpa [h_id, h_live] using ih
    · cases h_live : x.live <;> simpa [h_id, h_live] using ih

/-- A run that is registered is listed, and takes the place of another of its id. -/
theorem lists_register : (t.register i c).Lists j ↔ t.Lists j ∧ j.id ≠ i.id ∨ j = i := by
  unfold Lists
  rw [live_register]
  constructor
  · rintro ⟨x, h_x, rfl⟩
    rcases List.mem_append.mp h_x with h_x | h_x
    · obtain ⟨h_x, h_id⟩ := List.mem_filter.mp h_x
      exact .inl ⟨⟨x, h_x, rfl⟩, bne_iff_ne.mp h_id⟩
    · rw [List.mem_singleton.mp h_x]
      exact .inr rfl
  · rintro (⟨⟨x, h_x, rfl⟩, h_id⟩ | rfl)
    · exact ⟨x, List.mem_append_left _ (List.mem_filter.mpr ⟨h_x, bne_iff_ne.mpr h_id⟩), rfl⟩
    · exact ⟨_, List.mem_append_right _ (List.mem_singleton_self _), rfl⟩

theorem lists_drop : (t.drop id).Lists j ↔ t.Lists j ∧ j.id ≠ id := by
  unfold Lists
  rw [live_drop]
  constructor
  · rintro ⟨x, h_x, rfl⟩
    obtain ⟨h_x, h_id⟩ := List.mem_filter.mp h_x
    exact ⟨⟨x, h_x, rfl⟩, bne_iff_ne.mp h_id⟩
  · rintro ⟨⟨x, h_x, rfl⟩, h_id⟩
    exact ⟨x, List.mem_filter.mpr ⟨h_x, bne_iff_ne.mpr h_id⟩, rfl⟩

namespace Distinct

theorem register (h : t.Distinct) (i : RunInfo) (c : RunContext) : (t.register i c).Distinct := by
  unfold Distinct
  rw [live_register, List.map_append, List.nodup_append]
  refine ⟨h.sublist (List.filter_sublist.map _), List.nodup_singleton _, fun id h_id id' h_id' => ?_⟩
  obtain ⟨x, h_x, rfl⟩ := List.mem_map.mp h_id
  rw [List.mem_singleton.mp h_id']
  exact bne_iff_ne.mp (List.mem_filter.mp h_x).2

theorem drop (h : t.Distinct) (id : String) : (t.drop id).Distinct := by
  unfold Distinct
  rw [live_drop]
  exact h.sublist (List.filter_sublist.map _)

end Distinct

end RunTable

/-! ### Strides -/

def EngineRun.hasReturned (r : EngineRun) : Bool := r.begunAt.isSome && r.process.end?.isSome

namespace Yard

/-- The run whose own step a move is, if it is at its end then. -/
def returner? (y : Yard) (m : Move) : Option EngineRun :=
  (m.worker?.bind (y.step m).engine.run?).filter (·.hasReturned)

end Yard

/-- What happens in an engine at once, if a task is launched as soon as it was given out. -/
inductive Stride where
  /-- A move, but not of the scheduler. -/
  | move (m : Move) (h : m.isScheduling = false)
  /-- The scheduler asks a queue for its next task and launches a run of it. -/
  | dispatch (place : ℕ) (c : Clock)

def Stride.moves : Stride → List Move
  | .move m _ => [m]
  | .dispatch place c => [.handOut place c.time, .launch 0 c]

/-- A yard, and the registry of its live runs. -/
structure Attendance where
  yard : Yard
  registry : RunTable := []

namespace Attendance

/-- The registry after a move: a run enters it when it begins, and leaves it when it is at its end. -/
def enter (a : Attendance) (m : Move) : RunTable :=
  let entered := match a.yard.starter? m with
    | some r => a.registry.register r.info r.context
    | none => a.registry
  match a.yard.returner? m with
  | some r => entered.drop r.info.id
  | none => entered

/-- What comes after a move. -/
def step (a : Attendance) (m : Move) : Attendance := ⟨a.yard.step m, a.enter m⟩

/-- What comes after some strides. -/
def run (a : Attendance) (strides : List Stride) : Attendance := (strides.flatMap Stride.moves).foldl step a

end Attendance

namespace Engine

/-- A live run of the engine is known as this. -/
def UnderWay (e : Engine) (i : RunInfo) : Prop := ∃ r ∈ e.runs, r.isLive = true ∧ r.info = i

end Engine

namespace Attendance

/-- The registry lists the live runs, each once, and runs are known by the texts of their numbers. -/
structure Complete (a : Attendance) : Prop where
  ordered : a.yard.Ordered
  /-- The runs are known by the texts of their numbers. -/
  named : a.yard.Named
  /-- The registry lists no id twice. -/
  distinct : a.registry.Distinct
  /-- It lists the live runs. -/
  lists : ∀ i, a.registry.Lists i ↔ a.yard.engine.UnderWay i

variable {a : Attendance} {m : Move} {i : RunInfo} {r : EngineRun}

theorem starter?_eq_none (y : Yard) (h_begin : ∀ n c, m ≠ .begin n c) : y.starter? m = none := by
  cases m with
  | begin n c => exact absurd rfl (h_begin n c)
  | _ => rfl

/-- A run that is at its end is not under way. -/
theorem not_underWay_of_returner {y : Yard} (h_named : y.Named) (h : y.Ordered)
    (h_r : r ∈ y.engine.runs) (h_returned : r.hasReturned = true) (h_i : y.engine.UnderWay i) :
    i.id ≠ r.info.id := by
  obtain ⟨r', h_r', h_live, rfl⟩ := h_i
  intro h_id
  obtain rfl := h_named.eq_of_id_eq h h_r' h_r h_id
  simp only [EngineRun.isLive, EngineRun.hasReturned, Bool.and_eq_true, Option.isNone_iff_eq_none] at *
  rw [h_live.2] at h_returned
  exact absurd h_returned.2 (by simp)

/-- A run that is under way after a move in which no run begins was so before. -/
theorem underWay_of_step {y : Yard} (h : y.Ordered) (h_begin : ∀ n c, m ≠ .begin n c)
    (h_i : (y.step m).engine.UnderWay i) : y.engine.UnderWay i := by
  obtain ⟨r', h_r', h_live', rfl⟩ := h_i
  obtain ⟨h_begun', h_none'⟩ := Bool.and_eq_true_iff.mp h_live'
  obtain ⟨r, h_r, h_on, h_iff⟩ | ⟨-, -, h_none, -⟩ := (y.turn m).origin h h_r'
  · have h_begun : r.begunAt.isSome = true := by
      obtain h_begun | ⟨c, h_m⟩ := h_iff.mp h_begun'
      · exact h_begun
      · exact absurd h_m (h_begin r.number c)
    -- a run that was at its end would be so still
    have h_going : r.process.end?.isNone = true := by
      cases h_end : r.process.end? with
      | none => rfl
      | some x =>
        rw [h_on.ended (by rw [h_end]; rfl), h_end] at h_none'
        cases h_none'
    exact ⟨r, h_r, Bool.and_eq_true_iff.mpr ⟨h_begun, h_going⟩, h_on.info.symm⟩
  · rw [h_none] at h_begun'
    cases h_begun'

/-- A run that is under way stays so in a move, unless it comes to its end. -/
theorem underWay_stays {y : Yard} (h : y.Ordered) (h_begin : ∀ n c, m ≠ .begin n c)
    (h_i : y.engine.UnderWay i) (h_none : ∀ r, y.returner? m = some r → i.id ≠ r.info.id) :
    (y.step m).engine.UnderWay i := by
  obtain ⟨r₁, h_r₁, h_live₁, rfl⟩ := h_i
  have h_turn := y.turn m
  generalize h_runs : (y.step m).engine.runs = runs at h_turn
  unfold Engine.UnderWay
  rw [h_runs]
  cases h_turn with
  | idle => exact ⟨r₁, h_r₁, h_live₁, rfl⟩
  | stopped f h_worker h_f =>
    -- a run that is told to stop is under way as before
    have h_same : (f r₁).isLive = r₁.isLive ∧ (f r₁).info = r₁.info := by
      rcases h_f r₁ with h_eq | h_eq
      · rw [h_eq]
        exact ⟨rfl, rfl⟩
      · rw [h_eq]
        exact ⟨rfl, rfl⟩
    exact ⟨f r₁, List.mem_map_of_mem h_r₁, h_same.1.trans h_live₁, h_same.2⟩
  | opened r => exact ⟨r₁, List.mem_append_left _ h_r₁, h_live₁, rfl⟩
  | begun n c h_move => exact absurd h_move (h_begin n c)
  | worked r p context h_r h_worker =>
    by_cases h_eq : r₁.number = r.number
    · obtain rfl := h.sound.eq_of_number_eq h_r₁ h_r h_eq
      -- unless it returns, the run that goes on stays under way
      let r' : EngineRun := { r₁ with process := p, context := context }
      have h_r' : r' ∈ (y.step m).engine.runs := by
        rw [h_runs]
        exact List.mem_map.mpr ⟨r₁, h_r₁, by simp [r']⟩
      have h_begun : r₁.begunAt.isSome = true := (Bool.and_eq_true_iff.mp h_live₁).1
      cases h_end : p.end? with
      | none =>
        refine ⟨r', h_runs ▸ h_r', ?_, rfl⟩
        simp [r', EngineRun.isLive, h_begun, h_end]
      | some x =>
        have h_returner : y.returner? m = some r' := by
          unfold Yard.returner?
          rw [h_worker, Option.bind_some, show r₁.number = r'.number from rfl, (h.step m).run?_eq h_r']
          simp [r', EngineRun.hasReturned, h_begun, h_end]
        exact absurd rfl (h_none r' h_returner)
    · refine ⟨r₁, List.mem_map.mpr ⟨r₁, h_r₁, ?_⟩, h_live₁, rfl⟩
      rw [if_neg (by simpa using h_eq)]
  | finished r h_r h_worker _ h_over =>
    -- only a run that is at its end is taken away
    refine ⟨r₁, List.mem_filter.mpr ⟨h_r₁, bne_iff_ne.mpr fun h_eq => ?_⟩, h_live₁, rfl⟩
    rw [h.sound.eq_of_number_eq h_r₁ h_r h_eq, h_over] at h_live₁
    cases h_live₁

/-- In a move that begins no run, those under way are the ones of before, but for one that comes to its
end. -/
theorem underWay_step {y : Yard} (h_named : y.Named) (h : y.Ordered) (h_begin : ∀ n c, m ≠ .begin n c) :
    (y.step m).engine.UnderWay i ↔
      y.engine.UnderWay i ∧ ∀ r, y.returner? m = some r → i.id ≠ r.info.id := by
  constructor
  · intro h_i
    refine ⟨underWay_of_step h h_begin h_i, fun r h_r => ?_⟩
    -- a run that returns is one of those that are there afterwards
    obtain ⟨h_bind, h_returned⟩ := Option.filter_eq_some_iff.mp h_r
    obtain ⟨n, -, h_find⟩ := Option.bind_eq_some_iff.mp h_bind
    exact not_underWay_of_returner (h_named.step h m) (h.step m) (List.mem_of_find?_eq_some h_find)
      h_returned h_i
  · rintro ⟨h_i, h_none⟩
    exact underWay_stays h h_begin h_i h_none

/-- Where a run begins that has not begun before, it is under way unless it has nothing to do; all others
are as before. -/
theorem underWay_begin {y : Yard} (h_named : y.Named) (h : y.Ordered) (h_r : r ∈ y.engine.runs) (c : Clock) :
    (y.step (.begin r.number c)).engine.UnderWay i ↔
      y.engine.UnderWay i ∧ i.id ≠ r.info.id ∨ r.process.end? = none ∧ i = r.info := by
  have h_live : ({ r with begunAt := r.begunAt.or (some c.time) } : EngineRun).isLive = r.process.end?.isNone := by
    simp [EngineRun.isLive]
  constructor
  · rintro ⟨r', h_r', h_live', rfl⟩
    obtain ⟨r₁, h_r₁, rfl⟩ := List.mem_map.mp h_r'
    -- only the run of this number changes, and it has an id of its own
    by_cases h_eq : r₁.number = r.number
    · obtain rfl := h.sound.eq_of_number_eq h_r₁ h_r h_eq
      simp only [BEq.rfl, if_true] at h_live' ⊢
      rw [h_live] at h_live'
      exact .inr ⟨Option.isNone_iff_eq_none.mp h_live', trivial⟩
    · simp only [beq_iff_eq, h_eq, if_false] at h_live' ⊢
      refine .inl ⟨⟨r₁, h_r₁, h_live', rfl⟩, fun h_id => h_eq ?_⟩
      rw [h_named.eq_of_id_eq h h_r₁ h_r h_id]
  · rintro (⟨⟨r₁, h_r₁, h_live₁, rfl⟩, h_id⟩ | ⟨h_end, rfl⟩)
    · have h_eq : r₁.number ≠ r.number := fun h_eq => h_id (by rw [h.sound.eq_of_number_eq h_r₁ h_r h_eq])
      exact ⟨r₁, List.mem_map.mpr ⟨r₁, h_r₁, by simp [h_eq]⟩, h_live₁, rfl⟩
    · refine ⟨_, List.mem_map.mpr ⟨r, h_r, if_pos BEq.rfl⟩, ?_, rfl⟩
      rw [h_live, h_end]
      rfl

/-- The registry after the worker of a run has entered it, if it had not before. -/
theorem lists_entered (h : a.Complete) (h_r : r ∈ a.yard.engine.runs) (c : Clock) :
    RunTable.Lists (match a.yard.starter? (.begin r.number c) with
      | some r => a.registry.register r.info r.context
      | none => a.registry) i ↔
    a.yard.engine.UnderWay i ∧ i.id ≠ r.info.id ∨ (r.begunAt = none ∨ r.process.end? = none) ∧ i = r.info := by
  simp only [Yard.starter?, h.ordered.run?_eq h_r]
  -- the worker enters its run at the first beginning only
  cases h_begun : r.begunAt with
  | none => simp [Option.filter, h_begun, RunTable.lists_register, h.lists]
  | some time =>
    simp only [Option.filter, h_begun, Option.isNone_some, Bool.false_eq_true, if_false, h.lists]
    constructor
    · intro h_i
      by_cases h_id : i.id = r.info.id
      · obtain ⟨r₁, h_r₁, h_live, rfl⟩ := h_i
        obtain rfl := h.named.eq_of_id_eq h.ordered h_r₁ h_r h_id
        exact .inr ⟨.inr (Option.isNone_iff_eq_none.mp (Bool.and_eq_true_iff.mp h_live).2), rfl⟩
      · exact .inl ⟨h_i, h_id⟩
    · rintro (⟨h_i, -⟩ | ⟨h_end | h_end, rfl⟩)
      · exact h_i
      · cases h_end
      · exact ⟨r, h_r, by simp [EngineRun.isLive, h_begun, h_end], rfl⟩

/-- A run that begins enters the registry, and leaves it at once if it has nothing to do. -/
theorem lists_begin (h : a.Complete) (h_r : r ∈ a.yard.engine.runs) (c : Clock) :
    (a.enter (.begin r.number c)).Lists i ↔ (a.yard.step (.begin r.number c)).engine.UnderWay i := by
  -- the run as it is afterwards
  let r' : EngineRun := { r with begunAt := r.begunAt.or (some c.time) }
  have h_r' : r' ∈ (a.yard.step (.begin r.number c)).engine.runs := List.mem_map.mpr ⟨r, h_r, if_pos BEq.rfl⟩
  have h_returner : a.yard.returner? (.begin r.number c) = (some r').filter (·.hasReturned) :=
    congrArg _ ((h.ordered.step (.begin r.number c)).run?_eq h_r')
  rw [underWay_begin h.named h.ordered h_r c]
  unfold enter
  simp only [h_returner]
  cases h_end : r.process.end? with
  | none =>
    have h_returned : r'.hasReturned = false := by simp [r', EngineRun.hasReturned, h_end]
    simp only [Option.filter, h_returned, Bool.false_eq_true, if_false]
    rw [lists_entered h h_r c]
    simp [h_end]
  | some x =>
    have h_returned : r'.hasReturned = true := by simp [r', EngineRun.hasReturned, h_end]
    simp only [Option.filter, h_returned, if_true]
    rw [RunTable.lists_drop, lists_entered h h_r c]
    constructor
    · rintro ⟨h_i | ⟨-, rfl⟩, h_id⟩
      · exact .inl h_i
      · exact absurd rfl h_id
    · rintro (h_i | ⟨h_none, -⟩)
      · exact ⟨.inl h_i, h_i.2⟩
      · cases h_none

/-- Where no run has the number, nothing begins. -/
theorem lists_begin_none (h : a.Complete) {n : ℕ} (h_find : a.yard.engine.run? n = none) (c : Clock) :
    (a.enter (.begin n c)).Lists i ↔ (a.yard.step (.begin n c)).engine.UnderWay i := by
  have h_same : (a.yard.step (.begin n c)).engine.runs = a.yard.engine.runs := by
    refine (List.map_congr_left fun r h_r => ?_).trans (List.map_id' _)
    -- no run changes, so that neither the registry nor the yard does
    have h_ne : ¬ (r.number == n) = true := List.find?_eq_none.mp h_find r h_r
    rw [if_neg h_ne]
  have h_find' : (a.yard.step (.begin n c)).engine.run? n = none := by
    unfold Engine.run? at h_find ⊢
    rw [h_same, h_find]
  have h_starter : a.yard.starter? (.begin n c) = none := by
    simp only [Yard.starter?, h_find, Option.filter_none]
  have h_returner : a.yard.returner? (.begin n c) = none := by
    simp only [Yard.returner?, Move.worker?, Option.bind_some, h_find', Option.filter_none]
  unfold enter Engine.UnderWay
  rw [h_starter, h_returner, h_same]
  exact h.lists i

/-- **Every move keeps the registry complete.** -/
theorem Complete.step (h : a.Complete) (m : Move) : (a.step m).Complete where
  ordered := h.ordered.step m
  named := h.named.step h.ordered m
  distinct := by
    show (a.enter m).Distinct
    have h_entered : ∀ r? : Option EngineRun, RunTable.Distinct
        (match r? with | some r => a.registry.register r.info r.context | none => a.registry) := by
      intro r?
      cases r? with
      | none => exact h.distinct
      | some r => exact h.distinct.register r.info r.context
    unfold enter
    simp only
    cases a.yard.returner? m with
    | none => exact h_entered _
    | some r => exact (h_entered _).drop r.info.id
  lists := fun i => by
    show (a.enter m).Lists i ↔ (a.yard.step m).engine.UnderWay i
    by_cases h_begin : ∀ n c, m ≠ .begin n c
    · -- no run begins, and one that comes to its end leaves
      rw [underWay_step h.named h.ordered h_begin, ← h.lists i]
      unfold enter
      rw [starter?_eq_none a.yard h_begin]
      cases a.yard.returner? m with
      | none => simp
      | some r => simp [RunTable.lists_drop]
    · push Not at h_begin
      obtain ⟨n, c, rfl⟩ := h_begin
      cases h_find : a.yard.engine.run? n with
      | none => exact lists_begin_none h h_find c
      | some r =>
        obtain rfl : r.number = n := by simpa using List.find?_some h_find
        exact lists_begin h (List.mem_of_find?_eq_some h_find) c

/-! ### Slots and workers -/

/-- No task is between its queue and its run. -/
def Settled (a : Attendance) : Prop := a.yard.handed = []

/-- A task that is given out is launched in the same stride. -/
theorem handed_dispatch (y : Yard) (h : y.handed = []) (place : ℕ) (c : Clock) :
    ((y.step (.handOut place c.time)).step (.launch 0 c)).handed = [] := by
  simp only [Yard.step, Yard.handOut]
  split
  · next t q h_some =>
    simp [Yard.launch, h]
  · simp [Yard.launch, h]

theorem run_complete (h : a.Complete) (h_settled : a.Settled) (strides : List Stride) :
    (a.run strides).Complete ∧ (a.run strides).Settled := by
  induction strides generalizing a with
  | nil => exact ⟨h, h_settled⟩
  | cons s strides ih =>
    have h_run : a.run (s :: strides) = (s.moves.foldl Attendance.step a).run strides := by
      simp only [run, List.flatMap_cons, List.foldl_append]
    rw [h_run]
    cases s with
    | move m h_m => exact ih (h.step m) ((a.yard.handed_step h_m).trans h_settled)
    | dispatch place c =>
      exact ih ((h.step (.handOut place c.time)).step (.launch 0 c))
        (handed_dispatch a.yard h_settled place c)

/-- The slot of a queue tells of its worker. -/
theorem workers_eq {y : Yard} (h : y.Ordered) (h_handed : y.handed = []) {p : ℕ} {q : GroupQueue}
    (h_at : y.engine.queueAt p = some q) :
    (y.engine.runs.filter (·.place == some p)).map (·.info.task) = q.running.toList.map fun u => some u.id := by
  cases h_run : q.running with
  | none =>
    -- a worker would be that of the running task
    have h_none : y.engine.runs.filter (·.place == some p) = [] := by
      refine List.filter_eq_nil_iff.mpr fun r h_r h_place => ?_
      obtain ⟨u, ⟨q', h_at', h_run'⟩, -⟩ := (h.tended p).placed r h_r (by simpa using h_place)
      rw [h_at] at h_at'
      cases h_at'
      rw [h_run] at h_run'
      cases h_run'
    rw [h_none]
    rfl
  | some u =>
    obtain ⟨-, t, h_t⟩ | ⟨r, h_r, h_place, -⟩ := (h.tended p).manned u ⟨q, h_at, h_run⟩
    · rw [h_handed] at h_t
      exact absurd h_t List.not_mem_nil
    · obtain ⟨v, ⟨q', h_at', h_run'⟩, h_task, -⟩ := (h.tended p).placed r h_r h_place
      rw [h_at] at h_at'
      cases h_at'
      rw [h_run] at h_run'
      cases h_run'
      -- there is no other worker of this queue
      have h_one : y.engine.runs.filter (·.place == some p) = [r] :=
        h.sound.filter_eq_singleton h_r (by simp [h_place]) fun r' h_r' h_place' =>
          h.eq_of_place_eq h_r' h_r (by simpa using h_place') h_place
      rw [h_one]
      simp [h_task]

/-- An engine in which nothing has happened yet. -/
def idle (settings : EngineSettings) : Attendance := ⟨.idle settings, []⟩

theorem complete_idle (settings : EngineSettings) : (idle settings).Complete where
  ordered := .idle settings
  named := fun _ h_r => absurd h_r List.not_mem_nil
  distinct := List.nodup_nil
  lists := fun i => by
    constructor
    · rintro ⟨x, h_x, -⟩
      exact absurd h_x List.not_mem_nil
    · rintro ⟨r, h_r, -⟩
      exact absurd h_r List.not_mem_nil

/-- **Slots, workers and the registry agree** after any strides, whatever the engine was asked to do and
however its scheduler, its runs and its watch over them went on side by side:

* the workers of a queue, whether its group still exists or not, are one if a task fills its slot, which is
  then the task of the worker, and none if the slot is empty;
* the registry lists exactly the runs that have begun and have not come to their end, each once;
* the queue of a worker never refuses to be told of its end, whatever the outcome;
* the worker that fills a slot can free it by its own moves. -/
theorem slots_and_workers (settings : EngineSettings) (strides : List Stride) :
    let a := (idle settings).run strides
    let e := a.yard.engine
    (∀ p q, e.queueAt p = some q →
      (e.runs.filter (·.place == some p)).map (·.info.task) = q.running.toList.map fun u => some u.id) ∧
    ((a.registry.live.map (·.info.id)).Nodup ∧
      ∀ i, (∃ x ∈ a.registry.live, x.info = i) ↔
        ∃ r ∈ e.runs, r.begunAt.isSome = true ∧ r.process.end? = none ∧ r.info = i) ∧
    (∀ r ∈ e.runs, ∀ p, r.place = some p → ∃ q t, e.queueAt p = some q ∧ r.info.task = some t ∧
      ∀ outcome now, ∃ d q', q.complete t outcome now = .ok (d, q')) ∧
    ∀ p q u, e.queueAt p = some q → q.running = some u → ∃ r ∈ e.runs, r.place = some p ∧
      ∃ moves, (∀ m ∈ moves, m.worker? = some r.number) ∧ ∀ v, ¬ (a.yard.run moves).engine.RunsAt p v := by
  intro a e
  obtain ⟨h, h_settled⟩ : a.Complete ∧ a.Settled := run_complete (complete_idle settings) rfl strides
  -- after whole strides nothing is handed out and unlaunched, which is `h_settled`
  refine ⟨fun p q h_at => workers_eq h.ordered h_settled h_at, ⟨h.distinct, fun i => ?_⟩, ?_, ?_⟩
  · have h_live : ∀ r : EngineRun, r.isLive = true ↔ r.begunAt.isSome = true ∧ r.process.end? = none :=
      fun r => by rw [EngineRun.isLive, Bool.and_eq_true, Option.isNone_iff_eq_none]
    refine (h.lists i).trans (exists_congr fun r => and_congr_right fun _ => ?_)
    rw [h_live, and_assoc]
  · intro r h_r p h_place
    obtain ⟨books, h_books⟩ := h.ordered.books
    obtain ⟨u, ⟨q, h_at, h_run⟩, h_task, -⟩ := (h.ordered.tended p).placed r h_r h_place
    refine ⟨q, u.id, h_at, h_task, fun outcome now => ?_⟩
    exact GroupQueue.complete_isOk h_run (h_books.running_group h_at h_run) outcome now
  · intro p q u h_at h_run
    obtain ⟨-, t, h_t⟩ | ⟨r, h_r, h_place, -⟩ := (h.ordered.tended p).manned u ⟨q, h_at, h_run⟩
    · -- the slot is filled by a worker, not by a task on its way
      rw [show a.yard.handed = [] from h_settled] at h_t
      exact absurd h_t List.not_mem_nil
    · exact ⟨r, h_r, h_place, h.ordered.exists_release h_r h_place⟩

end Attendance

end ScriptYard
