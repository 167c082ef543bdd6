import ScriptYard.Proofs.Yard.Order

/-!
# What moves do to runs

A `Yard.Turn` says in one place what a move can do to the runs of a yard: tell some of them to stop, add
one that has not begun, let one begin, let a live one go on, or take one away that came to its end. The
last three are steps of the run's own worker (`Move.worker?`), and no other run takes part in them. Every
move is such a turn (`Yard.turn`), and that is all that statements about the runs of a yard need. Most need
less: where a run comes from that is there after a move (`Yard.Turn.origin`).

Runs are known by the texts of their numbers (`Yard.Named`), so that no two have the same id.
-/

namespace ScriptYard

/-- The run whose own step a move is. -/
def Move.worker? : Move → Option ℕ
  | .begin n _ | .work n _ | .reply n _ | .wake n | .finish n _ => some n
  | _ => none

/-- The move is one of the two in which the scheduler passes a task on. -/
def Move.isScheduling : Move → Bool
  | .handOut .. | .launch .. => true
  | _ => false

/-- A run goes on as another record of it tells: a cancellation is not taken back, and a run that is at its
end stays there. -/
structure EngineRun.Onward (r r' : EngineRun) : Prop where
  /-- The number is the same. -/
  number : r'.number = r.number
  /-- What is known of the run is the same. -/
  info : r'.info = r.info
  /-- A cancellation is not taken back. -/
  cancelled : r.context.cancelled = true → r'.context.cancelled = true
  /-- A run that is at its end stays there. -/
  ended : r.process.end?.isSome = true → r'.process = r.process

namespace EngineRun.Onward

theorem refl (r : EngineRun) : r.Onward r := ⟨rfl, rfl, fun h => h, fun _ => rfl⟩

theorem cancel (r : EngineRun) : r.Onward r.cancel := ⟨rfl, rfl, fun _ => rfl, fun _ => rfl⟩

end EngineRun.Onward

namespace Yard

/-- The run that begins in a move. -/
def starter? (y : Yard) : Move → Option EngineRun
  | .begin n _ => (y.engine.run? n).filter (·.begunAt.isNone)
  | _ => none

/-- The runs that begin in a move, which is one at most. -/
def entered (y : Yard) (m : Move) : List RunInfo := ((y.starter? m).map (·.info)).toList

/-- The runs are known by the texts of their numbers. -/
def Named (y : Yard) : Prop := ∀ r ∈ y.engine.runs, r.info.id = Engine.idText r.number

/-- What a move can do to the runs. -/
inductive Turn (y : Yard) (m : Move) : List EngineRun → Prop where
  /-- Nothing. -/
  | idle (h_begin : ∀ n c, m ≠ .begin n c) : y.Turn m y.engine.runs
  /-- Some runs are told to stop. -/
  | stopped (f : EngineRun → EngineRun) (h_worker : m.worker? = none) (h : ∀ r, f r = r ∨ f r = r.cancel) :
    y.Turn m (y.engine.runs.map f)
  /-- A run is opened or launched. It has not begun. If it is launched for a task that was queued because
  a run stalled, it names no script for this case itself. -/
  | opened (r : EngineRun) (h_worker : m.worker? = none) (h_number : r.number = y.engine.issued)
    (h_id : r.info.id = Engine.idText r.number) (h_begun : r.begunAt = none)
    (h_task : r.info.task = none ∨ ∃ p t, (p, t) ∈ y.handed ∧ r.info.task = some t.id ∧
      (t.isExceptionHandler = true → r.info.exceptionScript = none)) :
    y.Turn m (y.engine.runs ++ [r])
  /-- A run begins, if it has not begun before. -/
  | begun (n : ℕ) (c : Clock) (h_move : m = .begin n c) :
    y.Turn m (y.engine.runs.map fun r =>
      if r.number == n then { r with begunAt := r.begunAt.or (some c.time) } else r)
  /-- A live run goes on. -/
  | worked (r : EngineRun) (p : Process RunEnd) (context : RunContext) (h_r : r ∈ y.engine.runs)
    (h_worker : m.worker? = some r.number) (h_begin : ∀ n c, m ≠ .begin n c) (h_live : r.isLive = true)
    (h_cancelled : r.context.cancelled = true → context.cancelled = true) :
    y.Turn m (y.engine.runs.map fun r' =>
      if r'.number == r.number then { r' with process := p, context := context } else r')
  /-- A run that came to its end is taken away. -/
  | finished (r : EngineRun) (h_r : r ∈ y.engine.runs) (h_worker : m.worker? = some r.number)
    (h_begin : ∀ n c, m ≠ .begin n c) (h_live : r.isLive = false) :
    y.Turn m (y.engine.runs.filter (·.number != r.number))

variable {y : Yard} {m : Move} {runs : List EngineRun}

/-! ### Every move is a turn -/

theorem Turn.idle_of_worker (h_worker : m.worker? = none) : y.Turn m y.engine.runs := by
  refine .idle fun n c h => ?_
  rw [h] at h_worker
  cases h_worker

theorem turn_operate (y : Yard) (place : ℕ) (op : QueueOp) (h_worker : m.worker? = none) :
    y.Turn m (y.operate place op).engine.runs := by
  unfold operate
  split
  · next q h_at =>
    refine .stopped (fun r => if decide (.fired ⟨r.number⟩ ∈ q.tells op) = true then r.cancel else r)
      h_worker fun r => ?_
    split
    · exact .inr rfl
    · exact .inl rfl
  · exact .idle_of_worker h_worker

theorem turn_launch (y : Yard) (index : ℕ) (c : Clock) :
    y.Turn (.launch index c) (y.launch index c).engine.runs := by
  unfold launch
  cases h_hand : y.handed[index]? with
  | none => exact .idle_of_worker rfl
  | some x =>
    obtain ⟨place, t⟩ := x
    simp only [Engine.launch]
    cases h_p : y.engine.queues[place]? with
    | none => exact .idle_of_worker rfl
    | some h =>
      refine .opened _ rfl rfl rfl rfl (.inr ⟨place, t, List.mem_of_getElem? h_hand, rfl, fun h_flag => ?_⟩)
      simp only [Engine.exceptionScriptOf, h_flag, if_true]

theorem turn_goOn (y : Yard) {n : ℕ} {f : EngineRun → Option (Process RunEnd × RunContext)}
    (h_worker : m.worker? = some n) (h_begin : ∀ n c, m ≠ .begin n c)
    (h_f : ∀ r x, f r = some x → r.context.cancelled = true → x.2.cancelled = true) :
    y.Turn m (y.goOn n f).engine.runs := by
  unfold Yard.goOn
  split
  · next r p context h_some =>
    obtain ⟨r', h_r', h_map⟩ := Option.bind_eq_some_iff.mp h_some
    obtain ⟨x, h_x, h_eq⟩ := Option.map_eq_some_iff.mp h_map
    cases h_eq
    obtain ⟨h_find, h_live⟩ := Option.filter_eq_some_iff.mp h_r'
    have h_mem : r ∈ y.engine.runs := List.mem_of_find?_eq_some h_find
    obtain rfl : r.number = n := by simpa using List.find?_some h_find
    exact .worked r p context h_mem h_worker h_begin h_live (h_f r _ h_x)
  · exact .idle h_begin

/-- **Every move is a turn** of the runs. -/
theorem turn (y : Yard) (m : Move) : y.Turn m (y.step m).engine.runs := by
  cases m with
  | createGroup id name =>
    simp only [Yard.step]
    split
    · next e h_e =>
      rw [Engine.createGroup_eq_ok h_e]
      exact .idle_of_worker rfl
    · exact .idle_of_worker rfl
  | setEnabled place enabled => exact turn_operate y place (.setEnabled enabled) rfl
  | setExceptionScript place script => exact turn_operate y place (.setExceptionScript script) rfl
  | submit place draft =>
    exact turn_operate y place (.enqueue (draft.fresh (Engine.idText y.engine.issued))) rfl
  | cancel place task now => exact turn_operate y place (.cancel task now) rfl
  | cancelAll place now => exact turn_operate y place (.cancelAll now) rfl
  | handOut place now =>
    simp only [Yard.step, Yard.handOut]
    split
    · exact turn_operate y place (.dequeue now) rfl
    · exact .idle_of_worker rfl
  | launch index c => exact turn_launch y index c
  | openRun group script actions vars exceptionScript c =>
    exact .opened _ rfl rfl rfl rfl (.inl rfl)
  | begin n c => exact .begun n c rfl
  | work n now =>
    exact turn_goOn y rfl (fun _ _ h => by cases h) fun r x h_x => Process.advance_cancelled h_x
  | reply n answer =>
    refine turn_goOn y rfl (fun _ _ h => by cases h) fun r x h_x => ?_
    obtain ⟨p, -, rfl⟩ := Option.map_eq_some_iff.mp h_x
    exact fun h => h
  | wake n =>
    refine turn_goOn y rfl (fun _ _ h => by cases h) fun r x h_x => ?_
    obtain ⟨p, -, rfl⟩ := Option.map_eq_some_iff.mp h_x
    exact fun h => h
  | finish n c =>
    simp only [Yard.step, Yard.finish]
    split
    · next report e h_fin =>
      obtain ⟨r, h_find, h_end, -, h_runs, -⟩ := Engine.finish_spec h_fin
      have h_mem : r ∈ y.engine.runs := List.mem_of_find?_eq_some h_find
      obtain rfl : r.number = n := by simpa using List.find?_some h_find
      -- what is finished was at its end and is not live any more
      have h_live : r.isLive = false := by
        simp [EngineRun.isLive, Option.isNone_eq_false_iff.mpr h_end]
      simp only [h_runs]
      exact .finished r h_mem rfl (fun _ _ h => by cases h) h_live
    · exact .idle fun _ _ h => by cases h
  | stop which =>
    refine .stopped (fun r => if which r then r.cancel else r) rfl fun r => ?_
    split
    · exact .inr rfl
    · exact .inl rfl
  | unlist | catalog | switch => exact .idle_of_worker rfl

/-! ### Where runs and tasks that are given out come from -/

/-- A run that is there after a move is one of before, which has begun by then exactly if it had or if it
was its turn to begin, or it is one that was opened or launched in this move. -/
theorem Turn.origin (h_turn : y.Turn m runs) (h : y.Ordered) {r' : EngineRun} (h_r' : r' ∈ runs) :
    (∃ r ∈ y.engine.runs, r.Onward r' ∧
      (r'.begunAt.isSome = true ↔ r.begunAt.isSome = true ∨ ∃ c, m = .begin r.number c)) ∨
    r'.number = y.engine.issued ∧ r'.info.id = Engine.idText r'.number ∧ r'.begunAt = none ∧
      (r'.info.task = none ∨ ∃ p t, (p, t) ∈ y.handed ∧ r'.info.task = some t.id ∧
        (t.isExceptionHandler = true → r'.info.exceptionScript = none)) := by
  -- unless it is its turn to begin, a run has begun exactly if it had
  have h_rest : ∀ {r r' : EngineRun}, (∀ n c, m ≠ .begin n c) → r'.begunAt = r.begunAt →
      (r'.begunAt.isSome = true ↔ r.begunAt.isSome = true ∨ ∃ c, m = .begin r.number c) := by
    intro r r' h_begin h_eq
    rw [h_eq, or_iff_left fun h => ?_]
    obtain ⟨c, h_m⟩ := h
    exact h_begin r.number c h_m
  have h_other : m.worker? = none → ∀ n c, m ≠ .begin n c := by
    rintro h_worker n c rfl
    cases h_worker
  cases h_turn with
  | idle h_begin => exact .inl ⟨r', h_r', .refl r', h_rest h_begin rfl⟩
  | stopped f h_worker h_f =>
    obtain ⟨r, h_r, rfl⟩ := List.mem_map.mp h_r'
    rcases h_f r with h_eq | h_eq
    · rw [h_eq]
      exact .inl ⟨r, h_r, .refl r, h_rest (h_other h_worker) rfl⟩
    · rw [h_eq]
      exact .inl ⟨r, h_r, .cancel r, h_rest (h_other h_worker) rfl⟩
  | opened r h_worker h_number h_id h_begun h_task =>
    rcases List.mem_append.mp h_r' with h_r' | h_r'
    · exact .inl ⟨r', h_r', .refl r', h_rest (h_other h_worker) rfl⟩
    · rw [List.mem_singleton.mp h_r']
      exact .inr ⟨h_number, h_id, h_begun, h_task⟩
  | begun n c h_move =>
    obtain ⟨r, h_r, rfl⟩ := List.mem_map.mp h_r'
    refine .inl ⟨r, h_r, ?_⟩
    by_cases h_eq : r.number = n
    · rw [if_pos (beq_iff_eq.mpr h_eq)]
      refine ⟨⟨rfl, rfl, fun h => h, fun _ => rfl⟩, iff_of_true ?_ (.inr ⟨c, h_eq ▸ h_move⟩)⟩
      simp
    · rw [if_neg fun h => h_eq (beq_iff_eq.mp h)]
      refine ⟨.refl r, (or_iff_left ?_).symm⟩
      rintro ⟨c', h_m⟩
      rw [h_m] at h_move
      injection h_move with h_n
      exact h_eq h_n
  | worked r p context h_r h_worker h_begin h_live h_cancelled =>
    obtain ⟨r₁, h_r₁, rfl⟩ := List.mem_map.mp h_r'
    refine .inl ⟨r₁, h_r₁, ?_⟩
    by_cases h_eq : r₁.number = r.number
    · -- the run that goes on is not at its end
      obtain rfl := h.sound.eq_of_number_eq h_r₁ h_r h_eq
      rw [if_pos BEq.rfl]
      refine ⟨⟨rfl, rfl, h_cancelled, fun h_end => ?_⟩, h_rest h_begin rfl⟩
      have h_none := (Bool.and_eq_true_iff.mp h_live).2
      rw [Option.isNone_iff_eq_none.mp h_none] at h_end
      cases h_end
    · rw [if_neg fun h => h_eq (beq_iff_eq.mp h)]
      exact ⟨.refl r₁, h_rest h_begin rfl⟩
  | finished r h_mem h_worker h_begin =>
    exact .inl ⟨r', List.mem_of_mem_filter h_r', .refl r', h_rest h_begin rfl⟩

/-- Only the scheduler changes which tasks are given out and not launched. -/
theorem handed_step (y : Yard) (h : m.isScheduling = false) : (y.step m).handed = y.handed := by
  -- neither an operation of a queue nor a run that goes on hands anything out
  have h_operate : ∀ place op, (y.operate place op).handed = y.handed := fun place op => by
    unfold Yard.operate
    split <;> rfl
  have h_goOn : ∀ n f, (y.goOn n f).handed = y.handed := fun n f => by
    unfold Yard.goOn
    split <;> rfl
  cases m with
  | handOut | launch => cases h
  | createGroup =>
    simp only [Yard.step]
    split <;> rfl
  | submit place draft => exact h_operate place _
  | setEnabled | setExceptionScript | cancel | cancelAll => exact h_operate _ _
  | work | reply | wake => exact h_goOn _ _
  | finish n c =>
    simp only [Yard.step, Yard.finish]
    split <;> rfl
  | unlist | openRun | begin | stop | catalog | switch => rfl

/-- A task that is given out and not launched after a move was so before, or it waited in a queue. -/
theorem handed_origin (y : Yard) (m : Move) {p : ℕ} {t : Task} (h_t : (p, t) ∈ (y.step m).handed) :
    (p, t) ∈ y.handed ∨
      ∃ q u now, y.engine.queueAt p = some q ∧ u ∈ q.pending ∧ t = u.started now := by
  by_cases h_m : m.isScheduling = false
  · rw [handed_step y h_m] at h_t
    exact .inl h_t
  · cases m with
    | handOut place now =>
      simp only [Yard.step, Yard.handOut] at h_t
      split at h_t
      · next u q' h_some =>
        rcases List.mem_append.mp h_t with h_t | h_t
        · exact .inl h_t
        · cases List.mem_singleton.mp h_t
          obtain ⟨q, h_at, h_deq⟩ := Option.bind_eq_some_iff.mp h_some
          -- what a queue gives out waited in it
          obtain ⟨-, -, l₁, u, l₂, h_pending, -, -, rfl, -⟩ := GroupQueue.dequeue_eq_some_iff.mp h_deq
          exact .inr ⟨q, u, now, h_at, by simp [h_pending], rfl⟩
      · exact .inl h_t
    | launch index c =>
      simp only [Yard.step, Yard.launch] at h_t
      split at h_t
      · exact .inl (List.mem_of_mem_eraseIdx h_t)
      · exact .inl h_t
    | _ => exact absurd rfl h_m

/-! ### Ids -/

/-- The next id is no old one. -/
theorem ne_of_issued {id : String} {n : ℕ} (h_id : ∃ k < n, id = Engine.idText k) : id ≠ Engine.idText n := by
  obtain ⟨k, h_k, rfl⟩ := h_id
  exact fun h_eq => Nat.ne_of_lt h_k (Engine.idText_injective h_eq)

namespace Ordered

/-- The task of a run has an id that was issued. -/
theorem task_issued (h : y.Ordered) {r : EngineRun} (h_r : r ∈ y.engine.runs) {t : String}
    (h_task : r.info.task = some t) : ∃ k < y.engine.issued, t = Engine.idText k := by
  obtain ⟨books, h_books⟩ := h.books
  obtain ⟨p, u, -, ⟨q, h_at, h_run⟩, rfl, -⟩ := h.placed_of_task h_r h_task
  exact h_books.id_issued h_at (GroupQueue.mem_tasks.mpr (.inl h_run))

/-- A task that was given out has an id that was issued. -/
theorem handed_issued (h : y.Ordered) {p : ℕ} {t : Task} (h_t : (p, t) ∈ y.handed) :
    ∃ k < y.engine.issued, t.id = Engine.idText k := by
  obtain ⟨books, h_books⟩ := h.books
  obtain ⟨u, ⟨q, h_at, h_run⟩, h_id, -⟩ := (h.tended p).handed t h_t
  rw [← h_id]
  exact h_books.id_issued h_at (GroupQueue.mem_tasks.mpr (.inl h_run))

end Ordered

namespace Named

theorem id_issued (h_named : y.Named) (h : y.Ordered) {r : EngineRun} (h_r : r ∈ y.engine.runs) :
    ∃ k < y.engine.issued, r.info.id = Engine.idText k :=
  ⟨r.number, h.sound.issued_numbers r h_r, h_named r h_r⟩

theorem step (h_named : y.Named) (h : y.Ordered) (m : Move) : (y.step m).Named := by
  intro r' h_r'
  obtain ⟨r, h_r, h_on, -⟩ | ⟨-, h_id, -⟩ := (y.turn m).origin h h_r'
  · rw [h_on.info, h_on.number]
    exact h_named r h_r
  · exact h_id

/-- Runs with the same id are the same run. -/
theorem eq_of_id_eq (h_named : y.Named) (h : y.Ordered) {r r' : EngineRun} (h_r : r ∈ y.engine.runs)
    (h_r' : r' ∈ y.engine.runs) (h_id : r.info.id = r'.info.id) : r = r' := by
  rw [h_named r h_r, h_named r' h_r'] at h_id
  exact h.sound.eq_of_number_eq h_r h_r' (Engine.idText_injective h_id)

end Named

end Yard

end ScriptYard
