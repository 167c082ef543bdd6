import ScriptYard.Proofs.Yard.Runs
import ScriptYard.Run.Later

/-!
# What is left of the runs

A `Yard.Turn` says which runs take part in a move. What becomes of the process of a run is said here: between
two moves a run makes one `EngineRun.Stride` at most. It stays as it is, is told to stop, begins, or does the
next thing of its process. A `Yard.Shift` is all that a move can do to the runs in these terms, and every move
is one (`Yard.Ordered.shift`): the runs that are there make a stride each, or one is opened, or one is finished.

What is left of a run becomes less with every stride or stays as it is (`EngineRun.Stride.left`), and a run that
is opened has a number that was not in use before (`Yard.Shift.back`). These two are what a proof needs that runs
come to their end and do not come back.
-/

namespace ScriptYard

namespace Process

variable {α : Type} {p p' : Process α} {now : Moment} {c c' : RunContext}

theorem seen_later (p : Process α) (vars : Variables) : p.seen vars = p ∨ Later (p.seen vars) p := by
  induction p with
  | look k ih =>
    have h_next : Next (k vars) (.look k) := .look k vars
    rcases ih vars with h_eq | h_later
    · exact .inr (.single (h_eq.symm ▸ h_next))
    · exact .inr (h_later.tail h_next)
  | _ => exact .inl rfl

/-- Every step leaves less to do. -/
theorem advance_later (h_step : p.advance now c = some (p', c')) : Later p' p := by
  cases p with
  | done | call => cases h_step
  | poll k =>
    cases h_step
    -- the looks that are taken along come after the first
    rcases (k c.cancelled).seen_later c.vars with h_eq | h_later
    · rw [h_eq]
      exact .single (.poll k _)
    · exact h_later.tail (.poll k _)
  | sleep time k =>
    simp only [advance] at h_step
    split at h_step
    · cases h_step
      exact .single (.sleep time k false)
    · cases h_step
  | cancel k =>
    cases h_step
    exact .single (.cancel p')
  | touch k =>
    cases h_step
    exact .single (.touch p')
  | look k =>
    cases h_step
    exact .single (.look k _)
  | assign name value k =>
    cases h_step
    exact .single (.assign name value p')

theorem reply_later {answer : (r : Request) → r.Reply} (h_step : p.reply answer = some p') : Later p' p := by
  cases p with
  | call r k =>
    cases h_step
    exact .single (.call r k _)
  | _ => cases h_step

theorem wake_later (h_step : p.wake = some p') : Later p' p := by
  cases p with
  | sleep time k =>
    cases h_step
    exact .single (.sleep time k true)
  | _ => cases h_step

/-- Nothing comes after the end. -/
theorem not_later_of_end {x : α} (h_end : p.end? = some x) : ¬ Later p' p := by
  cases p with
  | done a =>
    intro h_later
    obtain ⟨q, -, h_next⟩ := Relation.TransGen.tail'_iff.mp h_later
    cases h_next
  | _ => cases h_end

end Process

/-- What becomes of a run between two moves. -/
inductive EngineRun.Stride (r : EngineRun) : EngineRun → Prop where
  /-- It stays as it is. -/
  | still : r.Stride r
  /-- It is told to stop. -/
  | stopped : r.Stride r.cancel
  /-- It begins, if it has not begun before. -/
  | begun (time : Instant) : r.Stride { r with begunAt := r.begunAt.or (some time) }
  /-- It makes a step by itself. -/
  | advanced {now : Moment} {p : Process RunEnd} {c : RunContext}
    (h : r.process.advance now r.context = some (p, c)) : r.Stride { r with process := p, context := c }
  /-- Its call is answered. -/
  | replied {answer : (r : Request) → r.Reply} {p : Process RunEnd} (h : r.process.reply answer = some p) :
    r.Stride { r with process := p }
  /-- The time for which it sleeps has passed. -/
  | woken {p : Process RunEnd} (h : r.process.wake = some p) : r.Stride { r with process := p }

namespace EngineRun.Stride

variable {r r' : EngineRun}

theorem number (h : r.Stride r') : r'.number = r.number := by cases h <;> rfl

theorem info (h : r.Stride r') : r'.info = r.info := by cases h <;> rfl

theorem place (h : r.Stride r') : r'.place = r.place := by cases h <;> rfl

theorem begunAt (h : r.Stride r') (h_begun : r.begunAt.isSome = true) : r'.begunAt.isSome = true := by
  cases h with
  | begun time => simp
  | _ => exact h_begun

theorem cancelled (h : r.Stride r') (h_cancelled : r.context.cancelled = true) :
    r'.context.cancelled = true := by
  cases h with
  | stopped => rfl
  | advanced h => exact Process.advance_cancelled h h_cancelled
  | _ => exact h_cancelled

/-- **What is left of a run becomes less** or stays as it is. -/
theorem left (h : r.Stride r') : r'.process = r.process ∨ Process.Later r'.process r.process := by
  cases h with
  | still | stopped | begun => exact .inl rfl
  | advanced h => exact .inr (Process.advance_later h)
  | replied h => exact .inr (Process.reply_later h)
  | woken h => exact .inr (Process.wake_later h)

/-- A run that is at its end stays there. -/
theorem ended (h : r.Stride r') (h_end : r.process.end?.isSome = true) : r'.process = r.process := by
  obtain ⟨x, h_x⟩ := Option.isSome_iff_exists.mp h_end
  exact h.left.resolve_right (Process.not_later_of_end h_x)

end EngineRun.Stride

namespace Yard

/-- What a move can do to the runs and what is left of them. -/
inductive Shift (y : Yard) (m : Move) : List EngineRun → Prop where
  /-- Every run makes a stride. -/
  | onward (f : EngineRun → EngineRun) (h : ∀ r ∈ y.engine.runs, r.Stride (f r)) :
    y.Shift m (y.engine.runs.map f)
  /-- A run of some actions is opened or launched. -/
  | opened (r : EngineRun) (actions : List Action) (h_process : r.process = runActions actions 0 .null)
    (h_number : r.number = y.engine.issued) (h_place : r.place.isSome = true → ∃ i c, m = .launch i c) :
    y.Shift m (y.engine.runs ++ [r])
  | finished {n : ℕ} {c : Clock} {report : RunReport} {e : Engine} (h_move : m = .finish n c)
    (h : y.engine.finish n c = some (report, e)) : y.Shift m (y.engine.runs.filter (·.number != n))

variable {y : Yard} {m : Move} {runs : List EngineRun} {n : ℕ}

namespace Shift

theorem still : y.Shift m y.engine.runs := by
  have h := onward (y := y) (m := m) id fun r _ => .still
  rwa [List.map_id] at h

/-- A run makes a stride, or it is finished. -/
theorem forth (h : y.Shift m runs) {r : EngineRun} (h_r : r ∈ y.engine.runs) :
    (∃ r' ∈ runs, r.Stride r') ∨
      ∃ c report e, m = .finish r.number c ∧ y.engine.finish r.number c = some (report, e) := by
  cases h with
  | onward f h => exact .inl ⟨f r, List.mem_map_of_mem h_r, h r h_r⟩
  | opened r' actions => exact .inl ⟨r, List.mem_append_left _ h_r, .still⟩
  | @finished n c report e h_move h =>
    by_cases h_eq : r.number = n
    · exact .inr ⟨c, report, e, h_eq.symm ▸ h_move, h_eq.symm ▸ h⟩
    · exact .inl ⟨r, List.mem_filter.mpr ⟨h_r, bne_iff_ne.mpr h_eq⟩, .still⟩

/-- A run comes from one that was there, or it is a new one of some actions. -/
theorem back (h : y.Shift m runs) {r' : EngineRun} (h_r' : r' ∈ runs) :
    (∃ r ∈ y.engine.runs, r.Stride r') ∨
      (∃ actions, r'.process = runActions actions 0 .null) ∧ r'.number = y.engine.issued ∧
        (r'.place.isSome = true → ∃ i c, m = .launch i c) := by
  cases h with
  | onward f h =>
    obtain ⟨r, h_r, rfl⟩ := List.mem_map.mp h_r'
    exact .inl ⟨r, h_r, h r h_r⟩
  | opened r actions h_process h_number h_place =>
    rcases List.mem_append.mp h_r' with h_r' | h_r'
    · exact .inl ⟨r', h_r', .still⟩
    · rw [List.mem_singleton.mp h_r']
      exact .inr ⟨⟨actions, h_process⟩, h_number, h_place⟩
  | finished h_move h => exact .inl ⟨r', List.mem_of_mem_filter h_r', .still⟩

end Shift

/-! ### Every move is a shift -/

theorem shift_operate (y : Yard) (place : ℕ) (op : QueueOp) : y.Shift m (y.operate place op).engine.runs := by
  unfold operate
  split
  · next q h_at =>
    refine .onward (fun r => if decide (.fired ⟨r.number⟩ ∈ q.tells op) = true then r.cancel else r) fun r _ => ?_
    split
    · exact .stopped
    · exact .still
  · exact .still

namespace Ordered

/-- A run that goes on makes a stride. -/
theorem shift_goOn (h : y.Ordered) {f : EngineRun → Option (Process RunEnd × RunContext)}
    (h_f : ∀ r x, f r = some x → r.Stride { r with process := x.1, context := x.2 }) :
    y.Shift m (y.goOn n f).engine.runs := by
  unfold Yard.goOn
  split
  · next r p context h_some =>
    obtain ⟨r₁, h_r₁, h_map⟩ := Option.bind_eq_some_iff.mp h_some
    obtain ⟨x, h_x, h_eq⟩ := Option.map_eq_some_iff.mp h_map
    cases h_eq
    obtain ⟨h_find, -⟩ := Option.filter_eq_some_iff.mp h_r₁
    have h_mem : r ∈ y.engine.runs := List.mem_of_find?_eq_some h_find
    obtain rfl : r.number = n := by simpa using List.find?_some h_find
    refine .onward (fun r' => if r'.number == r.number then { r' with process := p, context := context } else r')
      fun r' h_r' => ?_
    by_cases h_eq : r'.number = r.number
    · -- no other run has this number
      obtain rfl := h.sound.eq_of_number_eq h_r' h_mem h_eq
      rw [if_pos BEq.rfl]
      exact h_f r' (p, context) h_x
    · rw [if_neg fun h => h_eq (beq_iff_eq.mp h)]
      exact .still
  · exact .still

/-- What is left of a run that goes on. -/
theorem process_goOn (h : y.Ordered) {f : EngineRun → Option (Process RunEnd × RunContext)} {r r' : EngineRun}
    {x : Process RunEnd × RunContext} (h_r : r ∈ y.engine.runs) (h_live : r.isLive = true) (h_x : f r = some x)
    (h_r' : r' ∈ (y.goOn r.number f).engine.runs) (h_number : r'.number = r.number) : r'.process = x.1 := by
  rw [h.goOn_eq h_r h_live h_x] at h_r'
  obtain ⟨r₁, -, rfl⟩ := List.mem_map.mp h_r'
  by_cases h_eq : r₁.number = r.number
  · rw [if_pos (beq_iff_eq.mpr h_eq)]
  · rw [if_neg fun h => h_eq (beq_iff_eq.mp h)] at h_number
    exact absurd h_number h_eq

/-- **Every move is a shift** of the runs. -/
theorem shift (h : y.Ordered) (m : Move) : y.Shift m (y.step m).engine.runs := by
  cases m with
  | createGroup id name =>
    simp only [Yard.step]
    split
    · next e h_e =>
      rw [Engine.createGroup_eq_ok h_e]
      exact .still
    · exact .still
  | setEnabled place enabled => exact shift_operate y place (.setEnabled enabled)
  | setExceptionScript place script => exact shift_operate y place (.setExceptionScript script)
  | submit place draft => exact shift_operate y place (.enqueue (draft.fresh (Engine.idText y.engine.issued)))
  | cancel place task now => exact shift_operate y place (.cancel task now)
  | cancelAll place now => exact shift_operate y place (.cancelAll now)
  | handOut place now =>
    simp only [Yard.step, Yard.handOut]
    split
    · exact shift_operate y place (.dequeue now)
    · exact .still
  | launch index c =>
    simp only [Yard.step, Yard.launch]
    split
    · next p t h_hand =>
      -- the queue that gave the task out is there still
      obtain ⟨u, ⟨q, h_at, -⟩, -⟩ := (h.tended p).handed t (List.mem_of_getElem? h_hand)
      obtain ⟨r, h_number, -, -, -, -, h_process, -, h_launch⟩ := Engine.launch_spec h_at t c
      simp only [h_launch]
      exact .opened r t.actions h_process h_number fun _ => ⟨index, c, rfl⟩
    · exact .still
  | openRun group script actions vars exceptionScript c =>
    obtain ⟨r, h_number, h_place, -, h_process, h_open⟩ :=
      y.engine.openRun_spec group script actions vars exceptionScript c
    simp only [Yard.step, h_open]
    refine .opened r actions h_process h_number fun h_some => ?_
    rw [h_place] at h_some
    cases h_some
  | begin n c =>
    refine .onward (fun r => if r.number == n then { r with begunAt := r.begunAt.or (some c.time) } else r)
      fun r _ => ?_
    split
    · exact .begun c.time
    · exact .still
  | work n now => exact h.shift_goOn fun r x h_x => .advanced h_x
  | reply n answer =>
    refine h.shift_goOn fun r x h_x => ?_
    obtain ⟨p, h_p, rfl⟩ := Option.map_eq_some_iff.mp h_x
    exact .replied h_p
  | wake n =>
    refine h.shift_goOn fun r x h_x => ?_
    obtain ⟨p, h_p, rfl⟩ := Option.map_eq_some_iff.mp h_x
    exact .woken h_p
  | finish n c =>
    simp only [Yard.step, Yard.finish]
    split
    · next report e h_fin =>
      obtain ⟨r, -, -, -, h_runs, -⟩ := Engine.finish_spec h_fin
      simp only [h_runs]
      exact .finished rfl h_fin
    · exact .still
  | stop which =>
    refine .onward (fun r => if which r then r.cancel else r) fun r _ => ?_
    split
    · exact .stopped
    · exact .still
  | unlist | catalog | switch => exact .still

end Ordered

end Yard

end ScriptYard
