import ScriptYard.Proofs.Yard.Moves

/-!
# The queues of an engine

What a queue keeps can only be told apart by ids, and ids are texts made from numbers. Different numbers
give different texts (`Engine.idText_injective`), so that the tasks of an engine that draws its ids from a
counter never share one.

`Booked` says so of all queues of an engine together, with the books of each (`Ledger`) as the evidence:
the books are balanced, no id was accepted at two places, and all ids that were accepted were issued.
An operation of one queue keeps this (`Booked.operate`) if a task that it offers has the next id. A task
of one id is then at one place at most, and once (`Booked.place_unique`, `Booked.nodup`).
-/

namespace ScriptYard

namespace Engine

theorem idText_injective : Function.Injective idText := by
  intro m n h
  unfold idText at h
  have h_list := congrArg String.toList h
  rw [String.toList_append, String.toList_append] at h_list
  have h_digits := List.append_cancel_left h_list
  simp only [String.toList_ofList] at h_digits
  -- the number can be read back; the zeros in front do not count
  have h_read := congrArg (Nat.ofDigitChars 10 · 0) h_digits
  simpa [Nat.ofDigitChars_append] using h_read

variable {e : Engine} {p : ℕ} {q q' : GroupQueue}

theorem queueAt_eq_some : e.queueAt p = some q ↔ ∃ h, e.queues[p]? = some h ∧ h.queue = q := by
  rw [queueAt, Option.map_eq_some_iff]

theorem queueAt_setQueue (h_at : e.queueAt p = some q) :
    (e.setQueue p q').queueAt = Function.update e.queueAt p (some q') := by
  obtain ⟨h, h_p, -⟩ := queueAt_eq_some.mp h_at
  funext p'
  rw [Function.update_apply]
  unfold queueAt setQueue
  by_cases h_eq : p' = p
  · simp [h_eq, h_p]
  · simp [h_eq, List.getElem?_modify_ne _ _ (Ne.symm h_eq)]

@[simp] theorem queueAt_unlist (e : Engine) (p : ℕ) : (e.unlist p).queueAt = e.queueAt := by
  funext p'
  unfold queueAt unlist
  by_cases h_eq : p = p'
  · simp only [h_eq, List.getElem?_modify_eq, Option.map_eq_map, Option.map_map]
    rfl
  · simp only [List.getElem?_modify_ne _ _ h_eq]

/-- A group that is created has an empty queue behind all others. -/
theorem createGroup_eq_ok {id name : String} {e' : Engine} (h : e.createGroup id name = .ok e') :
    e' = { e with queues := e.queues ++ [⟨e.freshQueue id name, true⟩] } := by
  unfold createGroup addQueue at h
  split at h
  · cases h
  · exact (Except.ok.inj h).symm

theorem queueAt_append (e : Engine) (q : GroupQueue) (listed : Bool) :
    ({ e with queues := e.queues ++ [⟨q, listed⟩] } : Engine).queueAt =
      Function.update e.queueAt e.queues.length (some q) := by
  funext p'
  rw [Function.update_apply]
  unfold queueAt
  simp only [List.getElem?_append]
  by_cases h_lt : p' < e.queues.length
  · rw [if_pos h_lt, if_neg (Nat.ne_of_lt h_lt)]
  · rw [if_neg h_lt]
    by_cases h_eq : p' = e.queues.length
    · simp [h_eq]
    · -- behind the new queue there is none
      have h_pos : p' - e.queues.length ≠ 0 := by omega
      obtain ⟨k, h_k⟩ := Nat.exists_eq_succ_of_ne_zero h_pos
      rw [if_neg h_eq, h_k, List.getElem?_eq_none (Nat.le_of_not_lt h_lt)]
      rfl

/-- What a launch does: the queue is told of a new run with the next number, which is cancelled from the
start if the queue says so. -/
theorem launch_spec (h_at : e.queueAt p = some q) (t : Task) (c : Clock) :
    ∃ r : EngineRun, r.number = e.issued ∧ r.place = some p ∧ r.info.task = some t.id ∧
      r.info.group = t.group ∧ r.context.cancelled = (q.attach t.id (idText e.issued) ⟨e.issued⟩).1 ∧
      r.process = runActions t.actions 0 .null ∧ r.begunAt = none ∧
      e.launch p t c = { e.setQueue p (q.attach t.id (idText e.issued) ⟨e.issued⟩).2 with
        runs := e.runs ++ [r], issued := e.issued + 1 } := by
  obtain ⟨h, h_p, rfl⟩ := queueAt_eq_some.mp h_at
  unfold launch
  rw [h_p]
  exact ⟨_, rfl, rfl, rfl, rfl, rfl, rfl, rfl, rfl⟩

/-- A run without a task that is opened has the next number. -/
theorem openRun_spec (e : Engine) (group script : String) (actions : List Action) (vars : Variables)
    (exceptionScript : Option String) (c : Clock) :
    ∃ r : EngineRun, r.number = e.issued ∧ r.place = none ∧ r.info.task = none ∧
      r.process = runActions actions 0 .null ∧
      (e.openRun group script actions vars exceptionScript c).2 =
        { e with runs := e.runs ++ [r], issued := e.issued + 1 } :=
  ⟨_, rfl, rfl, rfl, rfl, rfl⟩

theorem setQueue_self (h_at : e.queueAt p = some q) : e.setQueue p q = e := by
  obtain ⟨h, h_p, rfl⟩ := queueAt_eq_some.mp h_at
  have h_same : e.queues.modify p (fun x => { x with queue := h.queue }) = e.queues := by
    refine List.ext_getElem? fun p' => ?_
    by_cases h_eq : p = p'
    · rw [← h_eq, List.getElem?_modify_eq, h_p]
      rfl
    · exact List.getElem?_modify_ne _ _ h_eq
  unfold setQueue
  rw [h_same]

/-- A run that is finished is no longer there, and its queue, if it has one, is told of the outcome. -/
theorem finish_cases {n : ℕ} {c : Clock} {report : RunReport} {e' : Engine}
    (h : e.finish n c = some (report, e')) :
    ∃ r, e.run? n = some r ∧ r.process.end?.isSome = true ∧ r.begunAt.isSome = true ∧
      ((∀ p q t, r.place = some p → e.queueAt p = some q → r.info.task ≠ some t) ∧
        e' = { e with runs := e.runs.filter (·.number != n) } ∨
      ∃ p q t, r.place = some p ∧ e.queueAt p = some q ∧ r.info.task = some t ∧
        e' = { e with runs := e.runs.filter (·.number != n) }.setQueue p
          (q.after (.complete t report.outcome c.time))) := by
  simp only [finish, Option.bind_eq_bind, Option.bind_eq_some_iff, Option.some.injEq, Prod.mk.injEq,
    Option.pure_def] at h
  obtain ⟨r, h_r, ended, h_ended, begun, h_begun, h_report, h_e⟩ := h
  refine ⟨r, h_r, by rw [h_ended]; rfl, by rw [h_begun]; rfl, ?_⟩
  rw [h_report] at h_e
  cases h_place : r.place with
  | none =>
    simp only [h_place, Option.bind_none, Option.getD_none] at h_e
    exact .inl ⟨fun p q t h => (nomatch h), h_e.symm⟩
  | some p =>
    simp only [h_place, Option.bind_some] at h_e
    cases h_p : e.queues[p]? with
    | none =>
      simp only [h_p, Option.bind_none, Option.getD_none] at h_e
      refine .inl ⟨fun p' q t h_p' h_at => ?_, h_e.symm⟩
      cases h_p'
      simp [queueAt, h_p] at h_at
    | some h =>
      simp only [h_p, Option.bind_some] at h_e
      cases h_t : r.info.task with
      | none =>
        simp only [h_t, Option.bind_none, Option.getD_none] at h_e
        exact .inl ⟨fun p' q t _ _ h => (nomatch h), h_e.symm⟩
      | some t =>
        simp only [h_t, Option.bind_some] at h_e
        have h_at : e.queueAt p = some h.queue := queueAt_eq_some.mpr ⟨h, h_p, rfl⟩
        refine .inr ⟨p, h.queue, t, rfl, h_at, rfl, ?_⟩
        simp only [GroupQueue.after]
        -- a queue that refuses stays as it was
        cases h_com : h.queue.complete t report.outcome c.time with
        | ok x =>
          simp only [h_com, Option.getD_some] at h_e
          exact h_e.symm
        | error err =>
          simp only [h_com, Option.getD_none] at h_e
          rw [setQueue_self (e := { e with runs := e.runs.filter (·.number != n) }) h_at]
          exact h_e.symm

/-- What the end of a run does to the runs and the queues. -/
theorem finish_spec {n : ℕ} {c : Clock} {report : RunReport} {e' : Engine}
    (h : e.finish n c = some (report, e')) :
    ∃ r, e.run? n = some r ∧ r.process.end?.isSome = true ∧ r.begunAt.isSome = true ∧
      e'.runs = e.runs.filter (·.number != n) ∧ e'.issued = e.issued ∧
      (r.place = none → e'.queueAt = e.queueAt) ∧
      ∀ p q t, r.place = some p → e.queueAt p = some q → r.info.task = some t →
        e'.queueAt = Function.update e.queueAt p (some (q.after (.complete t report.outcome c.time))) := by
  -- a run without a task for a queue leaves the queues alone, another tells its queue
  obtain ⟨r, h_r, h_end, h_begun, ⟨h_free, rfl⟩ | ⟨p, q, t, h_p, h_at, h_t, rfl⟩⟩ := finish_cases h
  · exact ⟨r, h_r, h_end, h_begun, rfl, rfl, fun _ => rfl,
      fun p q t h_p h_at h_t => absurd h_t (h_free p q t h_p h_at)⟩
  · refine ⟨r, h_r, h_end, h_begun, rfl, rfl, fun h_none => ?_, fun p' q' t' h_p' h_at' h_t' => ?_⟩
    · rw [h_none] at h_p
      cases h_p
    · rw [h_p] at h_p'
      cases h_p'
      rw [h_at] at h_at'
      cases h_at'
      rw [h_t] at h_t'
      cases h_t'
      exact queueAt_setQueue h_at

/-- Where no token is fired, no run is stopped. -/
theorem stopFired_of_quiet {evs : List Event} (e : Engine) (h : ∀ k, .fired k ∉ evs) :
    e.stopFired evs = e := by
  unfold stopFired cancelRuns
  simp [h]

theorem queueAt_length (e : Engine) : e.queueAt e.queues.length = none := by
  simp [queueAt]

end Engine

/-- The queues at the places of an engine, together with the books of each, which agree with what the
queues keep; every id was accepted at one place only, and was issued. -/
structure Booked (queueAt : ℕ → Option GroupQueue) (issued : ℕ) (books : ℕ → Ledger) : Prop where
  /-- The books of every queue are balanced. -/
  balanced : ∀ p q, queueAt p = some q → (books p).queue = q ∧ (books p).Balanced
  /-- No id was accepted at two places. -/
  apart : ∀ p p' i, i ∈ (books p).accepted → i ∈ (books p').accepted → p = p'
  /-- Every id that was accepted was issued. -/
  issued_ids : ∀ p, ∀ i ∈ (books p).accepted, ∃ k < issued, i = Engine.idText k

namespace Booked

variable {queueAt : ℕ → Option GroupQueue} {issued issued' p p' : ℕ} {books : ℕ → Ledger}
  {q q' : GroupQueue} {op : QueueOp} {t t' : Task}

/-- The books of a new queue are empty. -/
theorem create (h : Booked queueAt issued books) (p : ℕ) (id name : String) (limit : ℕ)
    (policy : RetryPolicy) :
    Booked (Function.update queueAt p (some (.create id name limit policy))) issued
      (Function.update books p ⟨.create id name limit policy, [], []⟩) where
  balanced := fun p' q' h_q => by
    rw [Function.update_apply] at h_q ⊢
    split at h_q
    · next h_eq =>
      cases h_q
      rw [if_pos h_eq]
      exact ⟨rfl, Ledger.Balanced.create id name limit policy⟩
    · next h_ne =>
      rw [if_neg h_ne]
      exact h.balanced p' q' h_q
  -- the new books are empty and share no id with others
  apart := fun p₁ p₂ i h₁ h₂ => by
    rw [Function.update_apply] at h₁ h₂
    split at h₁
    · exact absurd h₁ List.not_mem_nil
    · split at h₂
      · exact absurd h₂ List.not_mem_nil
      · exact h.apart p₁ p₂ i h₁ h₂
  issued_ids := fun p' i h_i => by
    rw [Function.update_apply] at h_i
    split at h_i
    · exact absurd h_i List.not_mem_nil
    · exact h.issued_ids p' i h_i

/-- More ids may be issued than are used. -/
theorem mono (h : Booked queueAt issued books) (h_le : issued ≤ issued') :
    Booked queueAt issued' books where
  balanced := h.balanced
  apart := h.apart
  issued_ids := fun p i h_i => by
    obtain ⟨k, h_k, h_eq⟩ := h.issued_ids p i h_i
    exact ⟨k, Nat.lt_of_lt_of_le h_k h_le, h_eq⟩

/-- **An operation of one queue** keeps the books in order, if a task that it offers has the next id. -/
theorem operate (h : Booked queueAt issued books) (h_at : queueAt p = some q)
    (h_new : ∀ i ∈ op.offered, i = Engine.idText issued ∧ issued < issued') (h_le : issued ≤ issued') :
    Booked (Function.update queueAt p (some (q.after op))) issued'
      (Function.update books p ((books p).after op)) := by
  obtain ⟨h_queue, h_balanced⟩ := h.balanced p q h_at
  -- the next id was not accepted anywhere
  have h_next : ∀ p', Engine.idText issued ∉ (books p').accepted := by
    intro p' h_mem
    obtain ⟨k, h_k, h_eq⟩ := h.issued_ids p' _ h_mem
    exact Nat.ne_of_gt h_k (Engine.idText_injective h_eq)
  have h_split : ∀ i ∈ ((books p).after op).accepted,
      i ∈ (books p).accepted ∨ i = Engine.idText issued ∧ issued < issued' := by
    intro i h_i
    rcases List.mem_append.mp h_i with h_i | h_i
    · exact .inl h_i
    · exact .inr (h_new i (Ledger.mem_offered_of_mem_accepts h_i))
  refine ⟨fun p' q' h_q => ?_, fun p₁ p₂ i h₁ h₂ => ?_, fun p' i h_i => ?_⟩
  · rw [Function.update_apply] at h_q ⊢
    split at h_q
    · -- the task that is offered is new to these books too
      next h_eq =>
      cases h_q
      rw [if_pos h_eq]
      refine ⟨by rw [← h_queue]; rfl, h_balanced.after fun i h_i => ?_⟩
      rw [(h_new i h_i).1]
      exact h_next p
    · next h_ne =>
      rw [if_neg h_ne]
      exact h.balanced p' q' h_q
  · rw [Function.update_apply] at h₁ h₂
    split at h₁
    · next h_p₁ =>
      split at h₂
      · next h_p₂ => rw [h_p₁, h_p₂]
      · -- an id that these books have just accepted is in no other books
        rcases h_split i h₁ with h₁ | ⟨rfl, -⟩
        · rw [h_p₁]
          exact h.apart p p₂ i h₁ h₂
        · exact absurd h₂ (h_next p₂)
    · split at h₂
      · next h_p₂ =>
        rcases h_split i h₂ with h₂ | ⟨rfl, -⟩
        · rw [h_p₂]
          exact h.apart p₁ p i h₁ h₂
        · exact absurd h₁ (h_next p₁)
      · exact h.apart p₁ p₂ i h₁ h₂
  · rw [Function.update_apply] at h_i
    split at h_i
    · rcases h_split i h_i with h_i | ⟨rfl, h_lt⟩
      · obtain ⟨k, h_k, h_eq⟩ := h.issued_ids p i h_i
        exact ⟨k, Nat.lt_of_lt_of_le h_k h_le, h_eq⟩
      · exact ⟨issued, h_lt, rfl⟩
    · obtain ⟨k, h_k, h_eq⟩ := h.issued_ids p' i h_i
      exact ⟨k, Nat.lt_of_lt_of_le h_k h_le, h_eq⟩

/-- A queue keeps no two tasks of the same id. -/
theorem nodup (h : Booked queueAt issued books) (h_at : queueAt p = some q) :
    (taskIds q.tasks).Nodup := by
  obtain ⟨rfl, h_balanced⟩ := h.balanced p q h_at
  exact h_balanced.nodup_tasks

theorem mem_accepted (h : Booked queueAt issued books) (h_at : queueAt p = some q) (h_t : t ∈ q.tasks) :
    t.id ∈ (books p).accepted := by
  obtain ⟨rfl, h_balanced⟩ := h.balanced p q h_at
  exact h_balanced.tasks_subperm.subset (List.mem_map_of_mem h_t)

/-- A task of one id is at one place only. -/
theorem place_unique (h : Booked queueAt issued books) (h_at : queueAt p = some q) (h_t : t ∈ q.tasks)
    (h_at' : queueAt p' = some q') (h_t' : t' ∈ q'.tasks) (h_id : t.id = t'.id) : p = p' :=
  h.apart p p' t.id (h.mem_accepted h_at h_t) (h_id ▸ h.mem_accepted h_at' h_t')

/-- The id of a task that a queue keeps was issued. -/
theorem id_issued (h : Booked queueAt issued books) (h_at : queueAt p = some q) (h_t : t ∈ q.tasks) :
    ∃ k < issued, t.id = Engine.idText k :=
  h.issued_ids p t.id (h.mem_accepted h_at h_t)

/-- The running task is of the group of its queue. -/
theorem running_group (h : Booked queueAt issued books) (h_at : queueAt p = some q)
    (h_run : q.running = some t) : t.group = q.id := by
  obtain ⟨rfl, h_balanced⟩ := h.balanced p q h_at
  exact h_balanced.group t (GroupQueue.mem_tasks.mpr (.inl h_run))

end Booked

end ScriptYard
