import ScriptYard.Proofs.Yard.Operations
import ScriptYard.Proofs.Yard.Patrol

/-!
# Stalls are handled once

What a patrol comes to (`Patrol.stalls_are_handled_once`), all of which rests on `Patrol.Sober`. Every step
for a stall leaves one less to do (`Patrol.toDo`), so that a sweep comes to its end whatever else happens.
Its steps touch no other run and no queue but for the tasks that they queue, and there are no more of these
than runs that can ask for one. If nothing happens between the steps of a sweep, all of them together are
`Engine.sweep` (`Patrol.leadsTo_sweep`).
-/

namespace ScriptYard

namespace Patrol

variable {p : Patrol}

/-! ### The end of a sweep -/

theorem toDo_eq_zero : p.toDo = 0 ↔ p.errands = [] := by
  unfold toDo
  split
  · next h => simp [h]
  · next h => simp [h]

theorem toDo_of_cons {stall : Stall} {rest : List Stall} (h : p.errands = stall :: rest) :
    p.toDo = p.phase.left + 1 + 4 * rest.length := by
  unfold toDo
  rw [h]

theorem toDo_le (p : Patrol) : p.toDo ≤ 4 * p.errands.length := by
  have h_left : p.phase.left ≤ 3 := by
    unfold Phase.left
    split <;> decide
  unfold toDo
  split
  · exact Nat.zero_le _
  · next h =>
    rw [h, List.length_cons]
    omega

/-- Every step for a stall leaves one less to do. -/
theorem Sober.toDo_proceed (h : p.Sober) (now : Instant) : (p.proceed now).toDo ≤ p.toDo - 1 := by
  have h_advance := p.advance now h.asks
  generalize p.proceed now = p' at h_advance
  cases h_advance with
  | idle h_errands =>
    rw [toDo_eq_zero.mpr h_errands]
  | looked stall rest phase h_errands h_left =>
    have h_after : ({ p with phase := phase } : Patrol).toDo = phase.left + 1 + 4 * rest.length :=
      toDo_of_cons h_errands
    rw [h_after, toDo_of_cons h_errands]
    omega
  | posted stall rest place task h_errands h_asks =>
    -- a task is posted between the first and the last phase
    have h_left : 0 < p.phase.left := by
      cases h_phase : p.phase with
      | fresh | last =>
        rw [h_phase] at h_asks
        cases h_asks
      | scripted | placed => exact Nat.succ_pos _
    have h_after : (p.post stall place task).toDo = 0 + 1 + 4 * rest.length := toDo_of_cons h_errands
    rw [h_after, toDo_of_cons h_errands]
    omega
  | struck stall rest h_errands h_phase =>
    have h_rest : (p.strike stall rest).toDo ≤ 4 * rest.length := (p.strike stall rest).toDo_le
    rw [toDo_of_cons h_errands, h_phase]
    have h_left : Phase.last.left = 0 := rfl
    omega

/-- As long as there is no other scan, nothing but steps for stalls changes what is left to do. -/
theorem Sober.toDo_run (h : p.Sober) (watches : List Watch) (h_scan : ∀ w ∈ watches, w.isScan = false) :
    (p.run watches).toDo ≤ p.toDo - watches.countP (·.isProceed) := by
  induction watches generalizing p with
  | nil => exact Nat.le_refl _
  | cons w watches ih =>
    have h_rest := ih (h.step w) fun w' h_w' => h_scan w' (List.mem_cons_of_mem _ h_w')
    have h_run : p.run (w :: watches) = (p.step w).run watches := rfl
    rw [h_run, List.countP_cons]
    cases w with
    -- a move of the yard leaves the errands as they are
    | other m =>
      have h_same : (p.step (.other m)).toDo = p.toDo := rfl
      rw [h_same] at h_rest
      simpa [Watch.isProceed] using h_rest
    | scan threshold now order => exact absurd (h_scan _ (List.mem_cons_self ..)) (by simp [Watch.isScan])
    -- each step for a stall counts on both sides
    | proceed now =>
      have h_one : (p.step (.proceed now)).toDo ≤ p.toDo - 1 := h.toDo_proceed now
      have h_counts : (Watch.proceed now).isProceed = true := rfl
      rw [if_pos h_counts]
      omega

/-! ### What a sweep does to runs and queues -/

/-- A step for a stall tells no run to stop but that of the stall at hand, and changes no queue but by a
marked task for the group of that run, which is written down. -/
theorem Sober.proceed_effect (h : p.Sober) (now : Instant) :
    let p' := p.step (.proceed now)
    (p'.yard.engine.runs = p.yard.engine.runs ∨ ∃ s ∈ p.errands.head?,
      p'.yard.engine.runs = p.yard.engine.runs.map fun r =>
        if r.isLive && r.info.id == s.run.id then r.cancel else r) ∧
    (p'.yard.engine.queueAt = p.yard.engine.queueAt ∧ p'.sent = p.sent ∨
      ∃ s ∈ p.errands.head?, ∃ place q t, p.yard.engine.queueAt place = some q ∧ t.group = q.id ∧
        t.group = s.run.group ∧ t.isExceptionHandler = true ∧
        p'.yard.engine.queueAt = Function.update p.yard.engine.queueAt place (some (q.after (.enqueue t))) ∧
        p'.sent = p.sent ++ [(s.run.id, t.id)]) := by
  intro p'
  have h_advance : p.Advance p' := p.advance now h.asks
  -- what matters of the step is only in which of the ways it went
  clear_value p'
  cases h_advance with
  | idle => exact ⟨.inl rfl, .inl ⟨rfl, rfl⟩⟩
  | looked => exact ⟨.inl rfl, .inl ⟨rfl, rfl⟩⟩
  | posted stall rest place task h_errands h_asks h_mark h_group =>
    obtain ⟨h_runs, h_queues⟩ := p.post_cases stall place task
    refine ⟨.inl h_runs, h_queues.imp_right ?_⟩
    rintro ⟨q, h_at, h_own, h_set, h_sent⟩
    exact ⟨stall, by simp [h_errands], place, q, task.fresh (Engine.idText p.yard.engine.issued), h_at,
      h_own, h_group, h_mark, h_set, h_sent⟩
  | struck stall rest h_errands h_phase =>
    exact ⟨.inr ⟨stall, by simp [h_errands], rfl⟩, .inl ⟨rfl, rfl⟩⟩

/-! ### How many tasks are queued -/

/-- The run for which a task was queued has begun, and is not one of a task that was queued for a stall. -/
theorem Sober.sender (h : p.Sober) {x : String × String} (h_x : x ∈ p.sent) :
    ∃ i ∈ p.began, i.id = x.1 ∧ p.isPlain i = true := by
  obtain ⟨s, h_s, h_id, h_script⟩ := h.senders x h_x
  have h_began := h.found_began s h_s
  refine ⟨s.run, h_began, h_id, ?_⟩
  unfold isPlain
  cases h_task : s.run.task with
  | none => rfl
  | some t =>
    rw [Option.all_some, Bool.not_eq_true', ← Bool.not_eq_true, List.contains_iff_mem]
    intro h_t
    obtain ⟨x', h_x', rfl⟩ := List.mem_map.mp h_t
    -- a run of such a task names no script, but this one does
    rw [h.plain s.run h_began x' h_x' h_task] at h_script
    cases h_script

theorem Sober.length_sent_le (h : p.Sober) : p.sent.length ≤ (p.began.filter p.isPlain).length := by
  have h_sub : p.sent.map Prod.fst ⊆ (p.began.filter p.isPlain).map (·.id) := by
    intro id h_id
    obtain ⟨x, h_x, rfl⟩ := List.mem_map.mp h_id
    obtain ⟨i, h_i, h_same, h_plain⟩ := h.sender h_x
    exact List.mem_map.mpr ⟨i, List.mem_filter.mpr ⟨h_i, h_plain⟩, h_same⟩
  have h_le := (List.subperm_of_subset h.once h_sub).length_le
  rw [List.length_map, List.length_map] at h_le
  exact h_le

/-! ### A sweep without interruption -/

/-- A task for a stall is queued where its script is known and the group of its run exists. -/
theorem submitExceptionScript_eq {e : Engine} {stall : Stall} {id : String} {script : ScriptDefinition}
    {place : ℕ} (h_script : e.script id = .ok script) (h_place : e.place? stall.run.group = some place)
    (now : Instant) :
    ∃ q, e.queueAt place = some q ∧ (∀ k, .fired k ∉ q.tells (.enqueue (errandTask e script stall now))) ∧
      e.submitExceptionScript stall.run.group id now = .ok (Engine.idText e.issued,
        { e.setQueue place (q.after (.enqueue (errandTask e script stall now))) with issued := e.issued + 1 }) := by
  obtain ⟨q, h_queue, h_at, h_id⟩ := Engine.queue_of_place? h_place
  have h_enq := GroupQueue.enqueue_eq_ok_iff.mpr
    ⟨show (errandTask e script stall now).group = q.id from h_id.symm, rfl⟩
  refine ⟨q, h_at, fun k => by simp [GroupQueue.tells, h_enq], ?_⟩
  have h_group : (errandTask e script stall now).group = stall.run.group := rfl
  unfold Engine.submitExceptionScript
  rw [h_script]
  show e.submitTask (errandTask e script stall now) = _
  unfold Engine.submitTask Engine.withQueue
  rw [h_group, h_place, h_queue]
  simp only [bind, Except.bind, h_enq, GroupQueue.after]
  rfl

/-- Where no such script is known, or the group of the run does not exist, no task is queued. -/
theorem submitExceptionScript_ne_ok {e : Engine} {stall : Stall} {id : String} {now : Instant}
    (h : ∀ script, e.script id = .ok script → e.place? stall.run.group = none) :
    (e.submitExceptionScript stall.run.group id now).toOption = none := by
  unfold Engine.submitExceptionScript
  cases h_script : e.script id with
  | error err => rfl
  | ok script =>
    show (e.submitTask (errandTask e script stall now)).toOption = none
    have h_group : (errandTask e script stall now).group = stall.run.group := rfl
    rw [Engine.submitTask, Engine.withQueue, h_group, h script h_script]
    rfl

/-- Steps for stalls, with nothing in between, lead from one patrol to another. -/
def LeadsTo (now : Instant) (p p' : Patrol) : Prop := ∃ n, p.proceeds n now = p'

section

variable {p' : Patrol} {now : Instant} {stall : Stall} {rest : List Stall}

namespace LeadsTo

theorem refl (now : Instant) (p : Patrol) : LeadsTo now p p := ⟨0, rfl⟩

theorem trans {p'' : Patrol} (h : LeadsTo now p p') (h' : LeadsTo now p' p'') : LeadsTo now p p'' := by
  obtain ⟨k, rfl⟩ := h
  obtain ⟨n, rfl⟩ := h'
  refine ⟨k + n, ?_⟩
  rw [proceeds, List.replicate_add, run, List.foldl_append]
  rfl

theorem of_proceed (h : p.proceed now = p') : LeadsTo now p p' := ⟨1, h⟩

end LeadsTo

/-- A script and a place are looked up, one after the other. If both are found, the task is submitted. -/
theorem leadsTo_posted {id : String} {script : ScriptDefinition} {place : ℕ}
    (h_errands : p.errands = stall :: rest) (h_phase : p.phase = .fresh)
    (h_id : stall.run.exceptionScript = some id) (h_script : p.yard.engine.script id = .ok script)
    (h_place : p.yard.engine.place? stall.run.group = some place) :
    LeadsTo now p (Patrol.post { p with phase := .placed script place } stall place
      (errandTask p.yard.engine script stall now)) := by
  have h_first : p.proceed now = { p with phase := .scripted script } := by
    simp only [proceed, h_errands, h_phase, h_id, Option.bind_some, h_script, Except.toOption]
  have h_second : Patrol.proceed { p with phase := .scripted script } now =
      { p with phase := .placed script place } := by
    simp only [proceed, h_errands, h_place]
  have h_third : Patrol.proceed { p with phase := .placed script place } now =
      Patrol.post { p with phase := .placed script place } stall place
        (errandTask p.yard.engine script stall now) := by
    simp only [proceed, h_errands]
  exact (LeadsTo.of_proceed h_first).trans ((LeadsTo.of_proceed h_second).trans (.of_proceed h_third))

/-- If one of the two is not found, nothing is submitted. -/
theorem leadsTo_last (h_errands : p.errands = stall :: rest) (h_phase : p.phase = .fresh)
    (h_none : ∀ id script, stall.run.exceptionScript = some id → p.yard.engine.script id = .ok script →
      p.yard.engine.place? stall.run.group = none) :
    LeadsTo now p { p with phase := .last } := by
  cases h_id : stall.run.exceptionScript with
  | none =>
    refine .of_proceed ?_
    simp only [proceed, h_errands, h_phase, h_id, Option.bind_none]
  | some id =>
    cases h_script : p.yard.engine.script id with
    | error err =>
      refine .of_proceed ?_
      simp only [proceed, h_errands, h_phase, h_id, Option.bind_some, h_script, Except.toOption]
    | ok script =>
      -- the script is found, so one more step is needed to miss the group
      have h_first : p.proceed now = { p with phase := .scripted script } := by
        simp only [proceed, h_errands, h_phase, h_id, Option.bind_some, h_script, Except.toOption]
      refine (LeadsTo.of_proceed h_first).trans (.of_proceed ?_)
      simp only [proceed, h_errands, h_none id script h_id h_script]

/-- At last the run is told to stop. -/
theorem leadsTo_strike (h_errands : p.errands = stall :: rest) (h_phase : p.phase = .last) :
    LeadsTo now p (p.strike stall rest) := by
  refine .of_proceed ?_
  simp only [proceed, h_errands, h_phase]

/-- With nothing in between, the steps for one stall are `Engine.handleStall`. -/
theorem leadsTo_handleStall (h_errands : p.errands = stall :: rest) (h_phase : p.phase = .fresh) (c : Clock) :
    ∃ p', LeadsTo c.time p p' ∧ p'.errands = rest ∧ p'.phase = .fresh ∧
      p'.yard.engine = p.yard.engine.handleStall stall c := by
  by_cases h_none : ∀ id script, stall.run.exceptionScript = some id → p.yard.engine.script id = .ok script →
      p.yard.engine.place? stall.run.group = none
  · -- no task is queued, and the run is only told to stop
    have h_last : ({ p with phase := .last } : Patrol).errands = stall :: rest := h_errands
    refine ⟨_, (leadsTo_last h_errands h_phase h_none).trans (leadsTo_strike h_last rfl), rfl, rfl, ?_⟩
    have h_queued : (stall.run.exceptionScript.bind fun id =>
        (p.yard.engine.submitExceptionScript stall.run.group id c.time).toOption) = none := by
      cases h_id : stall.run.exceptionScript with
      | none => rfl
      | some id => exact submitExceptionScript_ne_ok fun script h_script => h_none id script h_id h_script
    rw [Engine.handleStall, h_queued]
    rfl
  · push Not at h_none
    obtain ⟨id, script, h_id, h_script, h_some⟩ := h_none
    obtain ⟨place, h_place⟩ := Option.ne_none_iff_exists'.mp h_some
    obtain ⟨q, h_at, h_quiet, h_submit⟩ := submitExceptionScript_eq h_script h_place c.time
    have h_posted : (Patrol.post { p with phase := .placed script place } stall place
        (errandTask p.yard.engine script stall c.time)).errands = stall :: rest := h_errands
    refine ⟨_, (leadsTo_posted h_errands h_phase h_id h_script h_place).trans
      (leadsTo_strike h_posted rfl), rfl, rfl, ?_⟩
    rw [Engine.handleStall, h_id, Option.bind_some, h_submit]
    -- the queue is given the same task, under the id that it has already
    have h_fresh : (errandTask p.yard.engine script stall c.time).fresh
        (Engine.idText p.yard.engine.issued) = errandTask p.yard.engine script stall c.time := rfl
    simp only [strike, post, Yard.step, Yard.submit, Yard.operate, h_at, h_fresh,
      Engine.stopFired_of_quiet _ h_quiet]
    rfl

/-- **With nothing in between, a scan and the steps for what it finds are `Engine.sweep`**, which deals with
the stalls in the order in which they are found. -/
theorem leadsTo_sweep (h_errands : p.errands = []) (c : Clock) :
    ∃ p', LeadsTo c.time (p.step (.scan p.yard.engine.settings.stallThreshold c.moment fun _ _ => true)) p' ∧
      p'.errands = [] ∧ p'.yard.engine = (p.yard.engine.sweep c).2 := by
  have h_all : ∀ (stalls : List Stall) (p : Patrol), p.errands = stalls → p.phase = .fresh →
      ∃ p', LeadsTo c.time p p' ∧ p'.errands = [] ∧
        p'.yard.engine = stalls.foldl (fun e s => e.handleStall s c) p.yard.engine := by
    intro stalls
    -- by the stalls that are left: the steps for one do what `handleStall` does
    induction stalls with
    | nil => exact fun p h_p _ => ⟨p, .refl c.time p, h_p, rfl⟩
    | cons stall rest ih =>
      intro p h_p h_phase
      obtain ⟨p₁, h_lead, h_rest, h_fresh, h_engine⟩ := leadsTo_handleStall h_p h_phase c
      obtain ⟨p₂, h_more, h_nil, h_end⟩ := ih p₁ h_rest h_fresh
      refine ⟨p₂, h_lead.trans h_more, h_nil, ?_⟩
      rw [h_end, h_engine, List.foldl_cons]
  -- an order that puts nothing before anything else leaves them as they were found
  have h_order : ∀ l : List Stall, l.mergeSort (fun _ _ => true) = l :=
    fun l => List.mergeSort_of_pairwise (List.pairwise_of_forall fun _ _ => rfl)
  rw [scan_eq h_errands, h_order]
  exact h_all (p.yard.engine.stalled c.moment) _ rfl rfl

end

/-- **Every stall is handled, and at most once**, whatever else happens between the steps of the watch:

* A scan that is made when all earlier errands are done finds exactly the live runs that are not cancelled
  and have made no progress for longer than the threshold, each once, and changes nothing. If nothing happens
  in between, this and the steps for what was found, in the order in which it was, are `Engine.sweep`.
* The errands are stalls that were found. One that was found and is not among the errands any more is of a
  run that is cancelled or no longer live. Four steps for each are enough to do all errands, whatever happens
  in between.
* A step for a stall tells no other run to stop, and changes no queue but by a marked task, which is written
  down among those that were sent.
* No two tasks were sent for one run. A task was sent only for a run that has begun and is not one of a task
  that was sent itself, so that there are at most as many as there are such runs. -/
theorem stalls_are_handled_once (settings : EngineSettings) (watches : List Watch) :
    let p := (idle settings).run watches
    let e := p.yard.engine
    (p.errands = [] →
      (∀ threshold now order, let p' := p.step (.scan threshold now order)
        p'.yard = p.yard ∧ p'.sent = p.sent ∧ p'.found = p.found ++ p'.errands ∧
          (p'.errands.map (·.run.id)).Nodup ∧
          ∀ s, s ∈ p'.errands ↔ ∃ r ∈ e.runs, r.isLive = true ∧ r.context.cancelled = false ∧
            threshold < r.context.idle now ∧ s = ⟨r.info, r.context.idle now⟩) ∧
      ∀ c, ∃ p', LeadsTo c.time (p.step (.scan e.settings.stallThreshold c.moment fun _ _ => true)) p' ∧
        p'.errands = [] ∧ p'.yard.engine = (e.sweep c).2) ∧
    (p.errands <:+ p.found ∧
      (∀ s ∈ p.found, s ∈ p.errands ∨
        ∀ r ∈ e.runs, r.info.id = s.run.id → r.context.cancelled = true ∨ r.isLive = false) ∧
      ∀ more : List Watch, (∀ w ∈ more, w.isScan = false) →
        4 * p.errands.length ≤ more.countP (·.isProceed) → (p.run more).errands = []) ∧
    (∀ now, let p' := p.step (.proceed now)
      (p'.yard.engine.runs = e.runs ∨ ∃ s ∈ p.errands.head?,
        p'.yard.engine.runs = e.runs.map fun r =>
          if r.isLive && r.info.id == s.run.id then r.cancel else r) ∧
      (p'.yard.engine.queueAt = e.queueAt ∧ p'.sent = p.sent ∨
        ∃ s ∈ p.errands.head?, ∃ place q t, e.queueAt place = some q ∧ t.group = q.id ∧
          t.group = s.run.group ∧ t.isExceptionHandler = true ∧
          p'.yard.engine.queueAt = Function.update e.queueAt place (some (q.after (.enqueue t))) ∧
          p'.sent = p.sent ++ [(s.run.id, t.id)])) ∧
    (p.sent.map Prod.fst).Nodup ∧ (p.began.map (·.id)).Nodup ∧
      (∀ x ∈ p.sent, ∃ i ∈ p.began, i.id = x.1 ∧ p.isPlain i = true) ∧
      p.sent.length ≤ (p.began.filter p.isPlain).length := by
  intro p e
  have h : p.Sober := (Sober.idle settings).run watches
  refine ⟨fun h_errands => ⟨fun threshold now order => ?_, fun c => leadsTo_sweep h_errands c⟩,
    ⟨h.suffix, fun s h_s => ?_, fun more h_scan h_count => ?_⟩, fun now => h.proceed_effect now, h.once,
    h.roll.distinct, fun x h_x => h.sender h_x, h.length_sent_le⟩
  · have h_scan := scan_eq h_errands threshold now order
    intro p'
    rw [show p' = _ from h_scan]
    exact ⟨rfl, rfl, rfl, nodup_stalled h.ordered h.named threshold now order, fun s => mem_stalled⟩
  · -- a silenced run that is at its end is not live
    refine (h.silent s h_s).imp_right fun h_quiet r h_r h_id => ?_
    obtain ⟨-, h_cancelled | h_end⟩ := h_quiet.runs r h_r h_id
    · exact .inl h_cancelled
    · refine .inr ?_
      rw [EngineRun.isLive, Option.isNone_eq_false_iff.mpr h_end, Bool.and_false]
  · have h_left := h.toDo_run more h_scan
    have h_all := p.toDo_le
    exact toDo_eq_zero.mp (by omega)

/-- The second scan finds nothing: the run for which a task was queued is told to stop. -/
example :
    let p := (idle {}).run [.other (.createGroup "g" "G"), .other (.catalog [("rescue", { id := "rescue" })]),
      .other (.openRun "g" "s" [.call ⟨"dev", "tap", [], none⟩ none] [] (some "rescue") {}),
      .other (.begin 0 {}), .scan (.ofMillis 10) 20 fun _ _ => true, .proceed (.ofMillis 20), .proceed (.ofMillis 20),
      .proceed (.ofMillis 20), .proceed (.ofMillis 20), .scan (.ofMillis 10) 40 fun _ _ => true]
    p.sent = [(Engine.idText 0, Engine.idText 1)] ∧ p.found.length = 1 ∧ p.errands = [] := by
  decide +kernel

end Patrol

end ScriptYard
