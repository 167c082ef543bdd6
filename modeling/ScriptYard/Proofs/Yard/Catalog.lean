import ScriptYard.Proofs.Yard.Operations

/-!
# The catalog of an engine

Scripts are put into the catalog by three operations, each of which may replace a script by another of the
same id; no operation takes one away (`Engine.Operation.contains_scripts`). So a script that is named for
stalled runs and is in the catalog once is found whenever a run stalls, and the one thing that can keep it
from being queued is that the group of the run no longer exists (`submitExceptionScript_error`).
-/

namespace ScriptYard

namespace Engine

variable {e e' : Engine}

/-! ### Operations that leave the catalog alone -/

theorem scripts_addQueue {q : GroupQueue} (h : e.addQueue q = .ok e') : e'.scripts = e.scripts := by
  obtain ⟨-, rfl⟩ := addQueue_eq_ok h
  rfl

theorem scripts_withQueue {group : String} {f : GroupQueue → Except EngineError GroupQueue}
    (h : e.withQueue group f = .ok e') : e'.scripts = e.scripts := by
  obtain ⟨p, q, q', -, -, rfl⟩ := withQueue_eq_ok h
  rfl

theorem scripts_removeGroup {group : String} {now : Instant} (h : e.removeGroup group now = .ok e') :
    e'.scripts = e.scripts := by
  cases h_place : e.place? group with
  | none =>
    rw [removeGroup_eq_error now h_place] at h
    cases h
  | some p =>
    obtain ⟨q, -, h_at, -⟩ := queue_of_place? h_place
    rw [removeGroup_eq_ok now h_place h_at] at h
    cases h
    rfl

theorem scripts_submitTask {t : Task} {id : String} (h : e.submitTask t = .ok (id, e')) :
    e'.scripts = e.scripts := by
  cases h_place : e.place? t.group with
  | none =>
    rw [submitTask_of_no_place h_place] at h
    cases h
  | some p =>
    obtain ⟨q, -, h_at, -⟩ := queue_of_place? h_place
    rw [submitTask_of_place? h_place h_at] at h
    cases h
    rfl

theorem scripts_submitScript {group script id : String} {priority : Option Int} {now : Instant}
    (h : e.submitScript group script priority now = .ok (id, e')) : e'.scripts = e.scripts := by
  unfold submitScript at h
  cases h_script : e.script script with
  | error err =>
    rw [h_script] at h
    cases h
  | ok s =>
    rw [h_script] at h
    exact scripts_submitTask h

theorem scripts_submitExceptionScript {group script id : String} {now : Instant}
    (h : e.submitExceptionScript group script now = .ok (id, e')) : e'.scripts = e.scripts := by
  unfold submitExceptionScript at h
  cases h_script : e.script script with
  | error err =>
    rw [h_script] at h
    cases h
  | ok s =>
    rw [h_script] at h
    exact scripts_submitTask h

theorem scripts_cancel {task : String} {now : Instant} (h : e.cancel task now = some e') :
    e'.scripts = e.scripts := by
  simp only [cancel, Option.bind_eq_bind, Option.bind_eq_some_iff, Option.pure_def, Option.some.injEq] at h
  obtain ⟨p, -, x, -, ⟨outcome, q⟩, -, rfl⟩ := h
  cases outcome with
  | removed => rfl
  | requested run token => cases token <;> rfl

theorem scripts_dispatch {p : ℕ} {c : Clock} (h : e.dispatch p c = some e') : e'.scripts = e.scripts := by
  simp only [dispatch, Option.bind_eq_bind, Option.bind_eq_some_iff, Option.pure_def] at h
  obtain ⟨x, -, h⟩ := h
  rw [Option.bind_none, Option.ite_none_left_eq_some, Option.bind_eq_some_iff] at h
  obtain ⟨-, ⟨t, q⟩, -, h_e⟩ := h
  cases h_e
  unfold launch
  split <;> rfl

theorem scripts_tick (e : Engine) (c : Clock) : (e.tick c).2.scripts = e.scripts := by
  have h_all : ∀ (places : List ℕ) (e : Engine), (e.dispatchAll c places).2.scripts = e.scripts := by
    intro places
    -- the places are gone through one by one, and no dispatch touches the catalog
    induction places with
    | nil => exact fun e => rfl
    | cons p places ih =>
      intro e
      unfold dispatchAll
      split
      · next e' h => exact (ih e').trans (scripts_dispatch h)
      · exact ih e
  unfold tick
  split
  · rfl
  · exact h_all _ e

theorem scripts_finish {n : ℕ} {c : Clock} {report : RunReport} (h : e.finish n c = some (report, e')) :
    e'.scripts = e.scripts := by
  obtain ⟨r, -, -, -, ⟨-, rfl⟩ | ⟨p, q, t, -, -, -, rfl⟩⟩ := finish_cases h <;> rfl

theorem scripts_sweep (e : Engine) (c : Clock) : (e.sweep c).2.scripts = e.scripts := by
  -- a stall submits a script of the catalog at most, and that only reads it
  have h_one : ∀ (e : Engine) (s : Stall), (e.handleStall s c).scripts = e.scripts := by
    intro e s
    unfold handleStall
    simp only [cancelRuns]
    split
    · next id e' h =>
      obtain ⟨script, -, h⟩ := Option.bind_eq_some_iff.mp h
      cases h_submit : e.submitExceptionScript s.run.group script c.time with
      | error err =>
        rw [h_submit] at h
        cases h
      | ok x =>
        rw [h_submit] at h
        cases h
        exact scripts_submitExceptionScript h_submit
    · rfl
  have h_all : ∀ (stalls : List Stall) (e : Engine),
      (stalls.foldl (fun e s => e.handleStall s c) e).scripts = e.scripts := by
    intro stalls
    induction stalls with
    | nil => exact fun e => rfl
    | cons s stalls ih => exact fun e => (ih (e.handleStall s c)).trans (h_one e s)
  exact h_all _ e

/-! ### Operations that put scripts into it -/

theorem contains_registerScript {id : String} (h : e.scripts.contains id = true) (s : ScriptDefinition) :
    (e.registerScript s).scripts.contains id = true := by
  unfold Fields.contains registerScript at *
  rw [Fields.get?_insert]
  split
  · rfl
  · exact h

theorem contains_loadLibrary {id : String} (h : e.scripts.contains id = true) (l : ScriptLibrary) :
    (e.loadLibrary l).2.scripts.contains id = true := by
  have h_scripts : ∀ (scripts : List ScriptDefinition) (e : Engine), e.scripts.contains id = true →
      (scripts.foldl registerScript e).scripts.contains id = true := by
    intro scripts
    induction scripts with
    | nil => exact fun _ h => h
    | cons s scripts ih => exact fun e h => ih (e.registerScript s) (contains_registerScript h s)
  unfold loadLibrary
  obtain h_all | ⟨made, g, rest, -, -, h_some⟩ := addGroups_cases l.groups (l.scripts.foldl registerScript e)
  · rw [h_all]
    exact h_scripts l.scripts e h
  · rw [h_some]
    exact h_scripts l.scripts e h

/-- **A script of the catalog** can be replaced, but it does not go away. -/
theorem Operation.contains_scripts (h : e.Operation e') {id : String} (h_id : e.scripts.contains id = true) :
    e'.scripts.contains id = true := by
  -- all but three kinds of operations leave the catalog as it is
  have h_same : e'.scripts = e.scripts → e'.scripts.contains id = true := fun h => by rwa [h]
  cases h with
  | createGroup h => exact h_same (scripts_addQueue h)
  | addGroup h => exact h_same (scripts_addQueue h)
  | setGroupEnabled h => exact h_same (scripts_withQueue h)
  | setExceptionScript h =>
    unfold Engine.setExceptionScript at h
    split at h
    · cases h
    · exact h_same (scripts_withQueue h)
  | removeGroup h => exact h_same (scripts_removeGroup h)
  | registerScript s => exact contains_registerScript h_id s
  | loadLibrary l => exact contains_loadLibrary h_id l
  | submit h => exact h_same (scripts_submitTask h)
  | submitScript h => exact h_same (scripts_submitScript h)
  | submitDefinition group s priority now =>
    have h_registered := contains_registerScript h_id s
    unfold Engine.submitDefinition
    simp only
    split
    · next h => rwa [scripts_submitScript h]
    · exact h_registered
  | cancel h => exact h_same (scripts_cancel h)
  | tick c => exact h_same (scripts_tick e c)
  | finish h => exact h_same (scripts_finish h)
  | start h =>
    unfold Engine.start at h
    split at h
    · cases h
    · cases h
      exact h_id
  | sweep c => exact h_same (scripts_sweep e c)
  | openRun | beginRun | carryOn | pause | stopAll | beginShutdown => exact h_id

/-- A script of the catalog is queued for a stalled run wherever the group of the run still exists. -/
theorem submitExceptionScript_error {group id : String} {now : Instant} {err : EngineError}
    (h_id : e.scripts.contains id = true) (h : e.submitExceptionScript group id now = .error err) :
    err = .groupNotFound group := by
  obtain ⟨s, h_s⟩ := Option.isSome_iff_exists.mp h_id
  have h_script : e.script id = .ok s := by
    unfold script
    rw [h_s]
  unfold submitExceptionScript at h
  rw [h_script] at h
  let t := { e.taskOf s group (some e.settings.exceptionPriority) now with isExceptionHandler := true }
  change e.submitTask t = _ at h
  -- the script is found, which leaves the group as the only reason
  cases h_place : e.place? group with
  | none =>
    rw [submitTask_of_no_place (t := t) h_place] at h
    cases h
    rfl
  | some p =>
    obtain ⟨q, -, h_at, -⟩ := queue_of_place? h_place
    rw [submitTask_of_place? (t := t) h_place h_at] at h
    cases h

end Engine

end ScriptYard
