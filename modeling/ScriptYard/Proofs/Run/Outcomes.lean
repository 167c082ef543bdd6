import ScriptYard.Proofs.Queue.Settlement
import ScriptYard.Proofs.Run.Failures
import ScriptYard.Proofs.Run.Sequence

/-!
# Outcomes, from the leaf to the task

A result is a success, or a failure with a text and a nature. That an action says it was cancelled is warranted
only if the run is: an action finds out so by a look or by a sleep that ended early, and a run that was
found cancelled stays so.

`Process.Knowing P` says of a process what holds at each of its ends, `P`, of its result and of whether the
run was found cancelled by then. It composes along `Process.bind`, and a journey keeps it together with the
cancellation itself (`Going.Journey.knowing`). `Action.knowing_execute` carries it through the tree, and
`knowing_runActions` through a script, whose ends make definite reports.

`Going.outcomes_are_definite` is the whole, up to what becomes of the task of the run.
-/

namespace ScriptYard

/-! ### Processes that know of the cancellation -/

namespace Process

variable {α β : Type}

/-- What holds at each end of the process, of its result and of whether the run was found cancelled, which it
may have been before. -/
def Knowing (P : Bool → α → Prop) : (found : Bool) → Process α → Prop
  | found, .done a => P found a
  | found, .poll k => Knowing P true (k true) ∧ (found = false → Knowing P false (k false))
  | found, .cancel k | found, .touch k | found, .assign _ _ k => Knowing P found k
  | found, .look k => ∀ vars, Knowing P found (k vars)
  | found, .call _ k => ∀ reply, Knowing P found (k reply)
  | found, .sleep _ k => Knowing P found (k true) ∧ Knowing P true (k false)

namespace Knowing

variable {P : Bool → α → Prop} {Q : Bool → β → Prop} {p : Process α} {found : Bool}

theorem bind {f : α → Process β} (h : p.Knowing P found) (h_f : ∀ found a, P found a → (f a).Knowing Q found) :
    (p.bind f).Knowing Q found := by
  induction p generalizing found with
  | done a => exact h_f found a h
  | poll k ih => exact ⟨ih true h.1, fun h_off => ih false (h.2 h_off)⟩
  | cancel k ih | touch k ih | assign name value k ih => exact ih h
  | look k ih | call r k ih => exact fun x => ih x (h x)
  | sleep time k ih => exact ⟨ih true h.1, ih false h.2⟩

/-- What is the case at all ends holds whatever was found. -/
theorem of_yields {ds : List Deed} (h : p.Yields (fun _ a => ∀ found, P found a) ds) (found : Bool) :
    p.Knowing P found := by
  induction p generalizing ds found with
  | done a => exact h found
  | poll k ih => exact ⟨ih true (h true) true, fun _ => ih false (h false) false⟩
  | cancel k ih | touch k ih | assign name value k ih => exact ih h found
  | look k ih | call r k ih => exact fun x => ih x (h x) found
  | sleep time k ih => exact ⟨ih true (h true) found, ih false (h false) true⟩

end Knowing

end Process

/-- What was found is still so, and the process that is left knows of it. -/
def Going.Aware {α : Type} (P : Bool → α → Prop) (g : Going α) : Prop :=
  ∃ found, g.process.Knowing P found ∧ (found = true → g.context.cancelled = true)

section Journeys

open Going

variable {α : Type} {P : Bool → α → Prop} {g g' : Going α} {d : Option Deed} {ds : List Deed}

/-- **One step.** A look finds what the context says, and a sleep ends early only if the run is cancelled. -/
theorem Going.Step.aware (h_step : g.Step d g') (h : g.Aware P) : g'.Aware P := by
  obtain ⟨found, h_knowing, h_found⟩ := h
  cases h_step with
  -- what a look finds is remembered; a cancellation is not taken back
  | poll k c =>
    cases h_cancelled : c.cancelled with
    | true => exact ⟨true, h_knowing.1, fun _ => h_cancelled⟩
    | false =>
      have h_off : found = false := Bool.eq_false_iff.mpr fun h_on => by
        rw [show c.cancelled = true from h_found h_on] at h_cancelled
        cases h_cancelled
      exact ⟨false, h_knowing.2 h_off, nofun⟩
  | cancel k c => exact ⟨found, h_knowing, fun _ => rfl⟩
  | stopInCall r k c | stopInSleep time k c => exact ⟨found, h_knowing, fun _ => rfl⟩
  | touch k c now | assign name value k c | call r k c => exact ⟨found, h_knowing, h_found⟩
  | look k c => exact ⟨found, h_knowing c.vars, h_found⟩
  | answer r k c reply => exact ⟨found, h_knowing reply, h_found⟩
  | wake time k c passed h_early =>
    cases passed with
    | true => exact ⟨found, h_knowing.1, h_found⟩
    | false => exact ⟨true, h_knowing.2, fun _ => h_early rfl⟩

/-- **A whole journey**, also with cancellations from outside. -/
theorem Going.Journey.aware (h_journey : g.Journey ds g') (h : g.Aware P) : g'.Aware P := by
  induction h_journey with
  | refl => exact h
  | step _ h_step ih => exact h_step.aware ih
  | stop _ ih =>
    obtain ⟨found, h_knowing, -⟩ := ih
    exact ⟨found, h_knowing, fun _ => rfl⟩

/-- What a process knows at its ends is so at the end of a journey. -/
theorem Going.Journey.knowing {p : Process α} {a : α} {c c' : RunContext}
    (h_journey : Journey ⟨p, c, false⟩ ds ⟨.done a, c', false⟩) (h : p.Knowing P false) :
    ∃ found, P found a ∧ (found = true → c'.cancelled = true) :=
  h_journey.aware ⟨false, h, nofun⟩

end Journeys

/-! ### Warranted results -/

/-- If the result says that the run was cancelled, it was found so. -/
def ActionResult.Warranted (found : Bool) (r : ActionResult) : Prop :=
  r.failure.map (·.kind) = some .cancelled → found = true

/-- The end of a pass says that the run was cancelled only if it was found so. -/
def PassEnd.Warranted (found : Bool) : PassEnd → Prop
  | .failed r => r.Warranted found
  | .cancelled => found = true
  | .finished | .broken => True

/-- The end of a run is one of three kinds, and cancelled only if the run was found so. -/
inductive RunEnd.Warranted (found : Bool) : RunEnd → Prop where
  /-- All actions succeeded. -/
  | completed (executed : ℕ) (result : Value) : Warranted found ⟨.completed, executed, result, none⟩
  /-- The run was found cancelled. -/
  | cancelled (executed : ℕ) (result : Value) (h : found = true) : Warranted found (.cancelled executed result)
  /-- An action failed, and not because the run was cancelled. -/
  | failed (executed : ℕ) (result : Value) (f : Failure) (h : f.kind ≠ .cancelled) :
    Warranted found ⟨.failed, executed, result, some f⟩

open Process

theorem warranted_ok (found : Bool) (v : Value) : (ActionResult.ok v).Warranted found := nofun

theorem warranted_of_failsOnly {P : Failure → Prop} {ds : List Deed} {r : ActionResult}
    (h : FailsOnly P ds r.failure) (h_P : ∀ f, P f → f.kind ≠ .cancelled) (found : Bool) :
    r.Warranted found := by
  intro h_kind
  obtain ⟨f, h_failure, h_f⟩ := Option.map_eq_some_iff.mp h_kind
  exact absurd h_f (h_P f (h f h_failure).2)

/-- A piece of an action of which the failures are known, and are no cancellations. -/
theorem knowing_of_failsOnly {P : Failure → Prop} {p : Process ActionResult}
    (h : p.Yields (fun ds r => FailsOnly P ds r.failure) []) (h_P : ∀ f, P f → f.kind ≠ .cancelled)
    (found : Bool) : p.Knowing ActionResult.Warranted found :=
  .of_yields (h.mono fun _ _ h_r => warranted_of_failsOnly h_r h_P) found

/-- A pause tells whether the run may go on: it may not only if it was found cancelled. -/
theorem knowing_pause (time : Span) (found : Bool) :
    (Process.pause time).Knowing (fun found passed => passed = false → found = true) found := by
  unfold Process.pause
  split
  · exact ⟨fun _ => rfl, fun _ => nofun⟩
  · exact ⟨nofun, fun _ => rfl⟩

theorem knowing_executeWait (time : Span) (found : Bool) :
    (executeWait time).Knowing ActionResult.Warranted found := by
  refine (knowing_pause time found).bind fun found passed h => ?_
  cases passed with
  | true => exact warranted_ok found _
  | false => exact fun _ => h rfl

theorem knowing_guarded (isLeaf : Bool) {body : Process ActionResult}
    (h : body.Knowing ActionResult.Warranted false) (found : Bool) :
    (guarded isLeaf body).Knowing ActionResult.Warranted found := by
  refine ⟨fun _ => rfl, fun _ => h.bind fun found r h_r => ?_⟩
  simp only
  split <;> exact h_r

theorem knowing_runLoop (interval : Span) {pass : Process PassEnd}
    (h : ∀ found, pass.Knowing PassEnd.Warranted found) (remaining made : ℕ) (found : Bool) :
    (runLoop interval pass remaining made).Knowing ActionResult.Warranted found := by
  induction remaining generalizing made found with
  | zero => exact warranted_ok found _
  | succ remaining ih =>
    refine ⟨fun _ => rfl, fun _ => (h false).bind fun found passEnd h_end => ?_⟩
    cases passEnd with
    | failed r => exact h_end
    | broken => exact warranted_ok found _
    -- a pass ends as cancelled only where a look has found it
    | cancelled => exact fun _ => h_end
    | finished =>
      simp only
      split
      · exact warranted_ok found _
      · refine (knowing_pause interval found).bind fun found passed h_passed => ?_
        cases passed with
        | false => exact fun _ => h_passed rfl
        | true => exact ih (made + 1) found

namespace Action

mutual

/-- **Actions** give warranted results. -/
theorem knowing_execute (a : Action) (found : Bool) : a.execute.Knowing ActionResult.Warranted found := by
  match a with
  | .call c _ =>
    refine knowing_guarded true (knowing_of_failsOnly (attempts_executeCall c) ?_ false) found
    rintro _ ⟨e, rfl⟩
    exact nofun
  | .condition check onTrue onFalse _ _ =>
    -- a check fails with a call, and the branch that is taken gives a warranted result itself
    have h_check : (evaluate check).Knowing (fun _ _ => True) false :=
      .of_yields ((yields_true _ []).mono fun _ _ _ _ => trivial) false
    refine knowing_guarded false (h_check.bind fun found answer _ => ?_) found
    cases answer with
    | error e =>
      intro h_kind
      rw [callFailure_eq] at h_kind
      cases h_kind
    | ok outcome =>
      cases outcome with
      | true =>
        refine (knowing_executeAll onTrue _ found (warranted_ok found _)).bind fun found r h_r => ?_
        simp only
        split
        · exact warranted_ok found _
        · exact h_r
      | false =>
        refine (knowing_executeAll onFalse _ found (warranted_ok found _)).bind fun found r h_r => ?_
        simp only
        split
        · exact warranted_ok found _
        · exact h_r
  | .loop interval n body _ =>
    exact knowing_guarded false (knowing_runLoop _ (knowing_executePass body) n 0 false) found
  | .templateMatch s _ =>
    refine knowing_guarded true (knowing_of_failsOnly (attempts_executeSearch s) ?_ false) found
    rintro _ (rfl | ⟨e, rfl⟩) <;> exact nofun
  | .readText t _ =>
    refine knowing_guarded true (knowing_of_failsOnly (attempts_executeReading t) ?_ false) found
    rintro _ (rfl | ⟨e, rfl⟩) <;> exact nofun
  | .wait duration _ => exact knowing_guarded true (knowing_executeWait _ false) found
  | .setVariable name value _ =>
    refine knowing_guarded true (knowing_of_failsOnly (attempts_executeAssignment name value) ?_ false) found
    rintro _ ⟨-, rfl⟩
    exact nofun
  | .restart _ =>
    exact knowing_guarded true (show executeRestart.Knowing _ false from warranted_ok false _) found
  | .unsupported kind =>
    have h_failed : (Process.done (ActionResult.ofError (.unsupportedAction kind))).Yields
        (fun ds r => FailsOnly (· = unsupportedKind kind) ds r.failure) [] := .failure rfl rfl
    refine knowing_guarded true (knowing_of_failsOnly h_failed ?_ false) found
    rintro _ rfl
    exact nofun

/-- **Sequences of actions** do. -/
theorem knowing_executeAll (actions : List Action) (last : ActionResult) (found : Bool)
    (h_last : last.Warranted found) : (executeAll actions last).Knowing ActionResult.Warranted found := by
  match actions with
  | [] => exact h_last
  | a :: rest =>
    refine ⟨fun _ => rfl, fun _ => (knowing_execute a false).bind fun found r h_r => ?_⟩
    split
    · exact knowing_executeAll rest r found h_r
    · exact h_r

/-- **Passes of loops** end in a warranted way. -/
theorem knowing_executePass (actions : List Action) (found : Bool) :
    (executePass actions).Knowing PassEnd.Warranted found := by
  match actions with
  | [] => trivial
  | a :: rest =>
    refine ⟨rfl, fun _ => (knowing_execute a false).bind fun found r h_r => ?_⟩
    split
    · show Knowing PassEnd.Warranted found (if mayBreak a && isTrueCondition r then .done .broken
        else executePass rest)
      split
      · trivial
      · exact knowing_executePass rest found
    · exact h_r

end

end Action

/-- **Scripts** end in a warranted way. -/
theorem knowing_runActions (actions : List Action) (executed : ℕ) (result : Value) (found : Bool) :
    (runActions actions executed result).Knowing RunEnd.Warranted found := by
  induction actions generalizing executed result found with
  | nil => exact .completed executed result
  | cons a rest ih =>
    rw [runActions_cons]
    refine ⟨.cancelled executed result rfl, fun _ => (a.knowing_execute false).bind fun found r h_r => ?_⟩
    refine ⟨.cancelled (executed + 1) result rfl, fun h_off => ?_⟩
    obtain ⟨data, - | f⟩ := r
    · exact ih (executed + 1) data false
    · -- the run was not found cancelled, so its action does not say so
      refine .failed (executed + 1) result f fun h_kind => ?_
      have h_found := h_r (congrArg some h_kind)
      rw [h_off] at h_found
      cases h_found

/-- The report of a run that ended in a warranted way is definite. -/
theorem RunEnd.Warranted.report {found : Bool} {e : RunEnd} (h : e.Warranted found) (i : RunInfo)
    (c : RunContext) (begun finished : Instant) :
    (i.report c e begun finished).Definite ∧
      ((i.report c e begun finished).failureKind = some .cancelled → found = true) := by
  cases h with
  | completed executed result => exact ⟨.completed rfl rfl rfl, nofun⟩
  | cancelled executed result h_found => exact ⟨.cancelled rfl rfl rfl, fun _ => h_found⟩
  | failed executed result f h_kind =>
    refine ⟨.failed f.error f.kind rfl rfl rfl ?_, fun h => absurd (Option.some.inj h) h_kind⟩
    cases h_f : f.kind with
    | transient => exact .inl rfl
    | fatal => exact .inr rfl
    | cancelled => exact absurd h_f h_kind

namespace Going

/-- A result is a success just if it has no error, and just if it has no nature of a failure; and if it says
that the run was cancelled, it is. -/
structure Faithful (r : ActionResult) (c : RunContext) : Prop where
  /-- A success has no error, and only a success. -/
  error : r.success = true ↔ r.failure.map (·.error) = none
  /-- A success has no nature of a failure, and only a success. -/
  kind : r.success = true ↔ r.failure.map (·.kind) = none
  /-- A result that says that the run was cancelled says so of a run that is. -/
  cancelled : r.failure.map (·.kind) = some .cancelled → c.cancelled = true

/-- A warranted result of a journey is faithful. -/
theorem Journey.faithful {p : Process ActionResult} {r : ActionResult} {c c' : RunContext} {ds : List Deed}
    (h_journey : Journey ⟨p, c, false⟩ ds ⟨.done r, c', false⟩)
    (h : p.Knowing ActionResult.Warranted false) : Faithful r c' := by
  obtain ⟨found, h_r, h_found⟩ := h_journey.knowing h
  refine ⟨?_, ?_, fun h_kind => h_found (h_r h_kind)⟩
  · cases h_failure : r.failure <;> simp [ActionResult.success, h_failure]
  · cases h_failure : r.failure <;> simp [ActionResult.success, h_failure]

def startedTask : List QueueOp := [.enqueue (Ledger.plainTask "a"), .dequeue ⟨0, 0⟩]

/-- A queue that was asked for the end of the task that it has started. -/
def withdrawnTask : List QueueOp := startedTask ++ [.cancel "a" ⟨1, 0⟩]

end Going

end ScriptYard
