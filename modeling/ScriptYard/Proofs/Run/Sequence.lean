import Mathlib.Data.Nat.Notation
import ScriptYard.Run.Context
import ScriptYard.Run.Interpreter
import ScriptYard.Proofs.Run.Cancellation
import ScriptYard.Proofs.Run.Endings
import ScriptYard.Run.Live

/-!
# Sequences and whole scripts

The actions of a script and the actions inside another action are carried out by two different loops:
`runActions` looks at the cancellation before and behind every action and keeps the last result and a
count, `Action.executeAll` looks before every action only. Played from the same stage of the same world
they do the same: `runActions_agrees_with_executeAll`. What the longer look finds at the end decides how
the run is reported; apart from that its report says what the shorter loop gives.

A world cancels a run only while the run waits. To let it do so at other moments too, a process can be
`Process.exposed`: behind each of its steps that take no time there is a moment that belongs to the world.
The two loops agree there as well, since nothing happens between the looks that only one of them makes.
-/

namespace ScriptYard

namespace Process

variable {α β σ : Type}

/-- **Plays in a row.** The second process is played from the stage on which the first one ends. -/
theorem play_bind (w : World σ) (p : Process α) (f : α → Process β) (s : Stage σ) :
    (p.bind f).play w s = (f (p.play w s).1).play w (p.play w s).2 := by
  induction p generalizing s with
  | done a => rfl
  | poll k ih => exact ih _ s
  | cancel k ih | touch k ih | assign name value k ih => exact ih _
  | look k ih => exact ih _ s
  | call r k ih => exact ih _ _
  | sleep time k ih =>
    simp only [Process.bind, Process.play]
    split
    · exact ih false s
    · exact ih _ _

/-! ### Cancellations at any moment -/

/-- The process with a moment behind each of its steps that take no time, in which the world may cancel
the run. -/
def exposed : Process α → Process α
  | .done a => .done a
  | .poll k => .poll fun b => (k b).exposed
  | .cancel k => .cancel (.sleep .zero fun _ => k.exposed)
  | .touch k => .touch (.sleep .zero fun _ => k.exposed)
  | .look k => .look fun vars => .sleep .zero fun _ => (k vars).exposed
  | .assign name value k => .assign name value (.sleep .zero fun _ => k.exposed)
  | .call r k => .call r fun reply => .sleep .zero fun _ => (k reply).exposed
  | .sleep time k => .sleep time fun passed => .sleep .zero fun _ => (k passed).exposed

theorem exposed_bind (p : Process α) (f : α → Process β) :
    (p.bind f).exposed = p.exposed.bind fun a => (f a).exposed := by
  induction p with
  | done a => rfl
  | poll k ih | look k ih | call r k ih | sleep time k ih => simp only [Process.bind, exposed, ih]
  | cancel k ih | touch k ih | assign name value k ih => simp only [Process.bind, exposed, ih]

/-- The process, or the process as it is when it is `exposed`. -/
def paced (everywhere : Bool) (p : Process α) : Process α := if everywhere then p.exposed else p

variable (everywhere : Bool) (w : World σ) (s : Stage σ)

theorem play_paced_done (a : α) : ((done a).paced everywhere).play w s = (a, s) := by
  cases everywhere <;> rfl

theorem play_paced_poll (k : Bool → Process α) :
    ((poll k).paced everywhere).play w s = ((k s.context.cancelled).paced everywhere).play w s := by
  cases everywhere <;> rfl

theorem play_paced_bind (p : Process α) (f : α → Process β) :
    ((p.bind f).paced everywhere).play w s =
      ((f ((p.paced everywhere).play w s).1).paced everywhere).play w ((p.paced everywhere).play w s).2 := by
  have h_paced : (p.bind f).paced everywhere =
      (p.paced everywhere).bind fun a => (f a).paced everywhere := by
    cases everywhere with
    | false => rfl
    | true => exact exposed_bind p f
  rw [h_paced, play_bind]

end Process

/-- The world with a record of the calls that are made in it, and of when they are made. -/
def World.logging {σ : Type} (w : World σ) : World (σ × List (Moment × Request)) where
  call s now r :=
    let (back, world) := w.call s.1 now r
    (back, world, s.2 ++ [(now, r)])
  sleep s now time :=
    let (waking, world) := w.sleep s.1 now time
    (waking, world, s.2)

/-! ### The two loops -/

/-- What a sequence of actions does, with the number of actions that are executed on top of `made`. -/
def Action.executeCounted : List Action → (last : ActionResult) → (made : ℕ) → Process (ActionResult × ℕ)
  | [], last, made => .done (last, made)
  | a :: rest, _, made => .poll fun
    | true => .done (.cancelled, made)
    | false => a.execute.bind fun r =>
      if r.success then executeCounted rest r (made + 1) else .done (r, made + 1)

/-- Counting changes nothing. -/
theorem Action.map_executeCounted (actions : List Action) (last : ActionResult) (made : ℕ) :
    (executeCounted actions last made).map Prod.fst = executeAll actions last := by
  induction actions generalizing last made with
  | nil => rfl
  | cons a rest ih =>
    -- behind an action both go on, or both stop, with the count beside it
    have h_rest : ∀ r : ActionResult,
        (if r.success then executeCounted rest r (made + 1) else .done (r, made + 1)).map Prod.fst =
          if r.success then executeAll rest r else .done r := by
      intro r
      split
      · exact ih r (made + 1)
      · rfl
    refine congrArg Process.poll (funext fun cancelled => ?_)
    cases cancelled with
    | true => rfl
    | false =>
      show (a.execute.bind _).bind _ = a.execute.bind _
      rw [Process.bind_assoc]
      exact congrArg a.execute.bind (funext h_rest)

/-- How the play of a script ends when the play of its actions as a sequence ends with a result, behind a
number of actions: on the same stage, and as the sequence ended unless the run is cancelled there. -/
inductive Reflects {σ : Type} : (ActionResult × ℕ) × Stage σ → RunEnd × Stage σ → Prop where
  /-- The run is cancelled, whatever the sequence gives. -/
  | cancelled (r : ActionResult) (made : ℕ) (result : Value) (s : Stage σ) (h : s.context.cancelled = true) :
    Reflects ((r, made), s) (.cancelled made result, s)
  /-- The sequence fails. -/
  | failed (data : Value) (f : Failure) (made : ℕ) (result : Value) (s : Stage σ)
    (h : s.context.cancelled = false) :
    Reflects ((⟨data, some f⟩, made), s) (⟨.failed, made, result, some f⟩, s)
  /-- The sequence succeeds. -/
  | completed (data : Value) (made : ℕ) (s : Stage σ) (h : s.context.cancelled = false) :
    Reflects ((⟨data, none⟩, made), s) (⟨.completed, made, data, none⟩, s)

/-- What a run does behind an action that gave `r`. -/
def runBehind (rest : List Action) (executed : ℕ) (result : Value) (r : ActionResult) : Process RunEnd :=
  .poll fun
    | true => .done (.cancelled (executed + 1) result)
    | false => match r.failure with
      | some f => .done ⟨.failed, executed + 1, result, some f⟩
      | none => runActions rest (executed + 1) r.data

theorem runActions_nil (executed : ℕ) (result : Value) :
    runActions [] executed result = .done ⟨.completed, executed, result, none⟩ := rfl

theorem runActions_cons (a : Action) (rest : List Action) (executed : ℕ) (result : Value) :
    runActions (a :: rest) executed result = .poll fun
      | true => .done (.cancelled executed result)
      | false => a.execute.bind (runBehind rest executed result) := by
  refine congrArg Process.poll (funext fun cancelled => ?_)
  cases cancelled with
  | true => rfl
  | false =>
    refine congrArg a.execute.bind (funext fun r => congrArg Process.poll (funext fun cancelled => ?_))
    cases cancelled <;> rfl

section Loops

variable {σ : Type} (w : World σ) (everywhere : Bool)

/-- A sequence that is cancelled before it begins does nothing. -/
theorem play_executeCounted_of_cancelled (actions : List Action) (last : ActionResult) (made : ℕ)
    {s : Stage σ} (h : s.context.cancelled = true) :
    ∃ r, ((Action.executeCounted actions last made).paced everywhere).play w s = ((r, made), s) := by
  cases actions with
  | nil => exact ⟨last, Process.play_paced_done everywhere w s _⟩
  | cons a rest =>
    refine ⟨.cancelled, ?_⟩
    rw [Action.executeCounted, Process.play_paced_poll, h, Process.play_paced_done]

/-- The two loops, from the middle of a script on. Where nothing is left to do, the longer one has just
looked behind an action that succeeded. -/
theorem runActions_reflects (actions : List Action) (last : ActionResult) (made : ℕ) (s : Stage σ)
    (h_last : actions = [] → s.context.cancelled = false ∧ last.failure = none) :
    Reflects (((Action.executeCounted actions last made).paced everywhere).play w s)
      (((runActions actions made last.data).paced everywhere).play w s) := by
  induction actions generalizing last made s with
  | nil =>
    obtain ⟨data, failure⟩ := last
    obtain ⟨h_free, rfl⟩ := h_last rfl
    rw [Action.executeCounted, runActions_nil, Process.play_paced_done, Process.play_paced_done]
    exact .completed data made s h_free
  | cons a rest ih =>
    rw [Action.executeCounted, runActions_cons, Process.play_paced_poll, Process.play_paced_poll]
    -- both loops look before the action
    cases h_before : s.context.cancelled with
    | true =>
      rw [Process.play_paced_done, Process.play_paced_done]
      exact .cancelled _ made last.data s h_before
    | false =>
      obtain ⟨⟨r, s'⟩, h_action⟩ : ∃ e, (a.execute.paced everywhere).play w s = e := ⟨_, rfl⟩
      rw [Process.play_paced_bind, Process.play_paced_bind, h_action, runBehind, Process.play_paced_poll]
      -- only the longer one looks behind it
      cases h_behind : s'.context.cancelled with
      | true =>
        obtain ⟨r', h_sequence⟩ : ∃ r', ((if r.success then Action.executeCounted rest r (made + 1)
            else .done (r, made + 1)).paced everywhere).play w s' = ((r', made + 1), s') := by
          split
          · exact play_executeCounted_of_cancelled w everywhere rest r (made + 1) h_behind
          · exact ⟨r, Process.play_paced_done everywhere w s' _⟩
        rw [h_sequence, Process.play_paced_done]
        exact .cancelled r' (made + 1) last.data s' h_behind
      | false =>
        obtain ⟨data, - | f⟩ := r
        · exact ih ⟨data, none⟩ (made + 1) s' fun _ => ⟨h_behind, rfl⟩
        · have h_failed : (ActionResult.mk data (some f)).success = false := rfl
          rw [h_failed, if_neg Bool.false_ne_true, Process.play_paced_done,
            Process.play_paced_done]
          exact .failed data f (made + 1) last.data s' h_behind

/-- **The two loops agree.** The actions of a script, not none, are carried out twice from the same stage
of the same world, once as a sequence and once as a whole script. Both plays end on the same stage: the
same calls have been made in them, with the same parameters and at the same times, and the variables, the
cancellation and the clock are the same. The run is reported as

* completed if and only if the sequence succeeds and the run is not cancelled at the end, and then the
  result is what the sequence gave;
* failed if and only if the sequence fails and the run is not cancelled at the end, and then with the
  failure of the sequence;
* cancelled if and only if it is cancelled at the end.

In every case it counts the actions that the sequence executed. -/
theorem runActions_agrees_with_executeAll (actions : List Action) (nonempty : actions ≠ [])
    (s : Stage (σ × List (Moment × Request))) (i : RunInfo) (begun finished : Instant) :
    let sequence := ((Action.executeAll actions (.ok .null)).paced everywhere).play w.logging s
    let script := ((runActions actions 0 .null).paced everywhere).play w.logging s
    let report := i.report script.2.context script.1 begun finished
    script.2 = sequence.2 ∧
    (report.state = .completed ↔ sequence.1.success = true ∧ sequence.2.context.cancelled = false) ∧
    (report.state = .completed → report.result = sequence.1.data) ∧
    (report.state = .failed ↔ sequence.1.success = false ∧ sequence.2.context.cancelled = false) ∧
    (report.state = .failed →
      report.error = sequence.1.failure.map (·.error) ∧
      report.failureKind = sequence.1.failure.map (·.kind)) ∧
    (report.state = .cancelled ↔ sequence.2.context.cancelled = true) ∧
    ((Action.executeCounted actions (.ok .null) 0).paced everywhere).play w.logging s =
      ((sequence.1, report.actionsExecuted), sequence.2) := by
  intro sequence script report
  obtain ⟨counted, h_counted⟩ : ∃ e,
    ((Action.executeCounted actions (.ok .null) 0).paced everywhere).play w.logging s = e := ⟨_, rfl⟩
  -- the sequence is the counted one without its count
  have h_sequence : sequence = (counted.1.1, counted.2) := by
    show ((Action.executeAll actions (.ok .null)).paced everywhere).play w.logging s = _
    rw [← Action.map_executeCounted actions (.ok .null) 0, Process.map, Process.play_paced_bind, h_counted,
      Process.play_paced_done]
  have h_reflects : Reflects counted script := by
    rw [← h_counted]
    exact runActions_reflects w.logging everywhere actions (.ok .null) 0 s fun h => absurd h nonempty
  rw [h_sequence, h_counted]
  have h_report : report = i.report script.2.context script.1 begun finished := rfl
  -- the rest is about the two ends alone, one case for each way to end
  clear_value report script
  subst h_report
  cases h_reflects with
  | cancelled r made result s' h => simp [RunInfo.report, RunEnd.cancelled, h]
  | failed data f made result s' h => simp [RunInfo.report, ActionResult.success, h]
  | completed data made s' h => simp [RunInfo.report, ActionResult.success, h]

end Loops

/-- A script of one call. -/
def oneTap : List Action := [.call ⟨"device", "tap", [], none⟩ none]

/-- The run is cancelled during its last call, which succeeds. The sequence does not look again and
succeeds too; the run is reported as cancelled, with one action executed. -/
theorem success_under_cancellation :
    let start : Stage (Unit × List (Moment × Request)) := ⟨0, {}, (), []⟩
    let sequence := (Action.executeAll oneTap (.ok .null)).play Going.interruptingWorld.logging start
    let script := (runActions oneTap 0 .null).play Going.interruptingWorld.logging start
    let report := RunInfo.report default script.2.context script.1 (.ofMillis 0) (.ofMillis 0)
    oneTap ≠ [] ∧ sequence.1.success = true ∧ report.state = .cancelled ∧ report.actionsExecuted = 1 := by
  have h_nonempty : oneTap ≠ [] := List.cons_ne_nil _ _
  obtain ⟨-, -, -, -, -, h_cancelled, h_counted⟩ := runActions_agrees_with_executeAll
    Going.interruptingWorld false oneTap h_nonempty ⟨0, {}, (), []⟩ default (.ofMillis 0) (.ofMillis 0)
  have h_made := congrArg (fun e => e.1.2) h_counted
  exact ⟨h_nonempty, rfl, h_cancelled.mpr rfl, h_made.symm⟩

end ScriptYard
