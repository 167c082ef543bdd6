import Mathlib.Data.Nat.Notation
import ScriptYard.Run.Context
import ScriptYard.Run.Interpreter

/-!
# Calls are guarded

A process is `Guarded` if every call in it stands right behind a look at the cancellation that found
none; between the two it only looks at variables. `guarded_runActions` says so of everything that the
actions of a script do, at every depth and for every reply: it is the look before each action that
guards the call of the action.

A run that is interleaved with others goes on in smaller steps than `Process.settle` makes.
`Process.advance` is one of them. A look at the cancellation and the looks at variables that follow it
are one step, so that nothing can come between the cancellation check and the call that it guards;
everything else is a step of its own. A process between two steps is `Steady`: it waits for the reply to
a call, or it will look at the cancellation before it makes one. Steps keep processes steady
(`Process.Steady.advance`), and a step of a cancelled run does not arrive at a call
(`Process.Steady.advance_quiet`). Many steps of this kind are `Process.settle` (`Process.settle_advances`).
-/

namespace ScriptYard

namespace Process

variable {α β : Type}

/-- Every call stands right behind a look at the cancellation that found none. `checked` tells whether
such a look has just been made. -/
def Guarded : (checked : Bool) → Process α → Prop
  | _, .done _ => True
  | _, .poll k => Guarded false (k true) ∧ Guarded true (k false)
  | _, .cancel k => Guarded false k
  | _, .touch k => Guarded false k
  | checked, .look k => ∀ vars, Guarded checked (k vars)
  | _, .assign _ _ k => Guarded false k
  | checked, .call _ k => checked = true ∧ ∀ reply, Guarded false (k reply)
  | _, .sleep _ k => ∀ passed, Guarded false (k passed)

namespace Guarded

theorem mono {p : Process α} (h : p.Guarded false) (checked : Bool) : p.Guarded checked := by
  induction p with
  | done | poll | cancel | touch | assign | sleep => exact h
  | look k ih => exact fun vars => ih vars (h vars)
  | call r k ih => exact absurd h.1 Bool.false_ne_true

/-- Two guarded processes in a row; the second has to look for itself. -/
theorem bind {p : Process α} {f : α → Process β} {checked : Bool} (h : p.Guarded checked)
    (h_f : ∀ a, (f a).Guarded false) : (p.bind f).Guarded checked := by
  induction p generalizing checked with
  | done a => exact (h_f a).mono checked
  | poll k ih => exact ⟨ih true h.1, ih false h.2⟩
  | cancel k ih => exact ih h
  | touch k ih => exact ih h
  | look k ih => exact fun vars => ih vars (h vars)
  | assign name value k ih => exact ih h
  | call r k ih => exact ⟨h.1, fun reply => ih reply (h.2 reply)⟩
  | sleep time k ih => exact fun passed => ih passed (h passed)

theorem poll {k : Bool → Process α} {checked : Bool} (h_on : (k true).Guarded false)
    (h_off : (k false).Guarded true) : (Process.poll k).Guarded checked := ⟨h_on, h_off⟩

end Guarded

end Process

open Process

/-! ### Pieces of actions -/

theorem guarded_storeResult (name : Option String) (v : Value) (checked : Bool) :
    (storeResult name v).Guarded checked := by
  cases name <;> trivial

theorem guarded_bindPlace (fields : Fields Value) (checked : Bool) :
    (bindPlace fields).Guarded checked := by
  unfold bindPlace
  split <;> trivial

theorem guarded_bindScreenshot (fields : Fields Value) (checked : Bool) :
    (bindScreenshot fields).Guarded checked := by
  unfold bindScreenshot
  split <;> trivial

theorem guarded_bindMatch (m : TemplateMatch) (checked : Bool) : (bindMatch m).Guarded checked := by
  trivial

theorem guarded_bindResult (name : Option String) (v : Value) (checked : Bool) :
    (bindResult name v).Guarded checked := by
  refine (guarded_storeResult name v checked).bind fun _ => ?_
  split
  · exact (guarded_bindPlace _ false).bind fun _ => guarded_bindScreenshot _ false
  · trivial

theorem guarded_executeCall (c : CapabilityCall) : (executeCall c).Guarded true := by
  intro vars
  refine ⟨rfl, fun reply => ?_⟩
  cases reply with
  | ok v => exact (guarded_bindResult c.storeResult v false).bind fun _ => trivial
  | error e => trivial

theorem guarded_evaluate (check : Check) : (evaluate check).Guarded true := by
  cases check with
  | templateMatch path threshold image =>
    intro vars
    simp only [Process.bind]
    split
    · trivial
    · -- the call is made right behind the look of the guard
      refine ⟨rfl, fun reply => ?_⟩
      cases reply with
      | ok m =>
        simp only [Process.bind]
        split
        · exact (guarded_bindMatch m false).bind fun _ => trivial
        · trivial
      | error e => trivial
  | variableCompare name op value => exact fun vars => trivial

theorem guarded_executeSearch (s : TemplateSearch) : (executeSearch s).Guarded true := by
  intro vars
  simp only [Process.bind]
  split
  · refine ⟨rfl, fun reply => ?_⟩
    cases reply with
    | ok m =>
      refine (guarded_storeResult s.storeResult m.toValue false).bind fun _ => ?_
      split
      · exact (guarded_bindMatch m false).bind fun _ => trivial
      · trivial
    | error e => trivial
  · trivial

theorem guarded_executeReading (t : TextReading) : (executeReading t).Guarded true := by
  intro vars
  simp only [Process.bind]
  split
  · refine ⟨rfl, fun reply => ?_⟩
    cases reply with
    | ok text => exact (guarded_storeResult t.storeResult (.string text) false).bind fun _ => trivial
    | error e => trivial
  · trivial

theorem guarded_pause (time : Span) (checked : Bool) : (Process.pause time).Guarded checked := by
  unfold Process.pause
  split
  · exact ⟨trivial, trivial⟩
  · exact fun _ => trivial

theorem guarded_executeWait (time : Span) (checked : Bool) : (executeWait time).Guarded checked := by
  refine (guarded_pause time checked).bind fun passed => ?_
  cases passed <;> trivial

theorem guarded_executeAssignment (name : String) (value : Value) (checked : Bool) :
    (executeAssignment name value).Guarded checked := by
  unfold executeAssignment
  split
  · trivial
  · exact fun vars => trivial

/-- The look before an action guards its calls. -/
theorem guarded_guarded (isLeaf : Bool) {body : Process ActionResult} (h : body.Guarded true)
    (checked : Bool) : (guarded isLeaf body).Guarded checked := by
  refine Guarded.poll trivial (h.bind fun r => ?_)
  split <;> trivial

/-! ### Actions and scripts -/

theorem guarded_runLoop (interval : Span) {pass : Process PassEnd} (h : pass.Guarded false)
    (remaining made : Nat) (checked : Bool) : (runLoop interval pass remaining made).Guarded checked := by
  induction remaining generalizing made checked with
  | zero => trivial
  | succ remaining ih =>
    -- each pass is entered behind a look of its own
    refine Guarded.poll trivial ((h.mono true).bind fun passEnd => ?_)
    cases passEnd with
    | failed r => trivial
    | broken => trivial
    | cancelled => trivial
    | finished =>
      simp only
      split
      · trivial
      · refine (guarded_pause interval false).bind fun passed => ?_
        cases passed with
        | false => trivial
        | true => exact ih (made + 1) false

namespace Action

mutual

theorem guarded_execute (a : Action) : a.execute.Guarded false := by
  match a with
  | .call c _ => exact guarded_guarded true (guarded_executeCall c) false
  | .condition check onTrue onFalse _ _ =>
    refine guarded_guarded false ((guarded_evaluate check).bind fun answer => ?_) false
    cases answer with
    | error e => trivial
    | ok outcome =>
      -- the branch that is taken looks for itself before it does anything
      cases outcome with
      | true =>
        refine (guarded_executeAll onTrue _).bind fun r => ?_
        simp only
        split <;> trivial
      | false =>
        refine (guarded_executeAll onFalse _).bind fun r => ?_
        simp only
        split <;> trivial
  | .loop interval n body _ =>
    exact guarded_guarded false (guarded_runLoop _ (guarded_executePass body) n 0 true) false
  | .templateMatch s _ => exact guarded_guarded true (guarded_executeSearch s) false
  | .readText t _ => exact guarded_guarded true (guarded_executeReading t) false
  | .wait duration _ => exact guarded_guarded true (guarded_executeWait _ true) false
  | .setVariable name value _ => exact guarded_guarded true (guarded_executeAssignment name value true) false
  | .restart _ => exact guarded_guarded true (show executeRestart.Guarded true from trivial) false
  | .unsupported kind => exact guarded_guarded true (show (Process.done _).Guarded true from trivial) false

theorem guarded_executeAll (actions : List Action) (last : ActionResult) :
    (executeAll actions last).Guarded false := by
  match actions with
  | [] => trivial
  | a :: rest =>
    refine Guarded.poll trivial (((guarded_execute a).mono true).bind fun r => ?_)
    split
    · exact guarded_executeAll rest r
    · trivial

theorem guarded_executePass (actions : List Action) : (executePass actions).Guarded false := by
  match actions with
  | [] => trivial
  | a :: rest =>
    refine Guarded.poll trivial (((guarded_execute a).mono true).bind fun r => ?_)
    split
    · refine Guarded.bind (p := noteProgress) trivial fun _ => ?_
      split
      · trivial
      · exact guarded_executePass rest
    · trivial

end

end Action

/-- **All calls of a script are guarded**, whatever its actions. -/
theorem guarded_runActions (actions : List Action) (executed : Nat) (result : Value) :
    (runActions actions executed result).Guarded false := by
  induction actions generalizing executed result with
  | nil => trivial
  | cons a rest ih =>
    refine Guarded.poll trivial ((a.guarded_execute.mono true).bind fun r => Guarded.poll trivial ?_)
    simp only [Process.bind]
    cases r.failure with
    | some f => trivial
    | none => exact (ih (executed + 1) r.data).mono true

/-! ### Small steps -/

namespace Process

/-- What is left of a process when it has looked at the variables as often as it can at once. -/
def seen (vars : Variables) : Process α → Process α
  | .look k => seen vars (k vars)
  | p => p

/-- One step of a process that does not wait. A look at the cancellation takes the looks at variables
behind it along. -/
def advance (now : Moment) (c : RunContext) : Process α → Option (Process α × RunContext)
  | .done _ | .call _ _ => none
  | .poll k => some ((k c.cancelled).seen c.vars, c)
  | .cancel k => some (k, c.cancel)
  | .touch k => some (k, { c with lastActivity := now })
  | .look k => some (k c.vars, c)
  | .assign name value k => some (k, { c with vars := Fields.insert c.vars name value })
  | .sleep _ k => if c.cancelled then some (k false, c) else none

/-- The reply to the call for which a process waits. -/
def reply (answer : (r : Request) → r.Reply) : Process α → Option (Process α)
  | .call r k => some (k (answer r))
  | _ => none

/-- The end of the time for which a process sleeps. -/
def wake : Process α → Option (Process α)
  | .sleep _ k => some (k true)
  | _ => none

/-- The call that a process has made and whose reply it waits for. -/
def call? : Process α → Option Request
  | .call r _ => some r
  | _ => none

/-- The process waits for the reply to a call, or makes none before it has looked at the
cancellation. -/
def Steady : Process α → Prop
  | .call _ k => ∀ reply, (k reply).Guarded false
  | p => p.Guarded false

variable {p p' : Process α} {now : Moment} {c c' : RunContext}

theorem Guarded.steady (h : p.Guarded false) : p.Steady := by
  cases p with
  | call r k => exact h.2
  | _ => exact h

theorem Guarded.call?_eq_none (h : p.Guarded false) : p.call? = none := by
  cases p with
  | call r k => exact absurd h.1 Bool.false_ne_true
  | _ => rfl

theorem Guarded.seen {checked : Bool} (h : p.Guarded checked) (vars : Variables) :
    (p.seen vars).Guarded checked := by
  induction p with
  | look k ih => exact ih vars (h vars)
  | _ => exact h

theorem Guarded.steady_seen (h : p.Guarded true) (vars : Variables) : (p.seen vars).Steady := by
  induction p with
  | look k ih => exact ih vars (h vars)
  | call r k => exact h.2
  | _ => exact h

namespace Steady

theorem advance (h : p.Steady) (h_step : p.advance now c = some (p', c')) : p'.Steady := by
  cases p with
  | done | call => cases h_step
  | poll k =>
    obtain ⟨rfl, rfl⟩ := Prod.mk.inj (Option.some.inj h_step)
    -- behind a look that found nothing, the looks at variables may lead up to a call
    cases c.cancelled with
    | true => exact (h.1.seen _).steady
    | false => exact h.2.steady_seen _
  | look k =>
    obtain ⟨rfl, rfl⟩ := Prod.mk.inj (Option.some.inj h_step)
    exact (h c.vars).steady
  | sleep time k =>
    simp only [Process.advance] at h_step
    split at h_step
    · obtain ⟨rfl, rfl⟩ := Prod.mk.inj (Option.some.inj h_step)
      exact (h false).steady
    · cases h_step
  | cancel k | touch k | assign name value k =>
    obtain ⟨rfl, rfl⟩ := Prod.mk.inj (Option.some.inj h_step)
    exact Guarded.steady (p := k) h

/-- A step of a cancelled run does not arrive at a call. -/
theorem advance_quiet (h : p.Steady) (h_step : p.advance now c = some (p', c'))
    (h_cancelled : c.cancelled = true) : p'.call? = none := by
  cases p with
  | done | call => cases h_step
  -- the look finds the cancellation, and behind it there is no call
  | poll k =>
    obtain ⟨rfl, rfl⟩ := Prod.mk.inj (Option.some.inj h_step)
    rw [h_cancelled]
    exact (h.1.seen _).call?_eq_none
  | look k =>
    obtain ⟨rfl, rfl⟩ := Prod.mk.inj (Option.some.inj h_step)
    exact (h c.vars).call?_eq_none
  -- a sleep that is not slept out is followed by a look
  | sleep time k =>
    simp only [Process.advance, h_cancelled, if_true] at h_step
    obtain ⟨rfl, rfl⟩ := Prod.mk.inj (Option.some.inj h_step)
    exact (h false).call?_eq_none
  | cancel k | touch k | assign name value k =>
    obtain ⟨rfl, rfl⟩ := Prod.mk.inj (Option.some.inj h_step)
    exact Guarded.call?_eq_none (p := k) h

/-- What follows a reply looks for itself. -/
theorem reply (h : p.Steady) {answer : (r : Request) → r.Reply} (h_step : p.reply answer = some p') :
    p'.Guarded false := by
  cases p with
  | call r k =>
    cases h_step
    exact h (answer r)
  | _ => cases h_step

/-- What follows a sleep looks for itself. -/
theorem wake (h : p.Steady) (h_step : p.wake = some p') : p'.Guarded false := by
  cases p with
  | sleep time k =>
    cases h_step
    exact h true
  | _ => cases h_step

end Steady

/-- No step takes a cancellation back. -/
theorem advance_cancelled (h_step : p.advance now c = some (p', c')) (h : c.cancelled = true) :
    c'.cancelled = true := by
  cases p with
  | done | call => cases h_step
  | sleep time k =>
    simp only [Process.advance, h, if_true] at h_step
    obtain ⟨rfl, rfl⟩ := Prod.mk.inj (Option.some.inj h_step)
    exact h
  | cancel k =>
    obtain ⟨rfl, rfl⟩ := Prod.mk.inj (Option.some.inj h_step)
    rfl
  | poll k | look k | touch k | assign name value k =>
    obtain ⟨rfl, rfl⟩ := Prod.mk.inj (Option.some.inj h_step)
    exact h

/-- At most so many steps in a row. -/
def advances (now : Moment) : ℕ → Process α × RunContext → Process α × RunContext
  | 0, s => s
  | n + 1, s => match s.1.advance now s.2 with
    | some s' => advances now n s'
    | none => s

/-- A process settles in small steps, also if it starts with what it has seen already. -/
theorem settle_advances (now : Moment) (p : Process α) (c : RunContext) :
    (∃ n, advances now n (p, c) = p.settle now c) ∧
      ∃ n, advances now n (p.seen c.vars, c) = p.settle now c := by
  induction p generalizing c with
  | done a => exact ⟨⟨0, rfl⟩, ⟨0, rfl⟩⟩
  | call r k ih => exact ⟨⟨0, rfl⟩, ⟨0, rfl⟩⟩
  | look k ih =>
    obtain ⟨⟨n, h_n⟩, h_seen⟩ := ih c.vars c
    exact ⟨⟨n + 1, h_n⟩, h_seen⟩
  | poll k ih =>
    obtain ⟨-, n, h_n⟩ := ih c.cancelled c
    exact ⟨⟨n + 1, h_n⟩, ⟨n + 1, h_n⟩⟩
  | cancel k ih =>
    obtain ⟨⟨n, h_n⟩, -⟩ := ih c.cancel
    exact ⟨⟨n + 1, h_n⟩, ⟨n + 1, h_n⟩⟩
  | touch k ih =>
    obtain ⟨⟨n, h_n⟩, -⟩ := ih { c with lastActivity := now }
    exact ⟨⟨n + 1, h_n⟩, ⟨n + 1, h_n⟩⟩
  | assign name value k ih =>
    obtain ⟨⟨n, h_n⟩, -⟩ := ih { c with vars := Fields.insert c.vars name value }
    exact ⟨⟨n + 1, h_n⟩, ⟨n + 1, h_n⟩⟩
  | sleep time k ih =>
    suffices h : ∃ n, advances now n (.sleep time k, c) = (Process.sleep time k).settle now c from ⟨h, h⟩
    -- a cancelled run does not sleep, and any other one waits here
    by_cases h_cancelled : c.cancelled = true
    · obtain ⟨⟨n, h_n⟩, -⟩ := ih false c
      refine ⟨n + 1, ?_⟩
      simp only [advances, Process.advance, settle, h_cancelled, if_true]
      exact h_n
    · refine ⟨0, ?_⟩
      simp only [advances, settle, h_cancelled, if_false, Bool.false_eq_true]

end Process

end ScriptYard
