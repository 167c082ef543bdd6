import Mathlib.Data.Nat.Notation
import ScriptYard.Run.Interpreter

/-!
# What the pieces of a script have, the whole has

Many properties of processes are kept by sequencing and say nothing about looks at the cancellation, about
pauses or about progress: which variables are set, which are looked at. Such a property is `Compositional`.
An action has it at every depth if the pieces of all actions in its tree have it (`Compositional.execute`),
the piece of an action being what it does apart from the sequences that it holds (`Action.Piece`); and so do
sequences of actions (`Compositional.executeAll`) and whole scripts (`Compositional.runActions`).
-/

namespace ScriptYard

/-- A property of processes, whatever they end with, that two processes in a row have if both have it. The
processes that only look at the cancellation, cancel the run, note progress or sleep have it. -/
structure Process.Compositional (P : ∀ {α : Type}, Process α → Prop) : Prop where
  /-- Nothing is left to do. -/
  done {α : Type} (a : α) : P (.done a)
  /-- One process, then another. -/
  bind {α β : Type} {p : Process α} {f : α → Process β} (h : P p) (h_f : ∀ a, P (f a)) : P (p.bind f)
  /-- A look at the cancellation. -/
  isCancelled : P isCancelled
  /-- A cancellation. -/
  cancelRun : P cancelRun
  noteProgress : P noteProgress
  sleep (time : Span) : P (.sleep time .done)

/-- What an action does by itself, apart from the sequences in it, has a property. -/
def Action.Piece (P : ∀ {α : Type}, Process α → Prop) : Action → Prop
  | .call c _ => P (executeCall c)
  | .condition check .. => P (evaluate check)
  | .templateMatch s _ => P (executeSearch s)
  | .readText t _ => P (executeReading t)
  | .setVariable name value _ => P (executeAssignment name value)
  | .loop .. | .wait .. | .restart _ | .unsupported _ => True

namespace Process.Compositional

variable {P : ∀ {α : Type}, Process α → Prop}

/-- A choice by what was found. -/
theorem choose {α : Type} {p q : Process α} (c : Prop) [Decidable c] (h_p : P p) (h_q : P q) :
    P (if c then p else q) := by
  split
  · exact h_p
  · exact h_q

variable (h : Compositional P)

include h

theorem pause (time : Span) : P (Process.pause time) := by
  unfold Process.pause
  refine choose _ ?_ (h.sleep time)
  exact h.bind h.isCancelled fun cancelled => h.done (!cancelled)

theorem executeWait (time : Span) : P (executeWait time) :=
  h.bind (h.pause time) fun _ => choose _ (h.done _) (h.done _)

theorem guarded (isLeaf : Bool) {body : Process ActionResult} (h_body : P body) :
    P (guarded isLeaf body) := by
  refine h.bind h.isCancelled fun _ => choose _ (h.done _) ?_
  refine h.bind h_body fun r => ?_
  exact choose _ (h.bind h.noteProgress fun _ => h.done r) (h.done r)

theorem runLoop (interval : Span) {pass : Process PassEnd} (h_pass : P pass) (remaining made : ℕ) :
    P (runLoop interval pass remaining made) := by
  induction remaining generalizing made with
  | zero => exact h.done _
  | succ remaining ih =>
    refine h.bind h.isCancelled fun _ => choose _ (h.done _) ?_
    refine h.bind h_pass fun passEnd => ?_
    cases passEnd with
    | failed | broken | cancelled => exact h.done _
    | finished =>
      -- after the last pass there is no pause
      refine choose _ (h.done _) ?_
      exact h.bind (h.pause interval) fun _ => choose _ (ih (made + 1)) (h.done _)

mutual

/-- **Actions.** -/
theorem execute (a : Action) (h_pieces : ∀ b ∈ a.walk, b.Piece P) : P a.execute := by
  have h_own : a.Piece P := h_pieces a (a.mem_walk_self)
  match a with
  | .call c _ => exact h.guarded true h_own
  | .condition check onTrue onFalse brk d =>
    have h_true : P (Action.executeAll onTrue (.ok .null)) := executeAll onTrue _ fun b h_b =>
      h_pieces b (List.mem_cons_of_mem _ (List.mem_append_left _ h_b))
    have h_false : P (Action.executeAll onFalse (.ok .null)) := executeAll onFalse _ fun b h_b =>
      h_pieces b (List.mem_cons_of_mem _ (List.mem_append_right _ h_b))
    -- both branches have the property, so it does not matter which one is taken
    refine h.guarded false (h.bind h_own fun answer => ?_)
    cases answer with
    | error e => exact h.done _
    | ok outcome =>
      cases outcome with
      | true => exact h.bind h_true fun r => choose _ (h.done _) (h.done r)
      | false => exact h.bind h_false fun r => choose _ (h.done _) (h.done r)
  | .loop interval n body d =>
    have h_body : P (Action.executePass body) := executePass body fun b h_b =>
      h_pieces b (List.mem_cons_of_mem _ h_b)
    exact h.guarded false (h.runLoop _ h_body n 0)
  | .templateMatch s _ => exact h.guarded true h_own
  | .readText t _ => exact h.guarded true h_own
  | .wait duration _ => exact h.guarded true (h.executeWait _)
  | .setVariable name value _ => exact h.guarded true h_own
  | .restart _ => exact h.guarded true (h.bind h.cancelRun fun _ => h.done _)
  | .unsupported kind => exact h.guarded true (h.done _)

/-- **Sequences of actions.** -/
theorem executeAll (actions : List Action) (last : ActionResult)
    (h_pieces : ∀ b ∈ Action.walkList actions, b.Piece P) : P (Action.executeAll actions last) := by
  match actions with
  | [] => exact h.done last
  | a :: rest =>
    have h_a : P a.execute := execute a fun b h_b => h_pieces b (List.mem_append_left _ h_b)
    refine h.bind h.isCancelled fun _ => choose _ (h.done _) (h.bind h_a fun r => choose _ ?_ (h.done r))
    exact executeAll rest r fun b h_b => h_pieces b (List.mem_append_right _ h_b)

/-- **Passes of loops.** -/
theorem executePass (actions : List Action) (h_pieces : ∀ b ∈ Action.walkList actions, b.Piece P) :
    P (Action.executePass actions) := by
  match actions with
  | [] => exact h.done _
  | a :: rest =>
    have h_a : P a.execute := execute a fun b h_b => h_pieces b (List.mem_append_left _ h_b)
    have h_rest : P (Action.executePass rest) := executePass rest fun b h_b =>
      h_pieces b (List.mem_append_right _ h_b)
    refine h.bind h.isCancelled fun _ => choose _ (h.done _) (h.bind h_a fun r => choose _ ?_ (h.done _))
    exact h.bind h.noteProgress fun _ => choose _ (h.done _) h_rest

end

/-- **Whole scripts.** -/
theorem runActions (actions : List Action) (executed : ℕ) (result : Value)
    (h_pieces : ∀ b ∈ Action.walkList actions, b.Piece P) : P (runActions actions executed result) := by
  induction actions generalizing executed result with
  | nil => exact h.done _
  | cons a rest ih =>
    have h_a : P a.execute := h.execute a fun b h_b => h_pieces b (List.mem_append_left _ h_b)
    refine h.bind h.isCancelled fun _ => choose _ (h.done _) (h.bind h_a fun r => ?_)
    refine h.bind h.isCancelled fun _ => choose _ (h.done _) ?_
    cases r.failure with
    | some f => exact h.done _
    | none => exact ih _ _ fun b h_b => h_pieces b (List.mem_append_right _ h_b)

end Process.Compositional

end ScriptYard
