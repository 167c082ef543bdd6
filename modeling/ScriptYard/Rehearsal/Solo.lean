import ScriptYard.Rehearsal.Script
import ScriptYard.Run.Live

/-!
# Rehearsals of one run

In a rehearsal of a single run a reply that cancels cancels that run, and so may somebody from
outside at a moment that is set beforehand. Such a cancellation wakes the run from its sleep at
once; a call goes on to its reply, which finds the run cancelled. Of two things at one moment the
cancellation comes first.
-/

namespace ScriptYard

/-- A rehearsal of one run. -/
structure SoloRehearsal where
  /-- The capabilities and services, and the log. -/
  rehearsal : Rehearsal := {}
  /-- When the run is cancelled from outside. -/
  cancelAt : Option Moment := none
deriving Inhabited

namespace SoloRehearsal

/-- The moment of the cancellation from outside, if it comes up to a moment. -/
def cancelledBy (s : SoloRehearsal) (moment : Moment) : Option Moment := s.cancelAt.filter (· ≤ moment)

/-- What is around a run that is rehearsed alone. -/
def world : World SoloRehearsal where
  call s now r :=
    let (next, rehearsal) := s.rehearsal.begin now r
    let moment := now + next.delay
    (⟨moment, next.cancels || (s.cancelledBy moment).isSome, next.outcome⟩, { s with rehearsal := rehearsal })
  sleep s now time :=
    let moment := now + time.millisUp
    match s.cancelledBy moment with
    | some c => (⟨max c now, true⟩, s)
    | none => (⟨moment, false⟩, s)

/-- Rehearses one action. -/
def executeAction (a : Action) (s : Stage SoloRehearsal) : ActionResult × Stage SoloRehearsal :=
  a.execute.play world s

/-- Rehearses a sequence of actions. -/
def executeSequence (as : List Action) (s : Stage SoloRehearsal) : ActionResult × Stage SoloRehearsal :=
  (Action.executeAll as (.ok .null)).play world s

/-- Rehearses the run of actions, from a stage on. The answer is its report. -/
def rehearse (info : RunInfo) (actions : List Action) (s : Stage SoloRehearsal) : RunReport × Stage SoloRehearsal :=
  let startedAt := info.createdAt.after (.ofMillis s.now)
  let (result, s) := (runActions actions 0 .null).play world s
  (info.report s.context result startedAt (info.createdAt.after (.ofMillis s.now)), s)

end SoloRehearsal

end ScriptYard
