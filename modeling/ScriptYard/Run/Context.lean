import ScriptYard.Run.Process

/-!
# Runs in time

A run keeps a `RunContext`: its variables, whether it is cancelled, and when it last made progress.
`Process.settle` carries a process on through everything that takes no time, up to its end or to a
point where it waits.

What is around a run is a `World`: it says when and how calls are answered, how long sleep lasts,
and when cancellations arrive. `Process.play` carries a process to its end in a world. Times are
moments on a clock that counts milliseconds; a sleep ends on a whole one.
-/

namespace ScriptYard

/-- A point on the clock of runs, in milliseconds since its start. -/
abbrev Moment : Type := Nat

/-- What a run keeps while it goes on. -/
structure RunContext where
  vars : Variables := []
  /-- Whether the run is cancelled. -/
  cancelled : Bool := false
  /-- When the run last made progress; at first, when it was created. -/
  lastActivity : Moment := 0
deriving DecidableEq, Repr, Inhabited

namespace RunContext

def cancel (c : RunContext) : RunContext := { c with cancelled := true }

/-- The time since the last progress. -/
def idle (c : RunContext) (now : Moment) : Span := .ofMillis (now - c.lastActivity)

end RunContext

namespace Process

variable {α : Type}

/-- Carries a process on, at a moment, through all that takes no time. The process that is left is
at its end, at a call, or at a sleep that nothing has ended yet. -/
def settle (now : Moment) : Process α → RunContext → Process α × RunContext
  | .done a, c => (.done a, c)
  | .poll k, c => settle now (k c.cancelled) c
  | .cancel k, c => settle now k c.cancel
  | .touch k, c => settle now k { c with lastActivity := now }
  | .look k, c => settle now (k c.vars) c
  | .assign name value k, c => settle now k { c with vars := Fields.insert c.vars name value }
  | .call r k, c => (.call r k, c)
  -- a sleep of a cancelled run ends before it begins
  | .sleep time k, c => if c.cancelled then settle now (k false) c else (.sleep time k, c)

end Process

/-! ### Worlds -/

/-- How a call comes back. -/
structure Return (r : Request) where
  /-- When it does. -/
  moment : Moment
  /-- Whether the run has been cancelled meanwhile. -/
  cancelled : Bool
  reply : r.Reply

/-- How a sleep ends. -/
structure Waking where
  /-- When it does. -/
  moment : Moment
  /-- Whether a cancellation ended it. -/
  cancelled : Bool
deriving DecidableEq, Repr

/-- What is around a run, in states `σ`. -/
structure World (σ : Type) where
  /-- Answers a call that is made at a moment. -/
  call : σ → Moment → (r : Request) → Return r × σ
  /-- Ends a sleep that begins at a moment. -/
  sleep : σ → Moment → Span → Waking × σ

/-- A run in a world: the clock, what the run keeps, and the state of the world. -/
structure Stage (σ : Type) where
  /-- The clock. -/
  now : Moment
  /-- What the run keeps. -/
  context : RunContext
  /-- The state of the world. -/
  world : σ

namespace Stage

variable {σ : Type}

/-- The stage after a change of what the run keeps. -/
def update (s : Stage σ) (f : RunContext → RunContext) : Stage σ := { s with context := f s.context }

/-- The stage at a later moment, with the run cancelled meanwhile or not. -/
def advance (s : Stage σ) (moment : Moment) (cancelled : Bool) (world : σ) : Stage σ :=
  ⟨moment, if cancelled then s.context.cancel else s.context, world⟩

end Stage

/-- Carries a process to its end in a world. -/
def Process.play {α σ : Type} (w : World σ) : Process α → Stage σ → α × Stage σ
  | .done a, s => (a, s)
  | .poll k, s => play w (k s.context.cancelled) s
  | .cancel k, s => play w k (s.update .cancel)
  | .touch k, s => play w k (s.update fun c => { c with lastActivity := s.now })
  | .look k, s => play w (k s.context.vars) s
  | .assign name value k, s =>
    play w k (s.update fun c => { c with vars := Fields.insert c.vars name value })
  | .call r k, s =>
    let (back, world) := w.call s.world s.now r
    play w (k back.reply) (s.advance back.moment back.cancelled world)
  | .sleep time k, s =>
    -- as in `settle`, a cancelled run does not sleep
    if s.context.cancelled then play w (k false) s
    else
      let (back, world) := w.sleep s.world s.now time
      play w (k (!back.cancelled)) (s.advance back.moment back.cancelled world)

end ScriptYard
