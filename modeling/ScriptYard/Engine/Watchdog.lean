import ScriptYard.Run.Live

/-!
# Regular work and the watchdog

A `Ticker` tells the moments of work that is done at regular intervals: at once, and then whenever a
period has passed, on the first whole millisecond. The watchdog looks at such moments for runs that
have stalled and cancels them; what else is done for such a run is up to whoever hears of it.
-/

namespace ScriptYard

/-- Regular work. -/
structure Ticker where
  /-- The moment of the first time. -/
  start : Moment
  /-- The time between two times. -/
  period : Span
deriving DecidableEq, Repr, Inhabited

namespace Ticker

/-- Work that begins at a moment, with at least a millisecond between two times. -/
def every (period : Span) (start : Moment) : Ticker := ⟨start, period.longer (.ofMillis 1)⟩

/-- The moment of a time, counted from zero. -/
def moment (t : Ticker) (n : Nat) : Moment := t.start + (Span.mk (n * t.period.nanos)).millisUp

/-- How many times come before a moment. -/
def countBefore (t : Ticker) (limit : Moment) : Nat :=
  if limit ≤ t.start then 0 else (limit - t.start - 1) * 1000000 / t.period.nanos + 1

end Ticker

/-- What looks for stalled runs. -/
structure Watchdog where
  /-- The time between two looks. -/
  interval : Span := .ofSecs 60
  /-- The time without progress after which a run is stalled. -/
  threshold : Span := .ofSecs 60
deriving DecidableEq, Repr, Inhabited

namespace Watchdog

/-- Looks at moments one after the other. The answer names the runs found stalled. -/
def look (w : Watchdog) : List Moment → RunTable → List Stall × RunTable
  | [], t => ([], t)
  | now :: rest, t =>
    let (stalls, t) := t.sweep w.threshold now
    let (more, t) := look w rest t
    (stalls ++ more, t)

/-- Watches for some milliseconds. -/
def watch (w : Watchdog) (now : Moment) (millis : Nat) (t : RunTable) : List Stall × RunTable :=
  let ticker := Ticker.every w.interval now
  w.look ((List.range (ticker.countBefore (now + millis))).map ticker.moment) t

end Watchdog

end ScriptYard
