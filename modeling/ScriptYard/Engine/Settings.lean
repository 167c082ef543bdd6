import ScriptYard.Queue.RetryPolicy
import ScriptYard.Script.Definition

/-!
# Settings of an engine

`EngineSettings` holds what can be chosen about the running of tasks: how often the scheduler and
the watchdog look, when a run counts as stalled, how often and how soon failed tasks are repeated,
how many completed tasks are remembered, and the priority of scripts that are queued for stalled
runs.
-/

namespace ScriptYard

/-- What can be chosen about the running of tasks. -/
structure EngineSettings where
  /-- The time between two looks of the scheduler. -/
  schedulerTick : Span := .ofSecs 1
  /-- The time between two looks of the watchdog. -/
  watchdogInterval : Span := .ofSecs 60
  /-- The inactivity after which a run is stalled, where it is not the watchdog's interval. -/
  ownStallThreshold : Option Span := none
  /-- How often a task is repeated that does not say so itself. -/
  defaultMaxRetries : Nat := 3
  /-- How many completed tasks a queue remembers. -/
  historyLimit : Nat := 500
  /-- The priority of scripts that are queued for stalled runs. -/
  exceptionPriority : Int := 100
  /-- Which failed tasks are repeated. -/
  retry : RetryPolicy := {}
deriving DecidableEq, Repr, Inhabited

namespace EngineSettings

/-- The inactivity after which a run is stalled. -/
def stallThreshold (s : EngineSettings) : Span := s.ownStallThreshold.getD s.watchdogInterval

/-- The span that a node writes. -/
def readSpan (n : Node) : Reading Span := do
  match Span.read? (← n.readText) with
  | some s => return s
  | none => throw .wrongValue

/-- The fields of the settings in a document. -/
def shape : RecordShape EngineSettings where
  blank := {}
  fields := [
    ⟨"scheduler_tick", false, fun _ n s => do return { s with schedulerTick := ← readSpan n }⟩,
    ⟨"watchdog_interval", false, fun _ n s => do return { s with watchdogInterval := ← readSpan n }⟩,
    ⟨"stall_threshold", false, fun _ n s => do
      return { s with ownStallThreshold := ← n.readOptional readSpan }⟩,
    ⟨"default_max_retries", false, fun _ n s => do return { s with defaultMaxRetries := ← n.readNat 32 }⟩,
    ⟨"history_limit", false, fun _ n s => do return { s with historyLimit := ← n.readNat 64 }⟩,
    ⟨"exception_priority", false, fun _ n s => do
      return { s with exceptionPriority := ← n.readInt (-(twoTo 63)) (twoTo 63 - 1) }⟩,
    ⟨"retry", false, fun src n s => do return { s with retry := ← RetryPolicy.shape.read src n }⟩]

/-- The object of the settings. -/
def toValue (s : EngineSettings) : Value :=
  .object ([("default_max_retries", .nat s.defaultMaxRetries),
    ("exception_priority", .int s.exceptionPriority), ("history_limit", .nat s.historyLimit),
    ("retry", s.retry.toValue), ("scheduler_tick", .string s.schedulerTick.format)] ++
    (match s.ownStallThreshold with | some t => [("stall_threshold", .string t.format)] | none => []) ++
    [("watchdog_interval", .string s.watchdogInterval.format)])

end EngineSettings

end ScriptYard
