import ScriptYard.Document.Variant
import ScriptYard.Run.Error
import ScriptYard.Time.Span

/-!
# Retry policies

A failed task is repeated after a delay that depends on the number of the attempt. `Backoff` says
how: at once, after a fixed delay, or after one that grows by a factor with every attempt and has
an upper bound. The growing delay is computed in floating-point milliseconds, of which the whole
ones count; where it is no number or below zero, the upper bound takes its place.

`RetryPolicy.allows` says which natures of failure (`FailureKind`) are retried.
-/

namespace ScriptYard

/-- How long a failed task waits before it is repeated. -/
inductive Backoff where
  /-- Not at all. -/
  | immediate
  /-- Always the same. -/
  | fixed (delay : Span)
  /-- Longer with every attempt, up to a bound. -/
  | exponential (initial : Span) (multiplier : Binary64) (bound : Span)
deriving DecidableEq, Repr, Inhabited

namespace Backoff

/-- The greatest exponent that is used. -/
def exponentLimit : Nat := twoTo 31 - 1

/-- The delay before the attempt of this number, counted from one. -/
def delay (b : Backoff) (attempt : Nat) : Span :=
  match b with
  | .immediate => .zero
  | .fixed delay => delay
  | .exponential initial multiplier bound =>
    let factor := multiplier.pow (min (attempt - 1) exponentLimit)
    match (Binary64.ofNat initial.millis).mul factor with
    | .finite x =>
      -- a product that is no time, as it is negative or not finite, is cut to the bound
      if x.negative && !x.isZero then bound
      else (Span.ofMillis ((Binary64.finite x).toNatClamped (twoTo 64 - 1))).shorter bound
    | _ => bound

/-- The span that the content of a field writes. -/
def readSpan (c : Content) : Except ReadError Span := do
  match Span.read? (← c.readText) with
  | some s => return s
  | none => throw .wrongValue

/-- The kinds of backoff in a document. -/
def variants : List (Variant Backoff) :=
  let exponential (change : Span × Binary64 × Span → Span × Binary64 × Span) : Backoff → Backoff
    | .exponential i m b => let (i, m, b) := change (i, m, b); .exponential i m b
    | other => other
  [⟨"immediate", .immediate, []⟩,
    ⟨"fixed", .fixed .zero, [⟨"delay", true, fun c _ => do return .fixed (← readSpan c)⟩]⟩,
    ⟨"exponential", .exponential .zero (Binary64.ofNat 2) .zero, [
      ⟨"initial_delay", true, fun c b => do
        let s ← readSpan c
        return exponential (fun p => (s, p.2.1, p.2.2)) b⟩,
      ⟨"multiplier", false, fun c b => do
        let x ← c.readFloat
        return exponential (fun p => (p.1, x, p.2.2)) b⟩,
      ⟨"max_delay", true, fun c b => do
        let s ← readSpan c
        return exponential (fun p => (p.1, p.2.1, s)) b⟩]⟩]

/-- The object of a backoff. A factor that is not finite is written as null. -/
def toValue : Backoff → Value
  | .immediate => .object [("strategy", .string "immediate")]
  | .fixed delay => .object [("delay", .string delay.format), ("strategy", .string "fixed")]
  | .exponential initial multiplier bound => .object [("initial_delay", .string initial.format),
      ("max_delay", .string bound.format), ("multiplier", .ofBinary64 multiplier),
      ("strategy", .string "exponential")]

end Backoff

/-- Which failed tasks are repeated, and when. -/
structure RetryPolicy where
  /-- The delay before a repetition. -/
  backoff : Backoff := .immediate
  /-- Whether failures that are the fault of the script are repeated too. -/
  retryFatal : Bool := true
deriving DecidableEq, Repr, Inhabited

namespace RetryPolicy

/-- Whether a failure of this nature is repeated. A cancelled run never is. -/
def allows (p : RetryPolicy) : FailureKind → Bool
  | .transient => true
  | .fatal => p.retryFatal
  | .cancelled => false

/-- The fields of a policy in a document. -/
def shape : RecordShape RetryPolicy where
  blank := {}
  fields := [
    ⟨"backoff", false, fun src n p => do
      return { p with backoff := ← Variant.read "strategy" Backoff.variants src n }⟩,
    ⟨"retry_unsupported_actions", false, fun _ n p => do
      return { p with retryFatal := ← n.readBool }⟩]

/-- The object of a policy. -/
def toValue (p : RetryPolicy) : Value :=
  .object [("backoff", p.backoff.toValue), ("retry_unsupported_actions", .bool p.retryFatal)]

end RetryPolicy

end ScriptYard
