import ScriptYard.Engine.Groups
import ScriptYard.Engine.Runs
import ScriptYard.Rehearsal.Script
import ScriptYard.Run.Later

/-!
# Rehearsals of an engine

A `Session` is a rehearsal of an engine. Its clock of runs stands still while there is a job to do,
and jumps to the next alarm when there is none; the time of day stands still altogether. Jobs are
done in the order in which they became ready, and alarms of one moment go off in the order in which
they were set. The jobs are those of the runs of tasks and the regular looks of a started engine; a
run without a task (`Session.playRun`) and a shutdown (`Session.shutdown`) are done by whoever asks
for them, and come before all jobs that become ready at the same moment.

A cancellation wakes a run that sleeps. A run that waits for the reply of a call waits on.
-/

namespace ScriptYard

/-- What can be done in a session. -/
inductive Job where
  /-- Lets a run begin. -/
  | begin (run : Nat)
  /-- Carries a run on that has slept. -/
  | wake (run : Nat)
  /-- Carries a run on, with what is left after the reply of its call. -/
  | resume (run : Nat) (left : Process RunEnd)
  /-- Looks for tasks, for the time of this number. -/
  | tick (ticker : Ticker) (number : Nat)
  /-- Looks for stalled runs, for the time of this number. -/
  | sweep (ticker : Ticker) (number : Nat)

/-- Whether the job is one of the regular looks of a started engine. -/
def Job.isRegular : Job → Bool
  | .tick .. | .sweep .. => true
  | .begin _ | .wake _ | .resume .. => false

/-- A job that is ready from a moment on. -/
structure Alarm where
  moment : Moment
  job : Job

/-- A rehearsal of an engine. -/
structure Session where
  engine : Engine := {}
  /-- The capabilities and services, and the log. -/
  rehearsal : Rehearsal := {}
  /-- What the clocks show. -/
  clock : Clock := {}
  /-- The jobs that are ready, the first one first. -/
  ready : List Job := []
  /-- The alarms, in the order in which they were set. -/
  alarms : List Alarm := []
deriving Inhabited

namespace Session

/-- Whether an alarm is that of a sleeping run which has been cancelled. -/
def isDisturbed (e : Engine) (a : Alarm) : Bool :=
  match a.job with
  | .wake run => ((e.run? run).map (·.context.cancelled)).getD false
  | _ => false

/-- The session after a step of the engine. The runs that it launched are ready to begin, and the
sleeping runs that it cancelled are ready to go on. -/
def step (s : Session) (e : Engine) : Session :=
  let launched := e.runs.filter fun r => s.engine.issued ≤ r.number && r.place.isSome
  let (disturbed, quiet) := s.alarms.partition (isDisturbed e)
  { s with
    engine := e
    ready := s.ready ++ launched.map (fun r => .begin r.number) ++ disturbed.map (·.job)
    alarms := quiet }

def setAlarm (s : Session) (moment : Moment) (job : Job) : Session :=
  { s with alarms := s.alarms ++ [⟨moment, job⟩] }

/-! ### Runs -/

/-- Whether a run was told to stop. -/
def isCancelled (s : Session) (run : Nat) : Bool :=
  ((s.engine.run? run).map (·.context.cancelled)).getD false

/-- Where a run settles that is carried on. -/
def settled (s : Session) (run : Nat) (left : Process RunEnd) : Process RunEnd :=
  (left.settle s.clock.moment (((s.engine.run? run).map (·.context)).getD {})).1

theorem settled_later (s : Session) (run : Nat) (left : Process RunEnd) :
    s.settled run left = left ∨ Process.Later (s.settled run left) left :=
  Process.settle_later ..

def finish (s : Session) (run : Nat) : Option RunReport × Session :=
  match s.engine.finish run s.clock with
  | some (report, e) => (some report, s.step e)
  | none => (none, s)

/-- Carries the run of a task on until it has to wait for time to pass, and sets the alarm for then; or
to its end. -/
def pursue (s : Session) (run : Nat) (left : Process RunEnd) : Session :=
  let now := s.clock.moment
  let s' := { s with engine := s.engine.carryOn run left s.clock }
  match _h : s.settled run left with
  | .call r k =>
    let (reply, rehearsal) := s'.rehearsal.begin now r
    let s' := { s' with rehearsal := rehearsal }
    if reply.delay = 0 then s'.pursue run (k reply.outcome)
    else s'.setAlarm (now + reply.delay) (.resume run (k reply.outcome))
  | .sleep time _ => s'.setAlarm (now + time.millisUp) (.wake run)
  | _ => (s'.finish run).2
termination_by left
decreasing_by exact Process.Later.trans_next (_h ▸ .call r k _) (s.settled_later run left)

/-! ### Jobs -/

/-- Does a job. -/
def perform (s : Session) : Job → Session
  | .begin run =>
    match s.engine.run? run with
    | some r => { s with engine := s.engine.beginRun run s.clock }.pursue run r.process
    | none => s
  | .wake run =>
    match (s.engine.run? run).map EngineRun.process with
    | some (.sleep _ k) => s.pursue run (k (!s.isCancelled run))
    | _ => s
  | .resume run left => s.pursue run left
  | .tick ticker n =>
    (s.step (s.engine.tick s.clock).2).setAlarm (ticker.moment (n + 1)) (.tick ticker (n + 1))
  | .sweep ticker n =>
    (s.step (s.engine.sweep s.clock).2).setAlarm (ticker.moment (n + 1)) (.sweep ticker (n + 1))

/-- Does up to so many jobs that are ready. -/
def work : (fuel : Nat) → Session → Session
  | 0, s => s
  | fuel + 1, s =>
    match s.ready with
    | [] => s
    | job :: rest => work fuel ({ s with ready := rest }.perform job)

/-- More jobs than can become ready at one moment: a run does at most three, its beginning, its waking
and its end after a cancellation, and a tick launches at most one run for every queue. -/
def jobBound (s : Session) : Nat :=
  4 * (s.ready.length + s.alarms.length + s.engine.runs.length + s.engine.queues.length + 1)

/-- Does all jobs that can be done at the moment. -/
def settle (s : Session) : Session := work s.jobBound s

/-! ### Time -/

/-- The moment of the next alarm that goes off by a moment, or else that moment. -/
def nextMoment (s : Session) (target : Moment) : Moment :=
  s.alarms.foldl (fun m a => min m a.moment) target

/-- Jumps to a moment. The jobs of the alarms that have gone off by then are ready. -/
def jump (s : Session) (moment : Moment) : Session :=
  let (due, later) := s.alarms.partition (·.moment ≤ moment)
  { s with
    clock := { s.clock with moment := max s.clock.moment moment }
    ready := s.ready ++ due.map (·.job)
    alarms := later }

/-- Lets time pass, with all that there is to do, up to a moment, or until something is so once
all jobs are done. The jobs of that last moment are left to be done. -/
def passTo (target : Moment) (until? : Session → Bool) : (fuel : Nat) → Session → Session
  | 0, s => s
  | fuel + 1, s =>
    let s := s.settle
    if until? s then s
    else
      let next := s.nextMoment target
      if next < target then passTo target until? fuel (s.jump next) else s.jump target

/-- Lets time pass up to a moment, or until something is so. Every jump takes the clock on. -/
def waitUntil (s : Session) (target : Moment) (until? : Session → Bool) : Session :=
  passTo target until? (target - s.clock.moment + 1) s

/-- Lets some milliseconds pass, with all that there is to do. -/
def advance (s : Session) (millis : Nat) : Session :=
  (s.waitUntil (s.clock.moment + millis) fun _ => false).settle

/-- Carries a run without a task on to its end. -/
def follow (s : Session) (run : Nat) (left : Process RunEnd) : Session :=
  let now := s.clock.moment
  let s' := { s with engine := s.engine.carryOn run left s.clock }
  match _h : s.settled run left with
  | .call r k =>
    let (reply, rehearsal) := s'.rehearsal.begin now r
    let s' := { s' with rehearsal := rehearsal }
    let s' := if reply.delay = 0 then s' else s'.waitUntil (now + reply.delay) fun _ => false
    s'.follow run (k reply.outcome)
  | .sleep time k =>
    let s' := s'.waitUntil (now + time.millisUp) (·.isCancelled run)
    s'.follow run (k (!s'.isCancelled run))
  | _ => s'
termination_by left
decreasing_by
  · exact Process.Later.trans_next (_h ▸ .call r k _) (s.settled_later run left)
  · exact Process.Later.trans_next (_h ▸ .sleep time k _) (s.settled_later run left)

/-! ### What can be asked of a session -/

/-- Plays a run that was opened in the engine from its beginning to its end. -/
def playRun (s : Session) (opened : Nat × Engine) : Option RunReport × Session :=
  let (run, e) := opened
  match e.run? run with
  | some r => ({ s with engine := e.beginRun run s.clock }.follow run r.process).finish run
  | none => (none, s)

/-- Starts the engine: it looks for tasks and for stalled runs at once and then regularly. -/
def start (s : Session) : Except EngineError Session := do
  let e ← s.engine.start
  let ticker (period : Span) := Ticker.every period s.clock.moment
  return { s with
    engine := e
    ready := s.ready ++ [.tick (ticker e.settings.schedulerTick) 0, .sweep (ticker e.settings.watchdogInterval) 0] }

/-- Lets a task be cancelled. The answer tells whether there was one. -/
def cancel (s : Session) (task : String) : Bool × Session :=
  match s.engine.cancel task s.clock.time with
  | some e => (true, s.step e)
  | none => (false, s)

/-- Does what an operation of the engine does that gives an answer in any case. -/
def ask {α : Type} (s : Session) (answer : α × Engine) : α × Session := (answer.1, s.step answer.2)

/-- Does what an operation of the engine does, if it is not refused. -/
def attempt {α : Type} (s : Session) (answer : Except EngineError (α × Engine)) :
    Except EngineError α × Session :=
  match answer with
  | .ok (a, e) => (.ok a, s.step e)
  | .error err => (.error err, s)

/-- Shuts the engine down: waits until the runs of all tasks are finished, but not longer than a
timeout, and cleans the capabilities up in any case. -/
def shutdown (s : Session) (timeout : Span) : Except EngineError Unit × Session :=
  let s := { s with
    ready := s.ready.filter (!·.isRegular)
    alarms := s.alarms.filter (!·.job.isRegular) }
  let s := s.step s.engine.beginShutdown
  let s := if s.engine.isDrained || timeout = .zero then s
    else s.waitUntil (s.clock.moment + timeout.millisUp) (·.engine.isDrained)
  (s.engine.shutdownEnd timeout, { s with rehearsal := s.rehearsal.cleanUpAll })

end Session

end ScriptYard
