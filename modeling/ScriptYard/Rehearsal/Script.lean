import ScriptYard.Capability.Shell
import ScriptYard.Run.Context

/-!
# Rehearsals

A rehearsal runs scripts against capabilities and image services whose replies are written down
beforehand (`ScriptedReply`), on a clock that jumps from one event to the next. A list of replies
answers call after call, and its last reply all further ones. Every call is written into a log when
it begins.

The shell capability may take part in a rehearsal; the time that its programs take does not count.
-/

namespace ScriptYard

/-- A reply that is written down beforehand. -/
structure ScriptedReply (α : Type) where
  /-- The milliseconds until the reply. -/
  delay : Nat := 0
  /-- Whether the run is cancelled just before the reply. -/
  cancels : Bool := false
  /-- The reply. -/
  outcome : α
deriving Repr

/-- What a capability replies. -/
inductive ScriptedOutcome where
  /-- The parameters of the call. -/
  | echo
  | actionFailed (reason : String)
  /-- That the parameters do not fit. -/
  | invalidParams (reason : String)
  | ok (v : Value)
deriving DecidableEq, Repr, Inhabited

/-- The reply to the call of this number, counted from zero: the last one where there are no more. -/
def replyAt? {α : Type} (replies : List α) (n : Nat) : Option α := replies[n]? <|> replies.getLast?

/-- A capability whose replies are written down. -/
structure ScriptedDriver where
  /-- The replies by action; those under a star are for all other actions. -/
  responses : Fields (List (ScriptedReply ScriptedOutcome)) := []
  /-- How often each action was called. -/
  counts : Fields Nat := []
  /-- Whether the log tells when the capability is made ready and cleaned up. -/
  announces : Bool := false
deriving Repr, Inhabited

namespace ScriptedDriver

def repliesFor (d : ScriptedDriver) (action : String) : List (ScriptedReply ScriptedOutcome) :=
  ((d.responses.get? action).or (d.responses.get? "*")).getD []

/-- The next reply for an action, and the driver after it. -/
def next (d : ScriptedDriver) (action : String) :
    Option (ScriptedReply ScriptedOutcome) × ScriptedDriver :=
  let n := (d.counts.get? action).getD 0
  (replyAt? (d.repliesFor action) n, { d with counts := d.counts.insert action (n + 1) })

end ScriptedDriver

/-- What carries out the actions of a capability in a rehearsal. -/
inductive RehearsalDriver where
  | shell
  /-- Replies that are written down. -/
  | scripted (driver : ScriptedDriver)
deriving Repr, Inhabited

/-- An image service whose replies are written down. -/
structure ScriptedService (α : Type) where
  replies : List (ScriptedReply (Except String α))
  /-- How often it was called. -/
  count : Nat := 0

/-- The next reply of a service, which is that of an idle one where none is written down. -/
def ScriptedService.next {α : Type} (s : ScriptedService α) (idle : α) :
    ScriptedReply (Except String α) × ScriptedService α :=
  ((replyAt? s.replies s.count).getD { outcome := .ok idle }, { s with count := s.count + 1 })

/-- What the log of a rehearsal tells. -/
inductive LogEntry where
  | called (moment : Moment) (capability action : String) (params : Fields Value)
  /-- A template was looked for. -/
  | matched (moment : Moment) (image template : String) (threshold : Finite64)
  /-- Text was read from an image. -/
  | read (moment : Moment) (image : String) (region : Option Region)
  /-- A capability was made ready. -/
  | initialized (capability : String)
  | cleanedUp (capability : String)
deriving Repr

/-- The state of a rehearsal. -/
structure Rehearsal where
  capabilities : CapabilityRegistry RehearsalDriver := []
  /-- The service that looks for templates. -/
  matcher : Option (ScriptedService TemplateMatch) := none
  /-- The service that reads text. -/
  reader : Option (ScriptedService String) := none
  /-- What programs work with that the shell starts. -/
  machine : Shell.Machine := {}
  /-- The log, the last entry first. -/
  log : List LogEntry := []
deriving Inhabited

namespace Rehearsal

/-- The rehearsal with one more entry in its log. -/
def note (r : Rehearsal) (e : LogEntry) : Rehearsal := { r with log := e :: r.log }

/-- A match of nothing. -/
def noMatch : TemplateMatch := ⟨false, 0, 0, 0, 0, .zero false⟩

/-- What a scripted outcome is as the reply of a call. -/
def reply (capability action : String) (params : Fields Value) :
    ScriptedOutcome → Except CapabilityError Value
  | .echo => .ok (.object params)
  | .actionFailed reason => .error (.actionFailed reason)
  | .invalidParams reason => .error (.invalidParams capability action reason)
  | .ok v => .ok v

/-- Calls an action of a capability. -/
def invoke (r : Rehearsal) (now : Moment) (capability action : String) (params : Fields Value) :
    ScriptedReply (Except CapabilityError Value) × Rehearsal :=
  match r.capabilities.reach capability with
  | .error e => ({ outcome := .error e }, r)
  | .ok .shell =>
    let (outcome, machine) := ShellCapability.invoke r.machine action params
    ({ outcome := outcome }, { r with machine := machine })
  | .ok (.scripted d) =>
    let (next, d) := d.next action
    let r := { r with capabilities := r.capabilities.setDriver capability (.scripted d) }
    let r := r.note (.called now capability action params)
    match next with
    | some n => (⟨n.delay, n.cancels, reply capability action params n.outcome⟩, r)
    | none => ({ outcome := .error (.unsupportedAction capability action) }, r)

/-- The reply of an image service as that of a call. -/
def serviceReply {α : Type} (n : ScriptedReply (Except String α)) : ScriptedReply (Except CapabilityError α) :=
  ⟨n.delay, n.cancels, match n.outcome with
    | .ok a => .ok a
    | .error reason => .error (.vision reason)⟩

/-- Looks for a template. -/
def matchTemplate (r : Rehearsal) (now : Moment) (image template : String) (threshold : Finite64) :
    ScriptedReply (Except CapabilityError TemplateMatch) × Rehearsal :=
  match r.matcher with
  | none => ({ outcome := .error (.vision ("no template matcher configured (template: " ++ template ++ ")")) }, r)
  | some service =>
    let (next, service) := service.next noMatch
    (serviceReply next, { r with matcher := some service }.note (.matched now image template threshold))

def readText (r : Rehearsal) (now : Moment) (image : String) (region : Option Region) :
    ScriptedReply (Except CapabilityError String) × Rehearsal :=
  match r.reader with
  | none => ({ outcome := .error (.vision ("no OCR engine configured (image: " ++ image ++ ")")) }, r)
  | some service =>
    let (next, service) := service.next ""
    (serviceReply next, { r with reader := some service }.note (.read now image region))

/-- Begins a call: its reply, and the rehearsal after it. -/
def begin (r : Rehearsal) (now : Moment) : (request : Request) → ScriptedReply request.Reply × Rehearsal
  | .invoke capability action params => r.invoke now capability action params
  | .matchTemplate image template threshold => r.matchTemplate now image template threshold
  | .readText image region => r.readText now image region

/-- Makes all capabilities ready. Those that are healthy and announce it are logged. -/
def initializeAll (r : Rehearsal) : Rehearsal :=
  let entries := r.capabilities.filterMap fun e => match e.2.capability.driver with
    | .scripted d => if d.announces && e.2.capability.healthy then some (.initialized e.1) else none
    | .shell => none
  { r with capabilities := r.capabilities.initializeAll, log := entries.reverse ++ r.log }

/-- Cleans all capabilities up. Those that announce it are logged. -/
def cleanUpAll (r : Rehearsal) : Rehearsal :=
  let entries := r.capabilities.filterMap fun e => match e.2.capability.driver with
    | .scripted d => if d.announces then some (.cleanedUp e.1) else none
    | .shell => none
  { r with log := entries.reverse ++ r.log }

end Rehearsal

end ScriptYard
