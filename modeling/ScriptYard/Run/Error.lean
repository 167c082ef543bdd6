import ScriptYard.Time.Span

/-!
# Failures of runs and of the engine

A `CapabilityError` says why a capability or an image service did not do what was asked of it, an
`EngineError` why an operation of the engine or an action failed. Of what nature a failure is, and
so whether it is worth a retry, is its `FailureKind`: an action of an unknown kind or with unfit
parameters fails again however often it is tried.
-/

namespace ScriptYard

/-- The nature of a failure. -/
inductive FailureKind where
  /-- It may pass. -/
  | transient
  /-- The script itself is at fault. -/
  | fatal
  /-- The run was cancelled. -/
  | cancelled
deriving DecidableEq, Repr, Inhabited

namespace FailureKind

def name : FailureKind → String
  | .transient => "transient"
  | .fatal => "fatal"
  | .cancelled => "cancelled"

def ofName? : String → Option FailureKind
  | "transient" => some .transient
  | "fatal" => some .fatal
  | "cancelled" => some .cancelled
  | _ => none

end FailureKind

/-- Why a capability or an image service failed. -/
inductive CapabilityError where
  /-- No capability has this name. -/
  | notFound (name : String)
  /-- The capability is disabled. -/
  | disabled (name : String)
  /-- The capability is not healthy. -/
  | unavailable (name : String)
  /-- The capability has no such action. -/
  | unsupportedAction (capability action : String)
  /-- The parameters do not fit the action. -/
  | invalidParams (capability action reason : String)
  /-- The capability could not be made ready. -/
  | initializationFailed (name reason : String)
  | actionFailed (reason : String)
  /-- An image service failed. -/
  | vision (reason : String)
deriving DecidableEq, Repr, Inhabited

/-- The text of the error. -/
def CapabilityError.message : CapabilityError → String
  | .notFound name => "Capability not found: " ++ name
  | .disabled name => "Capability disabled: " ++ name
  | .unavailable name => "Capability unavailable: " ++ name
  | .unsupportedAction capability action =>
    "Capability '" ++ capability ++ "' does not support action '" ++ action ++ "'"
  | .invalidParams capability action reason =>
    "Invalid parameters for " ++ capability ++ "." ++ action ++ ": " ++ reason
  | .initializationFailed name reason => "Initialization of '" ++ name ++ "' failed: " ++ reason
  | .actionFailed reason => reason
  | .vision reason => "Vision service error: " ++ reason

/-- Why an action or an operation of the engine failed. -/
inductive EngineError where
  /-- No group has this id. -/
  | groupNotFound (group : String)
  /-- A group has this id already. -/
  | groupExists (group : String)
  /-- No task has this id. -/
  | taskNotFound (task : String)
  /-- No script has this id. -/
  | scriptNotFound (script : String)
  /-- The action is of an unknown kind. -/
  | unsupportedAction (kind : String)
  /-- The action lacks a parameter that it needs. -/
  | invalidParams (reason : String)
  /-- The run was cancelled. -/
  | cancelled
  /-- The engine has been started already. -/
  | alreadyRunning
  /-- Runs were still going on when the time for their end was over. -/
  | shutdownTimeout (timeout : Span) (remaining : Nat)
  /-- A capability or an image service failed. -/
  | capability (cause : CapabilityError)
deriving DecidableEq, Repr, Inhabited

namespace EngineError

/-- The text of the error. -/
def message : EngineError → String
  | .groupNotFound group => "Group not found: " ++ group
  | .groupExists group => "Group already exists: " ++ group
  | .taskNotFound task => "Task not found: " ++ task
  | .scriptNotFound script => "Script not found: " ++ script
  | .unsupportedAction kind => "unsupported action kind: " ++ kind
  | .invalidParams reason => "Invalid action parameters: " ++ reason
  | .cancelled => "Execution cancelled"
  | .alreadyRunning => "Engine is already running"
  | .shutdownTimeout timeout remaining => "Shutdown timed out after " ++ timeout.briefText ++
      " with " ++ String.ofList (Nat.toDigits 10 remaining) ++ " execution(s) still active"
  | .capability cause => cause.message

/-- Whether the script itself is at fault. -/
def isFatal : EngineError → Bool
  | .unsupportedAction _ | .invalidParams _ => true
  | _ => false

/-- The nature of the failure. -/
def kind (e : EngineError) : FailureKind :=
  if e = .cancelled then .cancelled else if e.isFatal then .fatal else .transient

end EngineError

end ScriptYard
