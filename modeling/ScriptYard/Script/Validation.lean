import ScriptYard.Number.Shortest
import ScriptYard.Script.Definition
import ScriptYard.Text.Shown
import ScriptYard.Time.Span

/-!
# Validation

A script that can be read may still be one that cannot run. `Validator.check` looks at a script,
`Validator.checkLibrary` at a library with the references in it, and both answer with a
`ValidationReport`: errors, which make the script invalid, and warnings.

What a validator knows is optional: the capabilities and their actions, the ids of scripts that
may be referred to, and the time after which a run counts as stalled. A check that needs
something unknown is left out.
-/

namespace ScriptYard

/-! ### Errors and warnings -/

/-- What makes a script invalid. -/
inductive ValidationError where
  /-- The script has no actions. -/
  | emptyScript (script : String)
  /-- A call of a capability that is not known. -/
  | unknownCapability (script capability : String)
  /-- A call of an action that the capability does not have. -/
  | unknownAction (script capability action : String) (supported : List String)
  /-- An action of an unknown kind. -/
  | unsupportedKind (script kind : String)
  /-- An action with unfit parameters. -/
  | invalidAction (script reason : String)
  /-- A reference to an exception script that is not known, in a script or group. -/
  | unknownExceptionScript (owner script : String)
  /-- A reference to a group that is not known. -/
  | unknownGroup (script group : String)
deriving DecidableEq, Repr

/-- The text of the error. -/
def ValidationError.message : ValidationError → String
  | .emptyScript script => "Script '" ++ script ++ "' has no actions"
  | .unknownCapability script capability =>
    "Script '" ++ script ++ "' uses unknown capability '" ++ capability ++ "'"
  | .unknownAction script capability action supported =>
    "Script '" ++ script ++ "' calls unknown action '" ++ action ++ "' on capability '" ++ capability ++
      "'. Supported actions: " ++ shownList (supported.map shownText)
  | .unsupportedKind script kind =>
    "Script '" ++ script ++ "' contains unsupported action kind '" ++ kind ++ "'"
  | .invalidAction script reason => "Script '" ++ script ++ "' has an invalid action: " ++ reason
  | .unknownExceptionScript owner script =>
    "'" ++ owner ++ "' references unknown exception script '" ++ script ++ "'"
  | .unknownGroup script group => "Script '" ++ script ++ "' targets unknown group '" ++ group ++ "'"

/-- What is likely to be a mistake in a script. -/
inductive ValidationWarning where
  /-- Actions are nested very deeply. -/
  | deepNesting (script : String) (depth : Nat)
  /-- A loop that makes no pass. -/
  | idleLoop (script : String)
  /-- A loop that pauses for longer than a run may be inactive. -/
  | longInterval (script : String) (interval : Finite64) (threshold : Span)
  /-- A wait that is longer than a run may be inactive. -/
  | longWait (script : String) (duration : Finite64) (threshold : Span)
  /-- A script that is to be started with its library but has no group. -/
  | autostartWithoutGroup (script : String)
deriving DecidableEq, Repr

/-- The greatest depth of actions that causes no warning. -/
def recommendedDepth : Nat := 16

/-- A number of seconds in a message. -/
def secondsText (x : Finite64) : String := FloatStyle.message.format x ++ "s"

/-- The text of the warning. -/
def ValidationWarning.message : ValidationWarning → String
  | .deepNesting script depth => "Script '" ++ script ++ "' nests actions " ++ integerText depth ++
      " levels deep (recommended maximum " ++ integerText recommendedDepth ++ ")"
  | .idleLoop script => "Script '" ++ script ++ "' has a loop with max_iterations 0; its body never runs"
  | .longInterval script interval threshold => "Script '" ++ script ++ "' has a loop interval of " ++
      secondsText interval ++ ", longer than the stall threshold of " ++ secondsText threshold.toSeconds
  | .longWait script duration threshold => "Script '" ++ script ++ "' waits " ++ secondsText duration ++
      ", longer than the stall threshold of " ++ secondsText threshold.toSeconds ++
      "; the watchdog will treat it as stalled"
  | .autostartWithoutGroup script => "Script '" ++ script ++ "' is marked autostart but has no group"

/-- What a validation has found. -/
structure ValidationReport where
  /-- The errors, in the order in which they were found. -/
  errors : List ValidationError := []
  /-- The warnings, in the order in which they were found. -/
  warnings : List ValidationWarning := []
deriving DecidableEq, Repr, Inhabited

namespace ValidationReport

/-- Whether nothing makes the script invalid. -/
def isValid (r : ValidationReport) : Bool := r.errors.isEmpty

def error (e : ValidationError) : ValidationReport := ⟨[e], []⟩

def warning (w : ValidationWarning) : ValidationReport := ⟨[], [w]⟩

/-- A report of an error if a condition holds. -/
def errorIf (b : Bool) (e : ValidationError) : ValidationReport := if b then error e else {}

/-- A report of a warning if a condition holds. -/
def warningIf (b : Bool) (w : ValidationWarning) : ValidationReport := if b then warning w else {}

/-- Two reports, one after the other. -/
def append (a b : ValidationReport) : ValidationReport := ⟨a.errors ++ b.errors, a.warnings ++ b.warnings⟩

instance : Append ValidationReport := ⟨append⟩

/-- Reports one after the other. -/
def all (reports : List ValidationReport) : ValidationReport :=
  ⟨reports.flatMap (·.errors), reports.flatMap (·.warnings)⟩

end ValidationReport

/-! ### Checks -/

/-- What is known when a script is checked. -/
structure Validator where
  /-- The actions of the capabilities; none given stands for any. -/
  capabilities : Option (Fields (List String)) := none
  /-- The ids of scripts that may be referred to. -/
  knownScripts : Option (List String) := none
  /-- The inactivity after which a run is stalled. -/
  stallThreshold : Option Span := none
deriving Repr, Inhabited

namespace Validator

def checkCall (v : Validator) (script capability action : String) : ValidationReport :=
  match v.capabilities with
  | none => {}
  | some capabilities =>
    match capabilities.get? capability with
    | none => .error (.unknownCapability script capability)
    | some actions => .errorIf (!actions.isEmpty && !actions.contains action)
        (.unknownAction script capability action actions)

/-- Whether a number lies between 0 and 1. -/
def isUnitRange (x : Finite64) : Bool :=
  (Finite64.zero false).compare x != .gt && x.compare Finite64.one != .gt

/-- The report on the threshold of a search for a template. -/
def checkThreshold (script : String) (threshold : Finite64) : ValidationReport :=
  .errorIf (!isUnitRange threshold) (.invalidAction script
    ("template threshold " ++ FloatStyle.message.format threshold ++ " is outside 0.0..=1.0"))

/-- Whether a number of seconds is longer than the stall threshold, if there is one. -/
def isLong (v : Validator) (seconds : Finite64) : Option Span :=
  v.stallThreshold.filter (fun t => t < Span.ofSeconds seconds)

/-- The report on one action by itself. -/
def checkAction (v : Validator) (script : String) : Action → ValidationReport
  | .call c _ =>
    if isBlankText c.action then
      .error (.invalidAction script ("plugin_call on '" ++ c.capability ++ "' has no action"))
    else v.checkCall script c.capability c.action
  | .condition (.templateMatch _ threshold _) _ _ _ _ => checkThreshold script threshold
  | .condition .. => {}
  | .templateMatch search _ => checkThreshold script search.threshold
  | .loop interval n _ _ =>
    .warningIf (n == 0) (.idleLoop script) ++
      match v.isLong interval with
      | some t => .warning (.longInterval script interval t)
      | none => {}
  | .wait duration _ =>
    match v.isLong duration with
    | some t => .warning (.longWait script duration t)
    | none => {}
  | .setVariable name _ _ =>
    .errorIf (isBlankText name) (.invalidAction script "set_variable requires a name")
  | .unsupported kind => .error (.unsupportedKind script kind)
  | .readText .. | .restart .. => {}

/-- The report on a reference to an exception script. -/
def checkException (known : Option (List String)) (owner : String) : Option String → ValidationReport
  | some script => match known with
    | some known => .errorIf (!known.contains script) (.unknownExceptionScript owner script)
    | none => {}
  | none => {}

def check (v : Validator) (s : ScriptDefinition) : ValidationReport :=
  .errorIf s.actions.isEmpty (.emptyScript s.id) ++
    checkException v.knownScripts s.id s.exceptionScript ++
    .warningIf (recommendedDepth < s.maxDepth) (.deepNesting s.id s.maxDepth) ++
    .all ((Action.walkList s.actions).map (v.checkAction s.id))

def checkGroup (groups : List GroupDefinition) (s : ScriptDefinition) : ValidationReport :=
  match s.group with
  | some group => .errorIf (!groups.any (fun g => g.id == group)) (.unknownGroup s.id group)
  | none => .warningIf s.autostart (.autostartWithoutGroup s.id)

/-- The report on a library: its groups, then its scripts, which may refer to one another. A group
may only refer to scripts of the library itself. -/
def checkLibrary (v : Validator) (l : ScriptLibrary) : ValidationReport :=
  let ids := l.scripts.map (·.id)
  let inside := { v with knownScripts := some (v.knownScripts.getD [] ++ ids) }
  .all (l.groups.map fun g => checkException (some ids) g.id g.exceptionScript) ++
    .all (l.scripts.map fun s => checkGroup l.groups s ++ inside.check s)

end Validator

end ScriptYard
