import ScriptYard.Run.Process
import ScriptYard.Run.Report
import ScriptYard.Text

/-!
# What actions do

`Action.execute` turns an action into the `Process` of its execution, `Action.executeAll` a sequence
of actions, and `runActions` the actions of a whole script.

Cancellation is cooperative: it is looked at before every action, before every pass of a loop and
in every pause. The first failure ends a sequence. Progress is noted after every leaf that
succeeds, and in a loop after every action of its body that does.
-/

namespace ScriptYard

/-! ### Pieces of actions -/

/-- Sets a variable if a name is given. -/
def storeResult (name : Option String) (v : Value) : Process Unit :=
  match name with
  | some n => Process.set n v
  | none => pure ()

/-- Sets the variables of a place that the result of a call names: both coordinates or neither. -/
def bindPlace (fields : Fields Value) : Process Unit :=
  match fields.get? "x", fields.get? "y" with
  | some x, some y => do
    Process.set Variables.matchX x
    Process.set Variables.matchY y
  | _, _ => pure ()

/-- Sets the variable of the screenshot that the result of a call names. -/
def bindScreenshot (fields : Fields Value) : Process Unit :=
  match fields.get? "screenshot_path" with
  | some path => Process.set Variables.screenshot path
  | none => pure ()

/-- Sets the variables that the result of a call is bound to. -/
def bindResult (name : Option String) (v : Value) : Process Unit := do
  storeResult name v
  match v with
  | .object fields => do
    bindPlace fields
    bindScreenshot fields
  | _ => pure ()

/-- Sets the variables that a found template is bound to. -/
def bindMatch (m : TemplateMatch) : Process Unit := do
  Process.set Variables.matchX (.int m.x)
  Process.set Variables.matchY (.int m.y)
  Process.set Variables.matchConfidence (.float m.confidence)

/-- The path of the image that a reference names: a text that is not empty, or the path that an
object holds. -/
def Variables.image? (vars : Variables) (reference : String) : Option String :=
  match Variables.lookup? vars reference with
  | some (.string s) => if s.isEmpty then none else some s
  | some (.object fields) =>
    ((Fields.get? fields "screenshot_path").or (Fields.get? fields "path")).bind Value.text?
  | _ => none

/-- The path of an image that may be named. -/
def Variables.optionalImage? (vars : Variables) (reference : Option String) : Option String :=
  reference.bind (Variables.image? vars)

def callFailure (e : CapabilityError) : ActionResult := .ofError (.capability e)

def executeCall (c : CapabilityCall) : Process ActionResult := do
  let vars ← Process.vars
  match ← Process.request (.invoke c.capability c.action (Variables.resolveFields vars c.params)) with
  | .ok v => do
    bindResult c.storeResult v
    return .ok v
  | .error e => return callFailure e

/-- Asks what a condition asks. The answer is the outcome, or the failure of the call for it. -/
def evaluate : Check → Process (Except CapabilityError Bool)
  | .templateMatch path threshold image => do
    let vars ← Process.vars
    match Variables.optionalImage? vars image with
    -- without an image there is nothing to be found, and nobody is asked
    | none => return .ok false
    | some image =>
      match ← Process.request (.matchTemplate image path threshold) with
      | .ok m => do
        if m.found then bindMatch m
        return .ok m.found
      | .error e => return .error e
  | .variableCompare name op value => do
    let vars ← Process.vars
    let left := (Fields.get? vars (referencedName name)).getD .null
    return .ok (Value.compare left op (Variables.resolve vars value))

/-- Looks for a template. -/
def executeSearch (s : TemplateSearch) : Process ActionResult := do
  let vars ← Process.vars
  match Variables.optionalImage? vars s.inputImage, s.templatePath with
  | some image, some template =>
    match ← Process.request (.matchTemplate image template s.threshold) with
    | .ok m => do
      -- the answer is stored in any case, its place only where something was found
      storeResult s.storeResult m.toValue
      if m.found then bindMatch m
      return .ok m.toValue
    | .error e => return callFailure e
  | _, _ => return .ofError (.invalidParams "template_match requires input_image and template_path")

/-- Reads text from an image. -/
def executeReading (t : TextReading) : Process ActionResult := do
  let vars ← Process.vars
  match Variables.optionalImage? vars t.inputImage with
  | some image =>
    match ← Process.request (.readText image t.region) with
    | .ok text => do
      storeResult t.storeResult (.string text)
      return .ok (.object [("text", .string text)])
    | .error e => return callFailure e
  | none => return .ofError (.invalidParams "ocr requires input_image")

def executeWait (time : Span) : Process ActionResult := do
  if ← Process.pause time then return .ok (.object [("waited", .float time.toSeconds)])
  else return .cancelled

/-- Sets a variable. -/
def executeAssignment (name : String) (value : Value) : Process ActionResult := do
  if isBlankText name then return .ofError (.invalidParams "set_variable requires a name")
  else
    let vars ← Process.vars
    let v := Variables.resolve vars value
    Process.set name v
    return .ok (.object [("name", .string name), ("value", v)])

/-- Asks for a restart by cancelling the run. -/
def executeRestart : Process ActionResult := do
  Process.cancelRun
  return .ok (.object [("restart", .bool true)])

/-- What goes before and after every action: a cancelled run does nothing, and a leaf that succeeds
is progress. -/
def guarded (isLeaf : Bool) (body : Process ActionResult) : Process ActionResult := do
  if ← Process.isCancelled then return .cancelled
  else
    let r ← body
    if r.success && isLeaf then Process.noteProgress
    return r

/-! ### Loops -/

/-- How a pass through the body of a loop ends. -/
inductive PassEnd where
  /-- All actions succeeded. -/
  | finished
  | failed (result : ActionResult)
  /-- A condition ended the loop. -/
  | broken
  /-- The run was found cancelled. -/
  | cancelled
deriving DecidableEq, Repr

/-- The result of a loop that a condition ended in a pass. -/
def loopBroken (pass : Nat) : ActionResult :=
  .ok (.object [("break_reason", .string "condition_true"), ("iterations", .nat pass)])

/-- The result of a loop that the cancellation ended in a pass. -/
def loopCancelled (pass : Nat) : ActionResult :=
  { ActionResult.cancelled with
    data := .object [("break_reason", .string "cancelled"), ("iterations", .nat pass)] }

/-- The result of a loop that made all its passes. -/
def loopFinished (passes : Nat) : ActionResult := .ok (.object [("iterations", .nat passes)])

/-- Makes `remaining` more passes after `made`, with a pause between any two. -/
def runLoop (interval : Span) (pass : Process PassEnd) : (remaining : Nat) → (made : Nat) → Process ActionResult
  | 0, made => return loopFinished made
  | remaining + 1, made => do
    if ← Process.isCancelled then return loopCancelled made
    else
      match ← pass with
      | .failed r => return r
      | .broken => return loopBroken (made + 1)
      | .cancelled => return loopCancelled (made + 1)
      | .finished =>
        -- no pause behind the last pass
        if remaining = 0 then return loopFinished (made + 1)
        else if ← Process.pause interval then runLoop interval pass remaining (made + 1)
        else return loopCancelled (made + 1)

namespace Action

/-- Whether an action is a condition that ends the loop around it when it is true. -/
def mayBreak : Action → Bool
  | .condition _ _ _ breakOnTrue _ => breakOnTrue
  | _ => false

def isTrueCondition (r : ActionResult) : Bool := r.data.get? "condition_result" == some (.bool true)

/-! ### Actions -/

mutual

/-- What an action does. -/
def execute : Action → Process ActionResult
  | .call c _ => guarded true (executeCall c)
  | .condition check onTrue onFalse _ _ =>
    guarded false do
      match ← evaluate check with
      | .error e => return callFailure e
      | .ok outcome =>
        let r ← if outcome then executeAll onTrue (.ok .null) else executeAll onFalse (.ok .null)
        -- of the branch that was taken only a failure can be seen
        if r.success then return .ok (.object [("condition_result", .bool outcome)]) else return r
  | .loop interval n body _ =>
    guarded false (runLoop (Span.ofSeconds interval) (executePass body) n 0)
  | .templateMatch s _ => guarded true (executeSearch s)
  | .readText t _ => guarded true (executeReading t)
  | .wait duration _ => guarded true (executeWait (Span.ofSeconds duration))
  | .setVariable name value _ => guarded true (executeAssignment name value)
  | .restart _ => guarded true executeRestart
  | .unsupported kind => guarded true (return .ofError (.unsupportedAction kind))

/-- What a sequence of actions does; its result is that of the last action, or `last` where there
is none. -/
def executeAll : List Action → (last : ActionResult) → Process ActionResult
  | [], last => return last
  | a :: rest, _ => do
    if ← Process.isCancelled then return .cancelled
    else
      let r ← execute a
      if r.success then executeAll rest r else return r

/-- What a pass through the body of a loop does. -/
def executePass : List Action → Process PassEnd
  | [] => return .finished
  | a :: rest => do
    if ← Process.isCancelled then return .cancelled
    else
      let r ← execute a
      if r.success then do
        Process.noteProgress
        -- a condition further inside does not end this loop
        if mayBreak a && isTrueCondition r then return .broken else executePass rest
      else return .failed r

end

end Action

/-! ### Whole scripts -/

/-- How the actions of a script ended. -/
structure RunEnd where
  /-- The state reached. -/
  state : RunState
  /-- How many actions were begun. -/
  executed : Nat
  /-- What the last successful action gave. -/
  result : Value
  /-- The failure that ended the run. -/
  failure : Option Failure
deriving DecidableEq, Repr

def RunEnd.cancelled (executed : Nat) (result : Value) : RunEnd :=
  ⟨.cancelled, executed, result, some ⟨"execution cancelled", .cancelled⟩⟩

/-- What the actions of a script do, after `executed` of them of which the last successful one gave
`result`. The run counts as cancelled if it is so before or behind an action, however the action
ended. -/
def runActions : List Action → (executed : Nat) → (result : Value) → Process RunEnd
  | [], executed, result => return ⟨.completed, executed, result, none⟩
  | a :: rest, executed, result => do
    if ← Process.isCancelled then return .cancelled executed result
    else
      let r ← a.execute
      -- the action counts, but its result does not
      if ← Process.isCancelled then return .cancelled (executed + 1) result
      else
        match r.failure with
        | some f => return ⟨.failed, executed + 1, result, some f⟩
        | none => runActions rest (executed + 1) r.data

end ScriptYard
