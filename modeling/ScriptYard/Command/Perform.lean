import ScriptYard.Command.Configuration
import ScriptYard.Command.Line
import ScriptYard.Command.Template
import ScriptYard.Rehearsal.Description
import ScriptYard.Rehearsal.Session
import ScriptYard.Script.Parse
import ScriptYard.Script.Validation

/-!
# What commands do

`CommandLine.perform` does what a command line asks for: it loads the configuration, and then runs a
script, validates a script or a library, serves a library, writes a new script or lists the
capabilities. What is left behind is a `Terminal`, the files and the text shown, whether or not the
command ended with an error.

Commands have the shell as their only capability, and a clock that does not wait.
-/

namespace ScriptYard

/-- Why a command fails. -/
inductive CommandError where
  /-- There is no configuration. -/
  | configuration (cause : ConfigurationError)
  /-- Output cannot be set up. -/
  | output (cause : OutputError)
  /-- A text is no binding of a variable. -/
  | notABinding (text : String)
  /-- The script to be run cannot be had. -/
  | noScript (cause : ScriptError)
  /-- The script to be run is not valid. -/
  | unfitScript (script : String)
  /-- The run of the script did not succeed. -/
  | runEnded (script : String) (state : RunState)
  /-- The report of the run cannot be written. -/
  | reportNotWritten
  /-- The script to be validated cannot be had. -/
  | noScriptToValidate (cause : ScriptError)
  /-- The library to be validated cannot be had. -/
  | noLibraryToValidate (cause : ScriptError)
  /-- What was validated is not valid. -/
  | invalid (path : String)
  /-- The library to be served cannot be had. -/
  | noLibrary (cause : ScriptError)
  /-- The library to be served is not valid. -/
  | unfitLibrary (path : String)
  /-- The engine refused something. -/
  | engine (cause : EngineError)
  /-- The statuses of the queues cannot be written. -/
  | statusNotWritten
  /-- The list of capabilities cannot be written. -/
  | listNotWritten
  /-- The new script would take the place of a file. -/
  | scriptExists (path : String)
  /-- No template has this name. -/
  | unknownTemplate (template : String)
  /-- A file or directory cannot be made. -/
  | file (fault : FileFault)
deriving DecidableEq, Repr

/-- The text of the error. -/
def CommandError.message : CommandError → String
  | .configuration cause => cause.message
  | .output cause => cause.message
  | .notABinding text => "Invalid variable format '" ++ text ++ "'. Expected 'name=value'"
  | .noScript cause => "Failed to parse script: " ++ cause.message
  | .unfitScript script => "Script '" ++ script ++ "' failed validation"
  | .runEnded script state => "Script '" ++ script ++ "' finished with state " ++ state.name
  | .reportNotWritten => "Failed to write execution report"
  | .noScriptToValidate cause => "Script validation failed: " ++ cause.message
  | .noLibraryToValidate cause => "Library validation failed: " ++ cause.message
  | .invalid path => "Validation failed for " ++ path
  | .noLibrary cause => "Failed to load library: " ++ cause.message
  | .unfitLibrary path => "Library " ++ path ++ " failed validation"
  | .engine cause => cause.message
  | .statusNotWritten => "Failed to write queue status"
  | .listNotWritten => "Failed to write capability list"
  | .scriptExists path => "Script file already exists: " ++ path
  | .unknownTemplate template => "Unknown template type: " ++ template
  | .file fault => fault.message

/-! ### Bindings -/

/-- The variable and value of a binding: what stands in front of the first equals sign and behind
it. The value is read as JSON if it is JSON, and is a text otherwise. -/
def readBinding? (text : String) : Option (String × Value) :=
  let cs := text.toList
  match cs.dropWhile (· != '=') with
  | [] => none
  | _ :: rest =>
    let value := String.ofList rest
    some (String.ofList (cs.takeWhile (· != '=')), match Json.parse value with
      | .ok v => v
      | .error _ => .string value)

/-- The variables of bindings, the last binding of a name counting. -/
def readBindings (texts : List String) : Except CommandError Variables := do
  let pairs ← texts.mapM fun t => match readBinding? t with
    | some pair => .ok pair
    | none => .error (.notABinding t)
  return Fields.ofList pairs

/-! ### Serving -/

/-- Queues a script that is to be started with its library, in its group or else in the default
group, which is created where there is none. -/
def Engine.autostart (e : Engine) (l : ScriptLibrary) (defaultGroup : String) (now : Instant)
    (s : ScriptDefinition) : Except EngineError Engine := do
  let group := s.group.getD defaultGroup
  let e ← if (l.group? group).isNone && (e.queue? group).isNone then e.createGroup group group else pure e
  let (_, e) ← e.submitScript group s.id none now
  return e

/-- Sets an engine up for a library: its scripts and groups, and a task for every script that is to be
started with it. -/
def Engine.serve (e : Engine) (l : ScriptLibrary) (defaultGroup : String) (now : Instant) :
    Except EngineError Engine := do
  match e.loadLibrary l with
  | (.error err, _) => throw err
  | (.ok _, e) => l.autostartScripts.foldlM (fun e s => e.autostart l defaultGroup now s) e

/-! ### Commands -/

/-- What the program finds when it is started. -/
structure Surroundings where
  /-- The variables of the environment. -/
  environment : Environment := []
  /-- The time of day. -/
  time : Instant := .ofMillis 0
  /-- How long it takes until somebody interrupts a command that would go on for ever. -/
  patience : Span := .zero
deriving Inhabited

/-- What a command does with a terminal until it ends or fails. -/
abbrev CommandRun : Type → Type := ExceptT CommandError (StateM Terminal)

namespace CommandRun

/-- Shows a line. -/
def print (line : String) : CommandRun Unit := modify (·.print line)

/-- The outcome of something, with its error as that of the command. -/
def ofExcept {ε α : Type} (error : ε → CommandError) : Except ε α → CommandRun α
  | .ok a => return a
  | .error e => throw (error e)

/-- Puts out a value. -/
def emit (output : OutputSettings) (v : Value) (error : CommandError) : CommandRun Unit := do
  set (← ofExcept (fun _ => error) (output.emit (← get) v))

/-- Shows the report on a validation. -/
def printReport (subject : String) (r : ValidationReport) : CommandRun Unit := do
  for w in r.warnings do print ("  warning: " ++ w.message)
  for e in r.errors do print ("  error: " ++ e.message)
  if r.isValid then print ("✓ " ++ subject ++ " is valid")
  else print ("✗ " ++ subject ++ " has " ++ integerText r.errors.length ++ " error(s)")

end CommandRun

/-- How long runs may go on when serving ends. -/
def shutdownGrace : Span := .ofSecs 10

/-- What a command works with. -/
structure CommandSetting where
  configuration : Configuration
  /-- Where output goes. -/
  output : OutputSettings
  /-- What the program found when it was started. -/
  surroundings : Surroundings

namespace CommandSetting

open CommandRun

/-- The capabilities of commands. -/
def capabilities : CapabilityRegistry RehearsalDriver :=
  CapabilityRegistry.initializeAll (.register [] RehearsalDriver.shellCapability)

/-- What validates scripts. -/
def validator (c : CommandSetting) : Validator where
  capabilities := some capabilities.actions
  stallThreshold := some c.configuration.engine.stallThreshold

/-- A session with an engine and the files of the terminal. -/
def session (c : CommandSetting) : CommandRun Session := do
  let machine : Shell.Machine := {}
  return {
    engine := { settings := c.configuration.engine }
    rehearsal := { capabilities := capabilities, machine := { machine with
      files := (← get).files
      environment := machine.environment.extend c.surroundings.environment } }
    clock := ⟨0, c.surroundings.time⟩ }

/-- Keeps the files that programs left behind in a session. -/
def keepFiles (s : Session) : CommandRun Unit :=
  modify fun t => { t with files := s.rehearsal.machine.files }

/-- Runs a script once. -/
def run (c : CommandSetting) (path : String) (bindings : List String) (group : Option String) :
    CommandRun Unit := do
  let vars ← ofExcept id (readBindings bindings)
  let script ← ofExcept .noScript (ScriptDefinition.ofFile (← get).files path)
  let validation := c.validator.check script
  if !validation.isValid then
    printReport script.id validation
    throw (.unfitScript script.id)
  -- what the command line binds goes over what the script does
  let script := { script with
    vars := script.vars.extend vars
    group := some ((group.or script.group).getD c.configuration.defaultGroup) }
  let session ← c.session
  match session.playRun (session.engine.openScript script session.clock) with
  | (none, _) => return
  | (some report, session) =>
    -- the files stay as the run left them, whatever it came to
    keepFiles session
    print report.summary
    emit c.output report.toValue .reportNotWritten
    if !report.isSuccessful then throw (.runEnded report.script report.state)

/-- Validates a script or a library. -/
def validate (c : CommandSetting) (path : String) (isLibrary : Bool) : CommandRun Unit := do
  let files := (← get).files
  let report ← if isLibrary then do
      let l ← ofExcept .noLibraryToValidate (ScriptLibrary.ofFile files path)
      let report := c.validator.checkLibrary l
      printReport ("Library " ++ path ++ " (" ++ integerText l.groups.length ++ " group(s), " ++
        integerText l.scripts.length ++ " script(s))") report
      pure report
    else do
      let s ← ofExcept .noScriptToValidate (ScriptDefinition.ofFile files path)
      let report := c.validator.check s
      printReport ("Script '" ++ s.id ++ "' (" ++ integerText s.actions.length ++ " action(s))") report
      pure report
  if !report.isValid then throw (.invalid path)

/-- Serves a library for some time. -/
def serve (c : CommandSetting) (path : String) (duration : Option Span) : CommandRun Unit := do
  let l ← ofExcept .noLibrary (ScriptLibrary.ofFile (← get).files path)
  let report := c.validator.checkLibrary l
  if !report.isValid then
    printReport path report
    throw (.unfitLibrary path)
  let session ← c.session
  let engine ← ofExcept .engine
    (session.engine.serve l c.configuration.defaultGroup session.clock.time)
  let session ← ofExcept .engine (session.step engine).start
  let limit := duration.getD c.surroundings.patience
  let session := if limit = .zero then session
    else session.waitUntil (session.clock.moment + limit.millisUp) fun _ => false
  -- the queues are shown as they are before the shutdown cancels what is in them
  let statuses := session.engine.statuses
  let (shutdown, session) := session.shutdown shutdownGrace
  keepFiles session
  emit c.output (.array (statuses.map (·.toValue))) .statusNotWritten
  -- a shutdown that took too long is told last
  ofExcept .engine shutdown

/-- Writes a new script after a template. -/
def init (name directory template : String) : CommandRun Unit := do
  let files := (← get).files
  let files ← if files.holds directory then pure files
    else ofExcept .file (files.makeDirectories directory)
  modify fun t => { t with files := files }
  -- the directory stays, even if no file comes into it
  let path := FileTree.join directory (name ++ ".yaml")
  if files.holds path then throw (.scriptExists path)
  match ScriptTemplate.ofName? template with
  | none => throw (.unknownTemplate template)
  | some t =>
    let files ← ofExcept .file (files.write path (t.text name))
    modify fun terminal => { terminal with files := files }
    print ("Created script file: " ++ path)

/-- Lists the capabilities. -/
def list (c : CommandSetting) : CommandRun Unit :=
  emit c.output (.array (capabilities.list.map (·.toValue))) .listNotWritten

/-- Does what a command asks for. -/
def perform (c : CommandSetting) : Command → CommandRun Unit
  | .run script bindings group => c.run script bindings group
  | .validate path isLibrary => c.validate path isLibrary
  | .serve library duration => c.serve library duration
  | .init name directory template => init name directory template
  | .capabilities => c.list

end CommandSetting

namespace CommandLine

/-- The output of a configuration, unless the command line asks for other. -/
def outputSettings (l : CommandLine) (base : OutputSettings) : Except OutputError OutputSettings := do
  let format ← match l.format with
    | some text => OutputFormat.ofText text
    | none => pure base.format
  return ⟨format, match l.output with
    | some path => .file path true false
    | none => base.destination⟩

/-- Does what a command line asks for. -/
def perform (l : CommandLine) (s : Surroundings) : CommandRun Unit := do
  let configuration ← CommandRun.ofExcept .configuration
    (Configuration.load (← get).files s.environment l.config)
  let output ← CommandRun.ofExcept .output (l.outputSettings configuration.output)
  CommandSetting.perform ⟨configuration, output, s⟩ l.command

end CommandLine

end ScriptYard
