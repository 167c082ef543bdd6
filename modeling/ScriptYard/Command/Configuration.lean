import ScriptYard.Engine.Settings
import ScriptYard.Output.Destination
import ScriptYard.Yaml.Tree

/-!
# Configuration

A `Configuration` holds the settings of the engine, of output and of logging, and the group of
scripts that name none. It is read from a YAML file, if there is one in one of the usual places,
and then environment variables override single settings (`Configuration.override`), one after the
other up to the first that is unfit.
-/

namespace ScriptYard

/-- How the program keeps its log. -/
structure LoggingSettings where
  /-- The level from which messages count. -/
  level : String := "info"
  /-- The layout of messages. -/
  format : String := "pretty"
deriving DecidableEq, Repr, Inhabited

namespace LoggingSettings

/-- The fields of the settings in a document. -/
def shape : RecordShape LoggingSettings where
  blank := {}
  fields := [
    .text "level" true (fun v s => { s with level := v }),
    .text "format" true (fun v s => { s with format := v })]

end LoggingSettings

/-- All settings of the program. -/
structure Configuration where
  /-- The group of scripts that name none. -/
  defaultGroup : String := "default"
  engine : EngineSettings := {}
  output : OutputSettings := {}
  /-- The settings of the log. -/
  logging : LoggingSettings := {}
deriving DecidableEq, Repr, Inhabited

/-- Why there is no configuration. -/
inductive ConfigurationError where
  /-- The file cannot be read. -/
  | unreadable (path : String)
  /-- The file does not hold a configuration. -/
  | invalid (path : String)
  /-- The environment variable has to be an integer but has another value. -/
  | notAnInteger (name value : String)
deriving DecidableEq, Repr

/-- The text of the error. -/
def ConfigurationError.message : ConfigurationError → String
  | .unreadable path => "Failed to read config " ++ path
  | .invalid path => "Invalid config " ++ path
  | .notAnInteger name value => name ++ " must be an integer, got '" ++ value ++ "'"

/-- The values of environment variables. -/
abbrev Environment := Fields String

/-- A natural number below `2 ^ bits` in decimal digits, with a plus sign in front or not. -/
def readWord? (bits : Nat) (text : String) : Option Nat :=
  let digits := match text.toList with
    | '+' :: rest => rest
    | cs => cs
  (Plain.readNatural? 10 digits).filter (· < twoTo bits)

namespace Configuration

/-- The fields of a configuration in a document. -/
def shape : RecordShape Configuration where
  blank := {}
  fields := [
    .text "default_group" false (fun v c => { c with defaultGroup := v }),
    ⟨"engine", false, fun src n c => do return { c with engine := ← EngineSettings.shape.read src n }⟩,
    ⟨"output", false, fun src n c => do return { c with output := ← OutputSettings.shape.read src n }⟩,
    ⟨"logging", false, fun src n c => do return { c with logging := ← LoggingSettings.shape.read src n }⟩]

/-- The object of a configuration. -/
def toValue (c : Configuration) : Value :=
  .object [("default_group", .string c.defaultGroup), ("engine", c.engine.toValue),
    ("logging", .object [("format", .string c.logging.format), ("level", .string c.logging.level)]),
    ("output", c.output.toValue)]

/-- The configuration of a YAML text. -/
def parse (text : String) : Except ReadError Configuration :=
  (Yaml.readDocument text).read (shape.read .yaml)

/-! ### The environment -/

/-- An environment variable and what its value changes. -/
structure Override where
  /-- The name of the variable. -/
  name : String
  /-- The configuration changed by a value, unless the value is unfit. -/
  apply : String → Configuration → Option Configuration

/-- The environment variables that count, in the order in which they do. -/
def overrides : List Override := [
  ⟨"AUTOSCRIPT_LOG_LEVEL", fun v c => some { c with logging := { c.logging with level := v } }⟩,
  ⟨"AUTOSCRIPT_LOG_FORMAT", fun v c => some { c with logging := { c.logging with format := v } }⟩,
  ⟨"AUTOSCRIPT_TICK_MS", fun v c => (readWord? 64 v).map fun n =>
    { c with engine := { c.engine with schedulerTick := .ofMillis n } }⟩,
  ⟨"AUTOSCRIPT_STALL_THRESHOLD_SECS", fun v c => (readWord? 64 v).map fun n =>
    { c with engine := { c.engine with ownStallThreshold := some (.ofSecs n) } }⟩,
  ⟨"AUTOSCRIPT_MAX_RETRIES", fun v c => (readWord? 32 v).map fun n =>
    { c with engine := { c.engine with defaultMaxRetries := n } }⟩]

/-- Applies overrides in order. The answer is the configuration reached, and the error that ended
the application, if one did. -/
def applyAll (env : Environment) : List Override → Configuration → Configuration × Option ConfigurationError
  | [], c => (c, none)
  | o :: rest, c =>
    match env.get? o.name with
    | none => applyAll env rest c
    | some value => match o.apply value c with
      | some c => applyAll env rest c
      | none => (c, some (.notAnInteger o.name value))

/-- The configuration under an environment, and the error that ended its application, if one did. -/
def override (c : Configuration) (env : Environment) : Configuration × Option ConfigurationError :=
  applyAll env overrides c

/-! ### The file -/

/-- The places where a configuration file is looked for, in order; the last one is in the home
directory. -/
def usualPaths (env : Environment) : List String :=
  ["autoscript.yaml", "autoscript.yml", ".autoscript.yaml", ".autoscript.yml",
    FileTree.join ((env.get? "HOME").getD "") ".autoscript/config.yaml"]

/-- The configuration of the file at a path, or of the first file in a usual place. A file that is
not there counts as an empty one. -/
def load (files : FileTree) (env : Environment) (path : Option String) :
    Except ConfigurationError Configuration := do
  let path := match path with
    | some p => some p
    | none => (usualPaths env).find? files.holds
  let base ← match path.filter files.holds with
    | none => pure {}
    | some p => match files.readText p with
      | .error _ => throw (.unreadable p)
      | .ok text => match parse text with
        | .ok c => pure c
        | .error _ => throw (.invalid p)
  -- the environment goes over the file
  match base.override env with
  | (c, none) => return c
  | (_, some e) => throw e

end Configuration

end ScriptYard
