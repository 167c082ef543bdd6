import ScriptYard.Command.Arguments
import ScriptYard.Time.Span

/-!
# Command lines

A `CommandLine` is what the arguments of the program ask for: one of its commands, and settings that
may stand in front of the command or behind it. Where such a setting stands in both places, the one
behind counts.
-/

namespace ScriptYard

/-- A command of the program. -/
inductive Command where
  /-- Runs a script once. -/
  | run (script : String) (bindings : List String) (group : Option String)
  /-- Validates a script or a library. -/
  | validate (path : String) (isLibrary : Bool)
  /-- Runs the queues of a library for some time, or until somebody interrupts it. -/
  | serve (library : String) (duration : Option Span)
  /-- Writes a new script after a template. -/
  | init (name directory template : String)
  /-- Lists the capabilities. -/
  | capabilities
deriving DecidableEq, Repr, Inhabited

/-- What arguments ask for. -/
structure CommandLine where
  command : Command
  /-- Whether the log tells everything. -/
  verbose : Bool := false
  /-- The configuration file. -/
  config : Option String := none
  /-- Whether the log has no colours. -/
  noColor : Bool := false
  /-- The file that output goes to. -/
  output : Option String := none
  /-- The format of output. -/
  format : Option String := none
deriving DecidableEq, Repr, Inhabited

namespace CommandLine

/-- A path, which may not be empty. -/
def isPath (text : String) : Bool := !text.isEmpty

/-- The option that asks for help. -/
def helpOption : OptionRule := ⟨"help", some 'h', .help, fun _ => true⟩

/-- The options that may stand in front of a command or behind it. -/
def sharedOptions : List OptionRule := [
  ⟨"verbose", some 'v', .switch, fun _ => true⟩,
  ⟨"config", some 'c', .once, isPath⟩,
  ⟨"no-color", none, .switch, fun _ => true⟩,
  ⟨"output", some 'o', .once, isPath⟩,
  ⟨"format", some 'f', .once, fun _ => true⟩,
  helpOption]

/-- The rules in front of a command. -/
def grammar : Grammar where
  options := sharedOptions ++ [⟨"version", some 'V', .version, fun _ => true⟩]
  commands := ["run", "validate", "serve", "init", "capabilities", "help"]

/-- The rules behind a command. -/
def commandGrammar : String → Grammar
  | "run" => ⟨sharedOptions ++ [⟨"var", some 'V', .often, fun _ => true⟩,
      ⟨"group", some 'g', .once, fun _ => true⟩], [⟨"script", isPath⟩], []⟩
  | "validate" => ⟨sharedOptions ++ [⟨"library", none, .switch, fun _ => true⟩], [⟨"path", isPath⟩], []⟩
  | "serve" => ⟨sharedOptions ++ [⟨"duration", none, .once, fun v => (Span.read? v).isSome⟩],
      [⟨"path", isPath⟩], []⟩
  | "init" => ⟨sharedOptions ++ [⟨"output-dir", some 'd', .once, isPath⟩,
      ⟨"template", none, .once, fun _ => true⟩], [⟨"name", fun _ => true⟩], []⟩
  | _ => ⟨sharedOptions, [], []⟩

/-- The command of a name, with what was read behind it. -/
def commandOf (name : String) (r : LineReading) : Command :=
  let text (name : String) : String := (r.value? name).getD ""
  match name with
  | "run" => .run (text "script") (r.values "var") (r.value? "group")
  | "validate" => .validate (text "path") (r.has "library")
  | "serve" => .serve (text "path") ((r.value? "duration").bind Span.read?)
  | "init" => .init (text "name") ((r.value? "output-dir").getD ".") ((r.value? "template").getD "basic")
  | _ => .capabilities

/-- What arguments behind the word `help` come to: help on the program or on one command. -/
def helpFault : List String → UsageFault
  | [] => .help
  | [command] => if grammar.commands.contains command then .help else .unfit
  | _ => .unfit

/-- The command line of arguments. Without any argument that counts, help is given. -/
def read (args : List String) : Except UsageFault CommandLine := do
  let (front, rest) ← grammar.read args
  match rest with
  | none =>
    let front ← front.settle
    throw (if front.given.isEmpty then .help else .unfit)
  | some ("help", rest) => throw (helpFault rest)
  | some (name, rest) =>
    let (back, _) ← (commandGrammar name).read rest
    let back ← back.finish
    let front ← front.settle
    -- an option behind the command goes over the same one in front of it
    let shared (name : String) : Option String := (back.value? name).or (front.value? name)
    return {
      command := commandOf name back
      verbose := back.has "verbose" || front.has "verbose"
      config := shared "config"
      noColor := back.has "no-color" || front.has "no-color"
      output := shared "output"
      format := shared "format" }

end CommandLine

end ScriptYard
