import ScriptYard.Command.Perform
import Std.Time.DateTime.Timestamp

/-!
# The program

The program reads the files that its arguments and its configuration name, does what the arguments ask
for (`CommandLine.perform`), shows the text of that and writes the files that have changed.
-/

namespace ScriptYard

namespace Program

/-- The environment variables that are looked at. -/
def vars : List String := ["PATH", "HOME", "LANG"] ++ Configuration.overrides.map (·.name)

def environment : IO Environment := do
  let pairs ← vars.filterMapM fun name => do
    return (← IO.getEnv name).map fun value => (name, value)
  return Fields.ofList pairs

/-- The time of day. -/
def time : IO Instant := do
  return .ofMillis (← Std.Time.Timestamp.now).toMillisecondsSinceUnixEpoch.val

/-- The tree with the file at a path, if there is one. -/
def fetch (files : FileTree) (path : String) : IO FileTree := do
  match ← (IO.FS.readBinFile path).toBaseIO with
  | .ok bytes => return files.add path bytes.toList
  | .error _ => return files

/-- The paths that a command names. -/
def pathsOf : Command → List String
  | .run script _ _ => [script]
  | .validate path _ => [path]
  | .serve library _ => [library]
  | .init name directory _ => [FileTree.join directory (name ++ ".yaml")]
  | .capabilities => []

/-- The file that output goes to, if it does. -/
def outputPath? (l : CommandLine) (files : FileTree) (env : Environment) : Option String := do
  let configuration ← (Configuration.load files env l.config).toOption
  match (l.outputSettings configuration.output).toOption with
  | some ⟨_, .file path _ _⟩ => some path
  | _ => none

/-- The files that matter for a command line. -/
def gather (l : CommandLine) (env : Environment) : IO FileTree := do
  let files ← (l.config.toList ++ Configuration.usualPaths env ++ pathsOf l.command).foldlM fetch {}
  match outputPath? l files env with
  | some path => fetch files path
  | none => return files

/-- The path of a place. -/
def pathOf : List String → String
  | "/" :: parts => FileTree.rootPath parts
  | parts => "/".intercalate parts

/-- Writes what stands in a tree and did not stand in an earlier one. -/
def store (before after : FileTree) : IO Unit := do
  for (place, entry) in after.entries.reverse do
    if before.entry? place != some entry then
      match entry with
      | .directory => IO.FS.createDirAll (pathOf place)
      | .file bytes => IO.FS.writeBinFile (pathOf place) ⟨bytes.toArray⟩
      | .device _ => pure ()

/-- How arguments are used. -/
def usage : String :=
  "Usage: autoscript [OPTIONS] <COMMAND>\n\n" ++
  "Commands:\n" ++
  "  run <SCRIPT> [-V <NAME=VALUE>]... [-g <GROUP>]\n" ++
  "  validate <PATH> [--library]\n" ++
  "  serve <LIBRARY> [--duration <DURATION>]\n" ++
  "  init <NAME> [-d <OUTPUT_DIR>] [--template <TEMPLATE>]\n" ++
  "  capabilities\n\n" ++
  "Options: -v, -c <CONFIG>, --no-color, -o <OUTPUT>, -f <FORMAT>, -h, -V"

/-- Does what a command line asks for. The answer is the exit code. -/
def perform (l : CommandLine) : IO UInt32 := do
  let env ← environment
  let files ← gather l env
  let surroundings : Surroundings := { environment := env, time := ← time }
  let (result, terminal) := (l.perform surroundings).run.run { files := files }
  IO.print terminal.shown
  store files terminal.files
  match result with
  | .ok _ => return 0
  | .error e =>
    IO.eprintln ("Error: " ++ e.message)
    return 1

end Program

end ScriptYard

/-- Runs the program with its arguments. -/
def main (args : List String) : IO UInt32 := do
  match ScriptYard.CommandLine.read args with
  | .ok l => ScriptYard.Program.perform l
  | .error .help =>
    IO.println ScriptYard.Program.usage
    return 0
  | .error .version =>
    IO.println "autoscript 0.1.0"
    return 0
  | .error .unfit =>
    IO.eprintln ScriptYard.Program.usage
    return 2
