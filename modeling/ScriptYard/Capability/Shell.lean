import ScriptYard.Capability.Registry
import ScriptYard.Json.Writer
import ScriptYard.Script.Definition
import ScriptYard.Shell.Evaluation
import ScriptYard.Text

/-!
# The shell capability

`ShellCapability.invoke` starts a local program for the action `exec` and tells how it ended and
what it wrote; the action `echo` only gives back its message. A program counts as failed if its exit
code is not among the expected ones or if it takes too long.
-/

namespace ScriptYard.ShellCapability

open Shell

/-- What the capability says about itself. -/
def profile : CapabilityProfile where
  name := "shell"
  description := "Runs local processes (adb, scrcpy helpers, scripts) and captures their output"
  platforms := ["linux", "macos", "windows"]
  actions := ["exec", "echo"]

/-- The parameters of the action `exec`. -/
structure ExecParams where
  /-- The program. -/
  command : String := ""
  /-- Its arguments. -/
  args : List Value := []
  /-- Variables of its environment. -/
  env : Fields String := []
  /-- The directory it is started in. -/
  workingDir : Option String := none
  /-- How many seconds it may take. -/
  timeoutSeconds : Nat := 300
  /-- The exit codes that count as success. -/
  expectedCodes : List Int := [0]
deriving Repr, Inhabited

/-- The environment of a program. -/
def readEnvironment (src : Source) (n : Node) : Reading (Fields String) := do
  (← n.readFields src).mapM fun f => do return (f.1, ← f.2.readText)

/-- The fields of the parameters. -/
def ExecParams.shape : RecordShape ExecParams where
  blank := {}
  fields := [
    .text "command" true (fun v p => { p with command := v }),
    ⟨"args", false, fun src n p => do
      return { p with args := ← Node.readList (fun src n => n.readValue src) src n }⟩,
    ⟨"env", false, fun src n p => do return { p with env := ← readEnvironment src n }⟩,
    .optionalText "working_dir" (fun v p => { p with workingDir := v }),
    ⟨"timeout_seconds", false, fun _ n p => do return { p with timeoutSeconds := ← n.readNat 64 }⟩,
    ⟨"expected_exit_codes", false, fun src n p => do
      return { p with expectedCodes :=
        ← Node.readList (fun _ n => n.readInt (-(twoTo 31)) (twoTo 31 - 1)) src n }⟩]

/-- The text of an argument: a string as it is, nothing for null, else JSON. -/
def argumentText : Value → String
  | .string s => s
  | .null => ""
  | v => Json.compact v

/-! ### Programs -/

/-- Why a program cannot be started. -/
inductive StartFault where
  /-- The program or its directory is not there. -/
  | notFound
  /-- It is not a program. -/
  | denied
  /-- Its directory is a file. -/
  | notDirectory
  /-- A text holds the character that ends texts. -/
  | endOfText
deriving DecidableEq, Repr

/-- The text of the fault. -/
def StartFault.message : StartFault → String
  | .notFound => FileFault.notFound.message
  | .denied => FileFault.denied.message
  | .notDirectory => FileFault.notDirectory.message
  | .endOfText => "nul byte found in provided data"

/-- Whether a text cannot be handed to a program. -/
def holdsEnd (s : String) : Bool := s.toList.contains '\x00'

def StartFault.ofFile : FileFault → StartFault
  | .denied | .isDirectory => .denied
  | .notDirectory => .notDirectory
  | _ => .notFound

/-- Where the program is started, or why it cannot be. -/
def enter (m : Machine) (dir : Option String) : Except StartFault Machine :=
  match dir with
  | none => .ok m
  | some dir => (m.enter dir).mapError StartFault.ofFile

/-- Starts a program and waits for its end. -/
def start (m : Machine) (p : ExecParams) : Except StartFault ProgramEnd := do
  let args := p.args.map argumentText
  let texts := p.command :: args ++ p.workingDir.toList
  if texts.any holdsEnd || p.env.any (fun e => holdsEnd e.1 || holdsEnd e.2) then throw .endOfText
  let m ← enter { m with environment := m.environment.extend p.env } p.workingDir
  (m.start (.ofSecs p.timeoutSeconds) p.command args).mapError StartFault.ofFile

/-- Nothing in front of an empty text, and a colon in front of any other. -/
def afterColon (text : String) : String := if text.isEmpty then "" else ": " ++ text

/-- The action `exec`, and the machine behind it. -/
def exec (m : Machine) (p : ExecParams) : Except CapabilityError Value × Machine :=
  if isBlankText p.command then
    (.error (.invalidParams "shell" "exec" "command cannot be empty"), m)
  else match start { m with elapsed := .zero } p with
    | .error f =>
      (.error (.actionFailed ("Failed to execute '" ++ p.command ++ "': " ++ f.message)), m)
    | .ok e =>
      -- what was written to files stays, even if the time was up
      let after := { m with files := e.machine.files }
      if p.timeoutSeconds = 0 || Span.ofSecs p.timeoutSeconds ≤ e.machine.elapsed then
        (.error (.actionFailed ("Command '" ++ p.command ++ "' timed out after " ++
          integerText p.timeoutSeconds ++ " seconds")), after)
      else
        -- a process that was killed has no code of its own
        let code : Int := if e.killed then -1 else e.code
        let err := decodeUtf8 (e.written.to 2)
        if p.expectedCodes.contains code then
          (.ok (.object [("exit_code", .int code), ("stderr", .string err),
            ("stdout", .string (decodeUtf8 (e.written.to 1)))]), after)
        else
          (.error (.actionFailed ("Command exited with unexpected code: " ++ integerText code ++
            " (expected one of: [" ++ ", ".intercalate (p.expectedCodes.map integerText) ++ "])" ++
            afterColon (trimBlanks err))), after)

/-- Invokes an action. The answer is its outcome, and the machine behind it. -/
def invoke (m : Machine) (action : String) (params : Fields Value) :
    Except CapabilityError Value × Machine :=
  match action with
  | "exec" => match ExecParams.shape.ofValue (.object params) with
    | .ok p => exec m p
    | .error e => (.error (.invalidParams "shell" "exec" e.message), m)
  | "echo" => (.ok ((params.get? "message").getD .null), m)
  | other => (.error (.unsupportedAction "shell" other), m)

end ScriptYard.ShellCapability
