import ScriptYard.Shell.Builtins
import ScriptYard.Shell.Expansion
import ScriptYard.Shell.Reader
import ScriptYard.Shell.Tools

/-!
# Running statements and programs

What commands, pipelines and statements do, and what the programs do that start others. Everything here
takes a `Runner`, which runs the statements and programs inside of others, as an argument; `runner` ties
the knot, and its number bounds how deep they may stand in each other. The rounds of a loop are counted
against a limit of their own, and a loop that reaches it is taken never to end.
-/

namespace ScriptYard.Shell

/-- What runs the statements and programs inside of others. -/
structure Runner where
  /-- Runs statements one after the other. -/
  statements : List Statement → Work Unit
  /-- Runs a program with arguments, or does something else if it cannot be found. The answer is the
  number of the signal that ended it. -/
  program : (missing : FileFault → Work Unit) → String → List String → Work (Option Nat)

namespace Runner

/-! ### Texts of statements -/

/-- Runs the statements of a text line by line, and tells whether there were any. -/
def runLines (r : Runner) : (fuel : Nat) → Source → Work Bool
  | 0, _ => return false
  | fuel + 1, source => do
    match readLine? source with
    | .error (line, f) => do
      Work.complainAt line ("Syntax error: " ++ f.message)
      Work.ends 2
      throw .fault
    | .ok none => return false
    | .ok (some (statements, rest)) => do
      if !(← get).options.contains 'n' then r.statements statements
      let more ← runLines r fuel rest
      return more || !statements.isEmpty

/-- Runs the statements of a text; without any the text succeeds. -/
def runText (r : Runner) (text : String) : Work Unit := do
  let any ← r.runLines (text.length + 1) { rest := text.toList }
  if !any then Work.ends 0

/-- Does something to the end of a shell, with what is to be done at the end. -/
def conclude (r : Runner) (work : Work Unit) : Work Unit := do
  try work catch _ => pure ()
  let s ← get
  match s.killed, s.traps.get? "EXIT" with
  | none, some action => do
    set { s with traps := s.traps.erase "EXIT", running := none }
    -- only leaving the shell changes how it ends
    try
      r.runText action
      Work.ends s.status
    catch _ => pure ()
  | _, _ => pure ()

/-- Does something in a shell of its own, to its end. -/
def inSubshell (r : Runner) (work : Work Unit) : Work Unit := Work.apart (r.conclude work)

/-- Runs statements whose output is asked for. -/
def substitute (r : Runner) (body : List Statement) : Work Unit := r.conclude do
  modify fun s => { s with tested := false }
  r.statements body

/-! ### Inputs and outputs -/

/-- The input or output that a path stands for by another name. -/
def standardNumber? (path : String) : Option Nat :=
  match path with
  | "/dev/stdin" => some 0
  | "/dev/stdout" => some 1
  | "/dev/stderr" => some 2
  | path => if path.startsWith "/dev/fd/" then (String.ofList (path.toList.drop 8)).toNat? else none

/-- Lets a number stand for a channel. -/
def connect (number : Nat) (c : Option Channel) : Work (Option String) := do
  modify fun s => s.setChannel number c
  return none

/-- Lets the output of a number go to a file. -/
def openOutput (number : Nat) (append : Bool) (path : String) : Work (Option String) := do
  let s ← get
  match standardNumber? path with
  | some n => connect number (s.channel? n)
  | none =>
    let files := s.machine.files
    match files.target path with
    | .ok (_, .device takes) => connect number (some (.device takes))
    | .ok (place, entry) => match files.store [] append (place, entry) with
      | .ok files => do
        set { s with machine := { s.machine with files := files } }
        connect number (some (.file place))
      | .error f => return some ("cannot create " ++ path ++ ": " ++ faultText f)
    | .error f => return some ("cannot create " ++ path ++ ": " ++
        (if f == .notFound || f == .notDirectory then "Directory nonexistent" else faultText f))

/-- Lets the input of a number come from a text. -/
def openText (number : Nat) (text : InputText) : Work (Option String) := do
  let (n, s) := (← get).addSource text
  set s
  connect number (some (.source n))

/-- Carries out a redirection. The answer is the text of the fault that keeps it from being done. -/
def redirect (r : Runner) : Redirect → Work (Option String)
  | .toFile number append path => do openOutput number append (← expandText r.substitute path)
  | .fromFile number path => do
    let path ← expandText r.substitute path
    let s ← get
    match standardNumber? path, s.machine.files.readBytes path with
    | some n, _ => connect number (s.channel? n)
    | none, .ok bytes => openText number { rest := bytes, isFile := true }
    | none, .error .isDirectory => openText number {}
    | none, .error f => return some ("cannot open " ++ path ++ ": " ++
        (if f == .notFound || f == .notDirectory then "No such file" else faultText f))
  | .duplicate number source => do
    let text ← expandText r.substitute source
    if text == "-" then connect number none
    else if text.isEmpty || !text.toList.all Char.isDigit then Work.fault "Syntax error: Bad fd number"
    else match (← get).channel? (valueOfDigits 10 text.toList) with
      | some c => connect number (some c)
      | none => return some (text ++ ": Bad file descriptor")
  | .document number text => do
    let text := glyphText (← expandGlyphs r.substitute wordDepth text)
    openText number { rest := bytesOf text }

/-- Leaves the shell if its options ask for that and the last command failed unasked. -/
def leaveOnFailure : Work Unit := do
  let s ← get
  if s.status != 0 && s.options.contains 'e' && !s.tested then throw .shell

/-- Carries out redirections in order up to one that fails. -/
def redirectAll (r : Runner) : List Redirect → Work (Option String)
  | [] => return none
  | first :: rest => do
    match ← r.redirect first with
    | some text => return some text
    | none => r.redirectAll rest

/-- Does something behind redirections. If one of them fails it is not done, and for a special command the
shell ends. -/
def behindRedirects (r : Runner) (redirects : List Redirect) (special : Bool) (work : Work Unit) : Work Unit :=
  Work.keepingChannels do
    match ← r.redirectAll redirects with
    | none => work
    | some text =>
      Work.complain text
      Work.ends 2
      if special then throw .fault
      leaveOnFailure

/-! ### Programs that start others -/

/-- The time that the start of a shell in a shell takes, which what runs besides it may be ahead by. -/
def shellStart : Span := ⟨200000⟩

/-- The time that a command takes. -/
def commandTime : Span := ⟨20000⟩

/-- The time that the start of a program takes. -/
def programStart : Span := ⟨1000000⟩

/-- Lets time pass until a span of it is over, if it is not yet. -/
def limitTime (start : Span) (limit : Span) : Work Bool := do
  let s ← get
  if s.machine.elapsed.nanos ≤ start.nanos + limit.nanos then return false
  else
    set { s with machine := { s.machine with elapsed := ⟨start.nanos + limit.nanos⟩ } }
    return true

def runTool (tool : Call → Report) (command : String) (args : List String) : Work Unit := do
  let s ← get
  let input := s.inputText 0
  let call : Call := ⟨s.programMachine [], command, args, input.rest, input.isFile⟩
  let e := (tool call).ending
  set { s with machine := { e.machine with environment := s.machine.environment }, status := e.code }
  match e.unread with
  | some rest => modify (·.setInput 0 rest)
  | none => pure ()
  if command == "cat" && (s.channel? 1).isNone then
    Work.say 2 "cat: standard output: Bad file descriptor\n"
    Work.ends 1
    return
  for (number, bytes) in e.written do
    match ← Work.write number bytes with
    | some text =>
      if number == 1 then
        Work.say 2 (command ++ ": write error: " ++ text ++ "\n")
        Work.ends 1
    | none => pure ()

/-- The words that a list of arguments is divided into, at blanks and line ends that are neither in quotes
nor behind a backslash, and the quote that is never closed. -/
def argumentWords : (fuel : Nat) → (current : Option (List Char)) → List Char → List String × Option Char
  | 0, _, _ => ([], none)
  | _, current, [] => ((current.map String.ofList).toList, none)
  | fuel + 1, current, c :: rest =>
    if c == ' ' || c == '\t' || c == '\n' then
      let (words, quote) := argumentWords fuel none rest
      ((current.map String.ofList).toList ++ words, quote)
    else if c == '\'' || c == '"' then
      let inside := rest.takeWhile (fun d => d != c && d != '\n')
      if (rest.drop inside.length).head? != some c then ([], some c)
      else argumentWords fuel (some (current.getD [] ++ inside)) (rest.drop (inside.length + 1))
    else match c, rest with
      | '\\', d :: rest => argumentWords fuel (some (current.getD [] ++ [d])) rest
      | c, rest => argumentWords fuel (some (current.getD [] ++ [c])) rest

/-- The parts of a list of so many elements each. -/
def chunks {α : Type} (n : Nat) : (fuel : Nat) → List α → List (List α)
  | 0, _ => []
  | _, [] => []
  | fuel + 1, l => l.take n :: chunks n fuel (l.drop n)

/-- The program `xargs`. -/
def runXargs (r : Runner) (command : String) (args : List String) : Work Unit := do
  let call : Call := { machine := (← get).machine, name := command, args := args }
  match Call.readOptions { flags := "0rtx", valued := "nIdLPs", mixed := false, long := [("null", '0'),
      ("no-run-if-empty", 'r'), ("max-args", 'n'), ("delimiter", 'd')] } none args with
  | .error text => do
    Work.say 2 (call.faultLine text ++ call.advice)
    Work.ends 1
  | .ok o => do
    let s ← get
    let text := decodeUtf8 (s.inputText 0).rest
    set (s.setInput 0 [])
    let lines := (text.splitOn "\n").filter (· != "")
    let (items, quote) : List String × Option Char :=
      if o.has '0' then ((text.splitOn "\x00").filter (· != ""), none)
      else if o.has 'I' || o.has 'L' then
        (lines.map fun l => String.ofList (l.toList.dropWhile (· == ' ')), none)
      else match o.value? 'd' with
        | some d =>
          let d := if d == "\\n" then "\n" else d
          let text := if text.endsWith d then String.ofList (text.toList.take (text.length - d.length)) else text
          (text.splitOn d, none)
        | none => argumentWords (text.length + 1) none text.toList
    let (program, fixed) := match o.operands with
      | [] => ("echo", [])
      | program :: fixed => (program, fixed)
    let rounds : List (List String) := match o.value? 'I' with
      | some mark => items.map fun item => fixed.map fun a => a.replace mark item
      | none =>
        let size := ((o.value? 'n').bind String.toNat?).getD (if o.has 'L' then 1 else items.length)
        match chunks (max 1 size) (items.length + 1) items with
        | [] => if o.has 'r' then [] else [fixed]
        | parts => parts.map (fixed ++ ·)
    let missing (f : FileFault) : Work Unit := do
      Work.say 2 (call.faultLine (program ++ ": " ++ faultText f))
      Work.ends (if f == .denied then 126 else 127)
    let status ← rounds.foldlM (fun status args => do
      if status == 126 || status == 127 then return status
      match ← r.program missing program args with
      | some n => do
        Work.say 2 (call.faultLine (program ++ ": terminated by signal " ++ naturalText n))
        return 125
      | none =>
        let s ← get
        return if s.status == 126 || s.status == 127 then s.status
          else if s.status == 0 then status else 123) 0
    match quote with
    | some c => do
      Work.say 2 (call.faultLine ("unmatched " ++ (if c == '"' then "double" else "single") ++
        " quote; by default quotes are special to xargs unless you use the -0 option"))
      Work.ends 1
    | none => Work.ends status

/-- The program `timeout`. -/
def runTimeout (r : Runner) (command : String) (args : List String) : Work (Option Nat) := do
  let c : Call := { machine := (← get).machine, name := command, args := args }
  let misuse (text : String) : Work (Option Nat) := do
    Work.say 2 (c.faultLine text ++ c.advice)
    Work.ends 125
    return none
  match Call.readOptions { flags := "fpv", valued := "sk", mixed := false, long := [("foreground", 'f'),
      ("preserve-status", 'p'), ("signal", 's'), ("kill-after", 'k'), ("verbose", 'v')] } none args with
  | .error text => misuse text
  | .ok o => match o.operands with
    | time :: program :: args => match Call.sleepTime? time with
      | none => misuse ("invalid time interval " ++ inQuotes time)
      | some limit => do
        let start := (← get).machine.elapsed
        let missing (f : FileFault) : Work Unit := do
          Work.say 2 (c.faultLine ("failed to run command " ++ inQuotes program ++ ": " ++ faultText f))
          Work.ends (if f == .denied then 126 else 127)
        let signal? ← r.program missing program args
        if limit.nanos != 0 && (← limitTime start limit) then
          -- a signal that nothing can be done at ends the one who sends it too
          if (o.value? 's').bind signalOf? == some 9 then return some 9
          Work.ends (if o.has 'p' then 143 else 124)
          return none
        else return signal?
    | _ => do
      Work.say 2 c.advice
      Work.ends 125
      return none
where
  /-- The number of a signal. -/
  signalOf? (text : String) : Option Nat := Work.signal? (if text.startsWith "SIG" then
    String.ofList (text.toList.drop 3) else text)

/-- The program `env`. -/
def runEnv (r : Runner) (command : String) (args : List String) : Work (Option Nat) := do
  let c : Call := { machine := (← get).machine, name := command, args := args }
  match Call.readOptions { flags := "i0v", valued := "uCS", mixed := false, long := [
      ("ignore-environment", 'i'), ("unset", 'u'), ("chdir", 'C'), ("null", '0')] } none args with
  | .error text => do
    Work.say 2 (c.faultLine text ++ c.advice)
    Work.ends 125
    return none
  | .ok o => do
    let operands := if o.operands.head? == some "-" then o.operands.drop 1 else o.operands
    let emptied := o.has 'i' || o.operands.head? == some "-"
    let set := operands.takeWhile fun a => a.toList.contains '='
    let rest := operands.drop set.length
    let outer ← get
    let hidden := (o.given.filter (fun g => g.1 == 'u')).map (·.2)
    let kept : Fields String := if emptied then [] else outer.environment.filter fun e => !hidden.contains e.1
    let environment := set.foldl (fun (e : Fields String) a =>
      let name := String.ofList (a.toList.takeWhile (· != '='))
      e.insert name (String.ofList (a.toList.drop (name.length + 1)))) kept
    match rest with
    | [] => do
      let ending := if o.has '0' then "\x00" else "\n"
      Work.say 1 (String.join (environment.map fun e => e.1 ++ "=" ++ e.2 ++ ending))
      Work.ends 0
      return none
    | program :: args => do
      let names : Fields Variable := environment.map fun e =>
        (e.1, { value := some e.2, exported := true })
      Work.keepingNames do
        modify fun s => { s with names := names }
        let missing (f : FileFault) : Work Unit := do
          Work.say 2 (c.faultLine (inQuotes program ++ ": " ++ faultText f))
          Work.ends (if f == .denied then 126 else 127)
        r.program missing program args

/-- A program that runs another one behind its own options. -/
def runBehindOptions (r : Runner) (command valued : String) (quote : String → String) (args : List String) :
    Work (Option Nat) := do
  let c : Call := { machine := (← get).machine, name := command, args := args }
  match Call.readOptions { valued := valued, flags := "cfw", mixed := false } none args with
  | .error text => do
    Work.say 2 (c.faultLine text ++ c.advice)
    Work.ends 125
    return none
  | .ok o => match o.operands with
    | [] => do
      if command == "nice" then Work.say 1 "0\n"
      else Work.say 2 (c.faultLine "missing operand" ++ c.advice)
      Work.ends (if command == "nice" then 0 else 125)
      return none
    | program :: args =>
      let missing (f : FileFault) : Work Unit := do
        Work.say 2 (c.faultLine ("failed to run command " ++ quote program ++ ": " ++ faultText f))
        Work.ends (if f == .denied then 126 else 127)
      r.program missing program args

/-- The program `which`. -/
def runWhich (args : List String) : Work Unit := do
  let s ← get
  Work.ends (if args.isEmpty then 1 else 0)
  for name in args do
    match s.machine.findProgram (Work.searchPath s) name with
    | .ok (path, _) => Work.say 1 (path ++ "\n")
    | .error _ => Work.ends 1

/-! ### Shells as programs -/

/-- What a shell is started for. -/
inductive ShellTask where
  /-- To run a text, under a name and with arguments. -/
  | text (text title : String) (arguments : List String)
  /-- To run the text of a file. -/
  | file (path : String) (arguments : List String)
  /-- To run its input. -/
  | input (arguments : List String)
deriving Repr

/-- What the arguments of a shell ask for, behind the options that they set. -/
def shellTask (command : String) (text : Bool) : List String → Work (Except String ShellTask)
  | [] => return if text then .error "-c requires an argument" else .ok (.input [])
  | arg :: rest =>
    let operands : Work (Except String ShellTask) :=
      let args := if arg == "--" || arg == "-" then rest else arg :: rest
      match text, args with
      | true, [] => return .error "-c requires an argument"
      | true, [t] => return .ok (.text t command [])
      | true, t :: title :: arguments => return .ok (.text t title arguments)
      | false, args => do
        match (← get).options.contains 's', args with
        | false, path :: arguments => return .ok (.file path arguments)
        | _, arguments => return .ok (.input arguments)
    match arg.toList with
    | sign :: c :: cs => do
      if (sign != '-' && sign != '+') || arg == "--" then operands
      else
        let letters := c :: cs
        let on := sign == '-'
        let known := Work.optionNames.map (·.2)
        match letters.find? (fun c => c != 'o' && c != 'c' && c != 'l' && !known.contains c) with
        | some c => return .error ("Illegal option " ++ String.ofList [sign, c])
        | none => do
          for letter in letters do
            if letter != 'o' && letter != 'c' && letter != 'l' then Work.setOption on letter
          let text := text || (on && letters.contains 'c')
          if !letters.contains 'o' then shellTask command text rest
          else match rest with
            | [] => shellTask command text []
            | name :: rest => match Work.optionNames.lookup name with
              | some letter => do
                Work.setOption on letter
                shellTask command text rest
              | none => return .error ("Illegal option " ++ String.singleton sign ++ "o " ++ name)
    | _ => operands

/-- Runs a shell as a program. -/
def runShell (r : Runner) (command : String) (args : List String) : Work (Option Nat) := do
  let outer ← get
  let m := outer.programMachine []
  let refuse (text : String) : Work Unit := do
    Work.say 2 (command ++ ": 0: " ++ text ++ "\n")
    Work.ends 2
  let work : Work Unit := r.conclude do
    match ← shellTask command false args with
    | .error text => refuse text
    | .ok (.text text title arguments) => do
      modify fun s => { s with title := title, arguments := arguments }
      r.runText text
    | .ok (.file path arguments) => do
      match m.files.readBytes path with
      | .ok bytes => do
        modify fun s => { s with title := path, arguments := arguments }
        r.runText (decodeUtf8 bytes)
      | .error .isDirectory => Work.ends 0
      | .error f => refuse ("cannot open " ++ path ++ ": " ++
          (if f == .notFound || f == .notDirectory then "No such file" else faultText f))
    | .ok (.input arguments) => do
      modify fun s => { s with arguments := arguments }
      let s ← get
      set (s.setInput 0 [])
      r.runText (decodeUtf8 (s.inputText 0).rest)
  let (_, inner) := work.run {
    machine := m, names := ShellState.startNames m, title := command, channels := outer.channels,
    written := outer.written, sources := outer.sources, fresh := outer.fresh, background := outer.background,
    number := outer.number + 1, deadline := outer.deadline }
  set (Work.behind outer inner)
  return inner.killed

def runProgram (r : Runner) (missing : FileFault → Work Unit) (command : String) (args : List String) :
    Work (Option Nat) := do
  let s ← get
  match s.machine.findProgram (Work.searchPath s) command with
  | .error f => do missing f; return none
  | .ok (_, name) => do
    Work.spend programStart
    match name with
    | "sh" | "dash" | "bash" => r.runShell command args
    | "env" => r.runEnv command args
    | "timeout" => r.runTimeout command args
    | "nohup" => r.runBehindOptions command "" inFileQuotes args
    | "nice" => r.runBehindOptions command "n" inQuotes args
    | "setsid" => r.runBehindOptions command "" inQuotes args
    | "xargs" => do r.runXargs command args; return none
    | "which" => do runWhich args; return none
    | name => do
      match toolNamed? name with
      | some tool => runTool tool command args
      | none => Work.ends 0
      return none

/-! ### Simple commands -/

/-- What is told of a program that a signal has ended; nothing of some signals. -/
def signalRemark : Nat → String
  | 1 => "Hangup\n"
  | 3 => "Quit\n"
  | 4 => "Illegal instruction\n"
  | 6 => "Aborted\n"
  | 8 => "Floating point exception\n"
  | 9 => "Killed\n"
  | 10 => "User defined signal 1\n"
  | 11 => "Segmentation fault\n"
  | 12 => "User defined signal 2\n"
  | 14 => "Alarm clock\n"
  | 15 => "Terminated\n"
  | _ => ""

/-- Runs a program for a command. -/
def callProgram (r : Runner) (name : String) (args : List String) : Work Unit := do
  let missing (f : FileFault) : Work Unit := do
    Work.complain (name ++ (if name.isEmpty then ": Permission denied"
      else if f == .notFound || f == .notDirectory then ": not found" else ": " ++ faultText f))
    Work.ends (if f == .notFound || f == .notDirectory then 127 else 126)
  match ← r.program missing name args with
  | some n => do
    Work.say 2 (signalRemark n)
    Work.ends (128 + n)
  | none => pure ()

/-- Runs the body of a function with arguments. -/
def callFunction (r : Runner) (line : Nat) (body : Command) (args : List String) : Work Unit := do
  let s ← get
  set { s with arguments := args, loops := 0, shadowed := some [], functionLine := line }
  try r.statements [.chain [(.always, false, [body])] false]
  catch
    | .function => pure ()
    | e => throw e
  finally
    Work.restore ((← get).shadowed.getD [])
    modify fun inner => { inner with
      arguments := s.arguments, loops := s.loops, shadowed := s.shadowed, functionLine := s.functionLine }

/-- Does what a command of the shell does. Only the faults of special ones end the shell. -/
def runOwn (name : String) (special : Bool) (work : Work Unit) : Work Unit := do
  let before := (← get).running
  modify fun s => { s with running := some name }
  try work
  catch
    | .fault => if special then throw .fault
    | e => throw e
  finally modify fun s => { s with running := before }

/-- The command `.`: the statements of a file. -/
def runFile (r : Runner) (args : List String) : Work Unit := do
  match args with
  | [] => Work.ends 0
  | path :: arguments => do
    let s ← get
    let places := if path.toList.contains '/' then [path]
      else ((Work.searchPath s).splitOn ":").map (FileTree.join · path)
    match places.find? (fun p => s.machine.isFile p) with
    | none => Work.fault (if path.toList.contains '/' then "cannot open " ++ path ++ ": No such file"
        else path ++ ": not found")
    | some place => do
      let bytes := (s.machine.files.readBytes place).toOption.getD []
      modify fun s => { s with
        running := some place
        arguments := if arguments.isEmpty then s.arguments else arguments }
      try r.runText (decodeUtf8 bytes)
      catch
        | .function => pure ()
        | e => throw e
      finally if !arguments.isEmpty then modify fun inner => { inner with arguments := s.arguments }

/-- The command `exec` with arguments: a program in the place of the shell. -/
def replace (r : Runner) (name : String) (args : List String) : Work Unit := do
  r.callProgram name args
  modify fun s => { s with traps := [] }
  throw .shell

/-- Does what a command does by its name: `plain` leaves functions aside, and no fault ends the shell. -/
def dispatch (r : Runner) (plain : Bool) (set : List (String × String)) (name : String) (args : List String) :
    Work Unit := do
  let s ← get
  let special := specialNames.contains name
  let assigned (work : Work Unit) : Work Unit := do
    if special then
      for (name, value) in set do Work.assign name value
      work
    else Work.withVariables set false work
  match (if plain || special then none else s.functions.get? name) with
  | some (line, body) => Work.withVariables set true (r.callFunction line body args)
  | none => match name with
    | "eval" => assigned (runOwn name (!plain) (r.runText (" ".intercalate args)))
    | "." => assigned (runOwn name (!plain) (r.runFile args))
    | "exec" => match args with
      | [] => assigned (Work.ends 0)
      | program :: args => Work.withVariables set true (runOwn name true (r.replace program args))
    | name => match ownCommand? name with
      | some act => assigned (runOwn name (special && !plain) (act args))
      | none => Work.withVariables set true (r.callProgram name args)

/-- Does what a command does, or what the command behind `command` does. -/
def runWords (r : Runner) (set : List (String × String)) : (plain : Bool) → List String → Work Unit
  | _, [] => Work.ends 0
  | _, "command" :: "-v" :: rest => runOwn "command" false (match rest with
      | name :: _ => Work.commandOf true name
      | [] => Work.ends 0)
  | _, "command" :: "-V" :: rest => runOwn "command" false (match rest with
      | name :: _ => Work.commandOf false name
      | [] => Work.ends 0)
  | _, "command" :: "-p" :: rest => runWords r set true rest
  | _, "command" :: "--" :: rest => runWords r set true rest
  | _, "command" :: rest => runWords r set true rest
  | plain, name :: args => r.dispatch plain set name args

/-- Shows a command before it is run, if the shell is to do so, where errors went before. -/
def trace (channels : List (Nat × Channel)) (set : List (String × String)) (words : List String) :
    Work Unit := do
  let s ← get
  if s.options.contains 'x' then
    let mark := (s.nameValue? "PS4").getD ""
    let parts := set.map (fun (name, value) => name ++ "=" ++ value) ++ words
    Work.keepingChannels do
      modify fun s => { s with channels := channels }
      Work.say 2 (mark ++ " ".intercalate parts ++ "\n")

/-- Runs a simple command. -/
def runSimple (r : Runner) (line : Nat) (assignments : List (String × Word)) (words : List Word)
    (redirects : List Redirect) : Work Unit := do
  modify fun s => { s with line := line, substituted := none }
  let args ← expandWords r.substitute words
  let channels := (← get).channels
  let name := args.headD ""
  let values : Work (List (String × String)) := assignments.mapM fun (name, word) => do
    return (name, ← expandValue r.substitute word)
  if args == ["exec"] then
    -- redirections of nothing stay
    match ← r.redirectAll redirects with
    | none => Work.ends 0
    | some text => Work.fault text
  else r.behindRedirects redirects (specialNames.contains name) do
    if args.isEmpty then
      let set ← assignments.mapM fun (name, word) => do
        let value ← expandValue r.substitute word
        Work.assign name value
        return (name, value)
      if !set.isEmpty then trace channels set []
      Work.ends ((← get).substituted.getD 0)
    else
      let set ← values
      trace channels set args
      r.runWords set false args

/-! ### Statements -/

/-- Does what is to be done at signals that have come. -/
def answerSignals (r : Runner) : Work Unit := do
  let s ← get
  set { s with signals := [] }
  for name in s.signals do
    match s.traps.get? name with
    | some action => do
      r.runText action
      Work.ends s.status
    | none => pure ()

/-- Does something of which somebody asks how it ends. -/
def whileTested (work : Work Unit) : Work Unit := do
  let before := (← get).tested
  modify fun s => { s with tested := true }
  try work finally modify fun s => { s with tested := before }

/-- Does something in one loop more. -/
def inLoop (work : Work Unit) : Work Unit := do
  modify fun s => { s with loops := s.loops + 1 }
  try work finally modify fun s => { s with loops := s.loops - 1 }

/-- A round of a loop. The answer tells whether another one may follow. -/
def round (work : Work Bool) : Work Bool := do
  try work
  catch
    | .loops n again => if 1 < n then throw (.loops (n - 1) again) else return again
    | e => throw e

/-- Rounds of a loop as long as each says that another one follows. Each is given the exit code of the one
before it. A loop that goes on beyond the limit is taken never to end. -/
def rounds (step : Nat → Work Bool) : (limit last : Nat) → Work Unit
  | 0, _ => do
    modify fun s => { s with machine := s.machine.wait forever }
    throw .shell
  | limit + 1, last => do
    if ← step last then rounds step limit (← get).status

/-- The most rounds of a loop. -/
def mostRounds : Nat := 100000

/-- Rounds of a loop for each of some words. -/
def roundsFor (step : String → Work Bool) : List String → Work Unit
  | [] => return ()
  | word :: rest => do
    if ← step word then roundsFor step rest

/-- The statements of the first branch that has a pattern for a text. -/
def chooseBranch (r : Runner) (text : String) : List (List Word × List Statement) → Work (List Statement)
  | [] => return []
  | (patterns, body) :: rest => do
    let hit ← patterns.anyM fun w => do return (← expandPattern r.substitute w).isMatch text.toList
    if hit then return body else chooseBranch r text rest

def runCommand (r : Runner) : Command → Work Unit
  | .simple line assignments words redirects => do
    Work.spend commandTime
    r.runSimple line assignments words redirects
    r.answerSignals
    leaveOnFailure
  | .group body redirects => r.behindRedirects redirects false (r.statements body)
  | .subshell body redirects => do
    r.behindRedirects redirects false (r.inSubshell (r.statements body))
    leaveOnFailure
  | .choice condition yes no redirects => r.behindRedirects redirects false do
    whileTested (r.statements condition)
    if (← get).status == 0 then r.statements yes
    else if no.isEmpty then Work.ends 0
    else r.statements no
  | .loop untilSuccess condition body redirects => r.behindRedirects redirects false do
    inLoop (rounds (fun last => round do
      whileTested (r.statements condition)
      if ((← get).status == 0) != untilSuccess then
        r.statements body
        return true
      else
        Work.ends last
        return false) mostRounds 0)
  | .each line name words body redirects => r.behindRedirects redirects false do
    modify fun s => { s with line := line }
    let args ← match words with
      | some words => expandWords r.substitute words
      | none => do pure (← get).arguments
    if args.isEmpty then Work.ends 0
    inLoop (roundsFor (fun arg => do
      Work.assign name arg
      round do
        r.statements body
        return true) args)
  | .cases line word branches redirects => r.behindRedirects redirects false do
    modify fun s => { s with line := line }
    let text ← expandText r.substitute word
    let body ← r.chooseBranch text branches
    if body.isEmpty then Work.ends 0
    r.statements body
  | .define line name body => do
    modify fun s => { s with functions := s.functions.insert name (line, body), status := 0 }

/-- How many bytes are kept between one command and the next. -/
def pipeSize : Nat := 65536

/-- Runs commands of which each reads what the one before it writes, and tells whether the first of them
was ended by nobody reading from it any more. They run at the same time, and the pipeline takes as long as
the one that takes longest. -/
def runStages (r : Runner) (start : Span) : List Command → Work Bool
  | [] => return false
  | [c] => do
    r.inSubshell do
      modify fun s => { s with machine := { s.machine with elapsed := start } }
      r.runCommand c
    return false
  | c :: rest => do
    let bytes ← Work.collect (r.inSubshell do
      modify fun s => { s with machine := { s.machine with elapsed := start } }
      r.runCommand c)
    let ending := (← get).machine.elapsed
    let gaveUp ← Work.keepingChannels do
      let (n, s) := (← get).addSource { rest := bytes }
      set (s.setChannel 0 (some (.source n)))
      let readerEnded ← runStages r start rest
      return readerEnded || !(((← get).sources.lookup n).getD {}).rest.isEmpty
    -- one that has written no more than is kept for its reader does not need it
    let ended := gaveUp && pipeSize < bytes.length
    if !ended then
      modify fun s => { s with machine := { s.machine with
        elapsed := ⟨max ending.nanos s.machine.elapsed.nanos⟩ } }
    return ended

def runPipeline (r : Runner) (commands : List Command) : Work Unit := do
  match commands with
  | [c] => r.runCommand c
  | commands => do
    let start := (← get).machine.elapsed
    let _ ← r.runStages start commands
    leaveOnFailure

/-- Runs the pipelines of a chain as far as each depends on the one before it. -/
def runChain (r : Runner) : List (Joint × Bool × List Command) → Work Unit
  | [] => return ()
  | (joint, negated, commands) :: rest => do
    let s ← get
    let skipped := (joint == .andThen && s.status != 0) || (joint == .orElse && s.status == 0)
    if !skipped then
      let work := r.runPipeline commands
      if negated || !rest.isEmpty then whileTested work else work
      if negated then modify fun s => { s with status := if s.status == 0 then 1 else 0 }
    runChain r rest

def runStatement (r : Runner) : Statement → Work Unit
  | .chain pipelines false => r.runChain pipelines
  | .chain pipelines true => do
    let before := (← get).machine
    r.inSubshell do
      let (n, s) := (← get).addSource {}
      set { s.setChannel 0 (some (.source n)) with
        tested := false, machine := s.machine.wait ⟨2 * shellStart.nanos⟩ }
      r.runChain pipelines
    modify fun s => { s with
      background := ⟨max s.background.nanos s.machine.elapsed.nanos⟩
      backgroundStatus := s.status
      machine := { s.machine with elapsed := (before.wait shellStart).elapsed }
      status := 0 }

end Runner

/-- What runs statements and programs that stand in each other up to a depth. Beyond it a shell does not
go on. -/
def runner : (depth : Nat) → Runner
  | 0 =>
    let stop {α : Type} : Work α := do
      modify fun s => { s with killed := some 11, status := 139 }
      throw .shell
    { statements := fun _ => stop, program := fun _ _ _ => stop }
  | depth + 1 =>
    let inner := runner depth
    { statements := fun body => body.forM inner.runStatement
      program := inner.runProgram }

/-- How deep statements and programs may stand in each other. -/
def runDepth : Nat := 600

/-- Runs a program on a machine, as long as somebody waits for it, or tells why there is none to be run. -/
def Machine.start (m : Machine) (limit : Span) (command : String) (args : List String) :
    Except FileFault ProgramEnd :=
  let names : Fields Variable := m.environment.map fun e => (e.1, { value := some e.2, exported := true })
  let s : ShellState := { machine := m, names := names, deadline := ⟨m.elapsed.nanos + limit.nanos⟩ }
  match m.findProgram (Work.searchPath s) command with
  | .error f => .error f
  | .ok _ =>
    let (answer, s) := ((runner runDepth).program (fun _ => pure ()) command args).run s
    let signal? := match answer with
      | .ok signal? => signal?
      | .error _ => s.killed
    let elapsed := max s.machine.elapsed.nanos s.background.nanos
    .ok {
      code := match signal? with
        | some n => 128 + n
        | none => s.status
      killed := signal?.isSome
      written := s.inOrder.map fun w => (w.sink, w.bytes)
      machine := { s.machine with elapsed := ⟨elapsed⟩ } }

end ScriptYard.Shell
