import ScriptYard.Shell.Grammar
import ScriptYard.Shell.Machine

/-!
# A shell at work

A `ShellState` is where a shell is in its work: its variables and functions, its arguments, what the
numbers of its inputs and outputs stand for, and how the last command ended. What commands do is a `Work`
on it, which may leave a loop, a function or the whole shell early (`Leave`).

What a shell writes is collected under numbers (`Channel.sink`): a pipe, or a text that commands stand
for, is a further number besides those of the standard output and of errors. What it reads comes from
texts under numbers (`Channel.source`), so that all who read from one share how far it has been read.
-/

namespace ScriptYard.Shell

/-- A variable of a shell. -/
structure Variable where
  /-- Its value, if it has one. -/
  value : Option String := none
  /-- Whether programs see it. -/
  exported : Bool := false
  /-- Whether it keeps its value. -/
  fixed : Bool := false
deriving DecidableEq, Repr, Inhabited

/-- Where the input of a number comes from, or where the output of a number goes. -/
inductive Channel where
  /-- To what is collected under a number. -/
  | sink (n : Nat)
  /-- From a text that is kept under a number. -/
  | source (n : Nat)
  /-- To the end of the file at a place. -/
  | file (place : List String)
  /-- To a device that takes everything, or nothing. -/
  | device (takes : Bool)
deriving DecidableEq, Repr

/-- A text that is read from. -/
structure InputText where
  /-- What is left of it. -/
  rest : List UInt8 := []
  isFile : Bool := false
deriving Repr

/-- Bytes that were written. -/
structure Written where
  /-- The number they are collected under. -/
  sink : Nat
  /-- The time at which they were written. -/
  time : Span
  bytes : List UInt8
deriving Repr

/-- Where a shell is in its work. -/
structure ShellState where
  /-- What it works with. -/
  machine : Machine
  names : Fields Variable := []
  /-- Its functions, each with its line. -/
  functions : Fields (Nat × Command) := []
  /-- The name that it tells its faults under. -/
  title : String := "sh"
  arguments : List String := []
  /-- The exit code of the last command. -/
  status : Nat := 0
  /-- The letters of the options that are set. -/
  options : List Char := []
  /-- The line of the command that runs. -/
  line : Nat := 1
  /-- The line of the function that runs. -/
  functionLine : Nat := 1
  /-- The command of the shell that runs. -/
  running : Option String := none
  /-- What inputs and outputs stand for. -/
  channels : List (Nat × Channel) := [(0, .source 0), (1, .sink 1), (2, .sink 2)]
  /-- What was written, the last part first. -/
  written : List Written := []
  /-- The texts that are read from. -/
  sources : List (Nat × InputText) := []
  /-- A number under which nothing is collected or kept. -/
  fresh : Nat := 3
  /-- How many loops the command that runs is in. -/
  loops : Nat := 0
  /-- What local variables of the function that runs were before; none outside functions. -/
  shadowed : Option (List (String × Option Variable)) := none
  /-- Whether somebody asks how the command that runs ends. -/
  tested : Bool := false
  /-- What is done at signals and at the end. -/
  traps : Fields String := []
  /-- The signals that wait for what is done at them. -/
  signals : List String := []
  /-- The number of the signal that ended the shell. -/
  killed : Option Nat := none
  /-- How many shells that share its number it is in. -/
  level : Nat := 0
  /-- The number it goes by. -/
  number : Nat := 4242
  /-- The time at which what it goes on before ends. -/
  background : Span := .zero
  /-- The time at which nobody waits for it any more. -/
  deadline : Span := forever
  /-- How the last of what it went on before ends. -/
  backgroundStatus : Nat := 0
  /-- How the last commands that stand for a text ended. -/
  substituted : Option Nat := none
  /-- What new files may not be used for. -/
  mask : Nat := 18
  /-- How far the letters of an argument have been read as options. -/
  optionOffset : Nat := 0

/-- The way in which work is left early. -/
inductive Leave where
  /-- To the end of so many loops, or to the next round of the last one. -/
  | loops (count : Nat) (again : Bool)
  /-- To the end of the function. -/
  | function
  /-- To the end of the shell. -/
  | shell
  /-- To the end of the shell, for a fault that has been told. -/
  | fault
deriving DecidableEq, Repr

/-- What a shell does. -/
abbrev Work := ExceptT Leave (StateM ShellState)

namespace ShellState

/-! ### Parameters -/

/-- The letters of options in the order they are told in. -/
def optionLetters : List Char := "efIimnsxvVECabu".toList

/-- The characters that separate words in values. -/
def separators (s : ShellState) : List Char :=
  match s.names.get? "IFS" with
  | some v => (v.value.getD "").toList
  | none => [' ', '\t', '\n']

/-- The value of a variable. -/
def nameValue? (s : ShellState) (name : String) : Option String := (s.names.get? name).bind (·.value)

/-- The arguments as one text. -/
def joinedArguments (s : ShellState) : String :=
  let gap := match s.separators with
    | c :: _ => String.singleton c
    | [] => ""
  gap.intercalate s.arguments

/-- The value of a parameter. -/
def parameter? (s : ShellState) (name : String) : Option String :=
  match name with
  | "?" => some (naturalText s.status)
  | "$" => some (naturalText s.number)
  | "#" => some (naturalText s.arguments.length)
  | "-" => some (String.ofList (optionLetters.filter s.options.contains))
  | "!" => if s.background.nanos == 0 then none else some (naturalText (s.number + 1))
  | "0" => some s.title
  | "@" | "*" => if s.arguments.isEmpty then none else some s.joinedArguments
  | name =>
    if name.toList.all Char.isDigit then
      match name.toNat? with
      | some (n + 1) => s.arguments[n]?
      | _ => some s.title
    else if name == "LINENO" then some (naturalText s.line)
    else s.nameValue? name

/-- The environment of programs. -/
def environment (s : ShellState) : Fields String :=
  s.names.filterMap fun (name, v) => if v.exported then v.value.map (name, ·) else none

/-- The machine that programs get. -/
def programMachine (s : ShellState) (set : List (String × String)) : Machine :=
  { s.machine with environment := s.environment.extend set }

/-- The variables that a shell starts with. -/
def startNames (m : Machine) : Fields Variable :=
  let given : Fields Variable := m.environment.filterMap fun (name, value) =>
    if isName name then some (name, { value := some value, exported := true }) else none
  let own (names : Fields Variable) (name value : String) : Fields Variable :=
    if (names.get? name).isSome then names else names.insert name { value := some value }
  let names := own (own (own given "OPTIND" "1") "PS4" "+ ") "PATH" "/usr/local/bin:/usr/bin:/bin"
  (names.insert "IFS" { value := some " \t\n" }).insert "PWD"
    { value := some m.directoryPath, exported := ((given.get? "PWD").map (·.exported)).getD false }

/-! ### Inputs and outputs -/

/-- What a number stands for. -/
def channel? (s : ShellState) (number : Nat) : Option Channel := s.channels.lookup number

/-- The state in which a number stands for something, or for nothing. -/
def setChannel (s : ShellState) (number : Nat) (c : Option Channel) : ShellState :=
  let others := s.channels.filter (fun x => x.1 != number)
  { s with channels := match c with
    | some c => (number, c) :: others
    | none => others }

/-- What a number has to be read from. -/
def inputText (s : ShellState) (number : Nat) : InputText :=
  match s.channel? number with
  | some (.source n) => (s.sources.lookup n).getD {}
  | _ => {}

/-- The state in which a number has something left to be read from. -/
def setInput (s : ShellState) (number : Nat) (rest : List UInt8) : ShellState :=
  match s.channel? number with
  | some (.source n) =>
    let before := (s.sources.lookup n).getD {}
    { s with sources := (n, { before with rest := rest }) :: s.sources.filter (fun x => x.1 != n) }
  | _ => s

/-- The state with a text to be read from, and its number. -/
def addSource (s : ShellState) (text : InputText) : Nat × ShellState :=
  (s.fresh, { s with fresh := s.fresh + 1, sources := (s.fresh, text) :: s.sources })

/-- What was written, in the order of time. -/
def inOrder (s : ShellState) : List Written :=
  s.written.reverse.mergeSort fun a b => decide (a.time.nanos ≤ b.time.nanos)

/-- The state after bytes were written to the output of a number, or the text of what keeps them from
being written. -/
def write (s : ShellState) (number : Nat) (bytes : List UInt8) : Except String ShellState :=
  if bytes.isEmpty then .ok s
  else match s.channel? number with
    | some (.sink n) => .ok { s with written := ⟨n, s.machine.elapsed, bytes⟩ :: s.written }
    | some (.file place) =>
      let files := s.machine.files
      match files.store bytes true (place, (files.entry? place).getD (.file [])) with
      | .ok files => .ok { s with machine := { s.machine with files := files } }
      | .error f => .error (faultText f)
    | some (.device takes) => if takes then .ok s else .error (faultText .noSpace)
    | some (.source _) | none => .error "Bad file descriptor"

end ShellState

namespace Work

/-! ### Telling faults -/

/-- Writes to the output of a number; the answer is the text of what keeps it from being written. -/
def write (number : Nat) (bytes : List UInt8) : Work (Option String) := do
  match (← get).write number bytes with
  | .ok s => set s; return none
  | .error text => return some text

/-- Writes a text to the output of a number, if that can be done. -/
def say (number : Nat) (text : String) : Work Unit := do let _ ← write number (bytesOf text)

/-- Tells a fault at a line. -/
def complainAt (line : Nat) (text : String) : Work Unit := do
  let s ← get
  let place := match s.running with
    | some command => command ++ ": "
    | none => ""
  say 2 (s.title ++ ": " ++ naturalText line ++ ": " ++ place ++ text ++ "\n")

/-- Tells a fault at the command that runs. -/
def complain (text : String) : Work Unit := do complainAt (← get).line text

/-- Ends the command that runs with an exit code. -/
def ends (status : Nat) : Work Unit := modify fun s => { s with status := status }

/-- Tells a fault that ends the shell. -/
def fault {α : Type} (text : String) (status : Nat := 2) : Work α := do
  complain text
  ends status
  throw .fault

/-! ### Time -/

/-- Lets time pass. A shell that nobody waits for any more does not go on. -/
def spend (t : Span) : Work Unit := do
  let s ← get
  set { s with machine := s.machine.wait t }
  if s.deadline.nanos ≤ s.machine.elapsed.nanos then throw .shell

/-! ### Variables -/

/-- Gives a variable a value. -/
def assign (name value : String) : Work Unit := do
  let s ← get
  let v := (s.names.get? name).getD {}
  if v.fixed then fault (name ++ ": is read only")
  else set { s with
    names := s.names.insert name
      { v with value := some value, exported := v.exported || s.options.contains 'a' }
    optionOffset := if name == "OPTIND" then 0 else s.optionOffset }

/-- Lets programs see a variable. -/
def publish (name : String) : Work Unit := modify fun s =>
  let v := (s.names.get? name).getD {}
  { s with names := s.names.insert name { v with exported := true } }

/-- Puts variables back to what they were. -/
def restore (before : List (String × Option Variable)) : Work Unit := modify fun s =>
  { s with names := before.foldl (fun names (name, v?) => match v? with
    | some v => names.insert name v
    | none => names.erase name) s.names }

/-- Does something with variables set, and puts them back afterwards. -/
def withVariables (set : List (String × String)) (exported : Bool) (work : Work Unit) : Work Unit := do
  let s ← get
  let before := set.map fun (name, _) => (name, s.names.get? name)
  for (name, value) in set do
    assign name value
    if exported then publish name
  try work finally restore before.reverse

/-! ### Shells in a shell -/

/-- The state in which a shell goes on behind another one: it has its files, its time, its inputs and
outputs, and the exit code of its last command. -/
def behind (s inner : ShellState) : ShellState :=
  { s with
    machine := { s.machine with
      files := { inner.machine.files with directory := s.machine.files.directory }
      elapsed := inner.machine.elapsed }
    written := inner.written
    sources := inner.sources
    fresh := inner.fresh
    background := inner.background
    status := inner.status }

/-- Does something in a shell of its own, of which only files, time, inputs and outputs are kept, and how
it ended. A signal for the shell reaches the one it was sent from. -/
def apart (work : Work Unit) : Work Unit := do
  let s ← get
  let (_, inner) := work.run { s with
    level := s.level + 1
    loops := 0
    traps := s.traps.filter (fun t => t.2.isEmpty)
    signals := [] }
  set { behind s inner with killed := inner.killed }
  if s.level == 0 && inner.killed.isSome then throw .shell

/-- Does something while inputs and outputs may be changed, and puts them back afterwards. Texts to be read
from that have been added are given up. -/
def keepingChannels {α : Type} (work : Work α) : Work α := do
  let before ← get
  try work finally modify fun s => { s with
    channels := before.channels
    sources := s.sources.filter fun x => x.1 < before.fresh }

/-- Does something while variables may be changed, and puts them back afterwards. -/
def keepingNames {α : Type} (work : Work α) : Work α := do
  let before := (← get).names
  try work finally modify fun s => { s with names := before }

/-- What something writes to the standard output. -/
def collect (work : Work Unit) : Work (List UInt8) := do
  let before ← get
  let sink := before.fresh
  set { before with fresh := sink + 1, written := [] }
  try keepingChannels do
    modify fun s => s.setChannel 1 (some (.sink sink))
    work
  catch e => do
    modify fun s => { s with written := s.written ++ before.written }
    throw e
  let s ← get
  let (own, others) := s.inOrder.partition fun w => w.sink == sink
  set { s with written := others.reverse ++ before.written }
  return own.flatMap (·.bytes)

end Work

end ScriptYard.Shell
