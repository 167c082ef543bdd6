import ScriptYard.Shell.Machine

/-!
# Tools

A tool is a program that starts no others: it turns its arguments and its input into what it writes
(`Call`, `Report`). Most tools read options in front of and between their other arguments in one common
way (`Call.options`), and tell the faults of their arguments in one common form (`Call.misuse`).
-/

namespace ScriptYard.Shell

/-- The call of a tool. -/
structure Call where
  /-- What the tool works with. -/
  machine : Machine
  /-- The name it was called by. -/
  name : String
  /-- Its arguments. -/
  args : List String
  input : List UInt8 := []
  /-- Whether the input is a file, whose size is known. -/
  inputIsFile : Bool := false

/-- What a tool has done so far. -/
structure Report where
  /-- What it works with. -/
  machine : Machine
  /-- The exit code. -/
  code : Nat := 0
  /-- What it wrote. -/
  written : Writing := []
  /-- What it left of its input, if it read from it. -/
  unread : Option (List UInt8) := none

namespace Report

/-- The report with more bytes written. -/
def write (r : Report) (bytes : List UInt8) : Report :=
  if bytes.isEmpty then r else { r with written := r.written ++ [(1, bytes)] }

/-- The report with a text written. -/
def say (r : Report) (text : String) : Report := r.write (bytesOf text)

/-- The report of a fault, which sets the exit code. -/
def tell (r : Report) (code : Nat) (text : String) : Report :=
  { r with code := code, written := r.written ++ [(2, bytesOf text)] }

/-- The end that a report tells of. -/
def ending (r : Report) : ProgramEnd :=
  { code := r.code, written := r.written, unread := r.unread, machine := r.machine }

end Report

/-- What is left behind the blocks of which the last one holds the last of so many bytes. -/
def behindBlocks (size needed : Nat) (bytes : List UInt8) : List UInt8 :=
  bytes.drop ((needed + size - 1) / size * size)

namespace Call

/-- The report of a tool that has done nothing. -/
def report (c : Call) : Report := { machine := c.machine }

/-- The report of a tool that only writes a text. -/
def onlySays (c : Call) (text : String) : Report := c.report.say text

def faultLine (c : Call) (text : String) : String := c.name ++ ": " ++ text ++ "\n"

/-- The remark that ends the texts of faults in arguments. -/
def advice (c : Call) : String := "Try '" ++ c.name ++ " --help' for more information.\n"

def fails (c : Call) (code : Nat) (text : String) : Report := c.report.tell code (c.faultLine text)

/-- The report of a fault in the arguments. -/
def misuse (c : Call) (text : String) (code : Nat := 1) : Report :=
  c.report.tell code (c.faultLine text ++ c.advice)

/-- The bytes that an argument stands for: those of a file, or the input for a dash. -/
def readOperand (c : Call) (path : String) : Except FileFault (List UInt8) :=
  if path == "-" || path == "/dev/stdin" then .ok c.input else c.machine.files.readBytes path

/-- Does something with the bytes of each operand in order, or with the input if there is none. The fault
of an operand that cannot be read sets the exit code. -/
def eachOperand (c : Call) (operands : List String) (code : Nat) (fault : String → FileFault → String)
    (act : Report → String → List UInt8 → Report) : Report :=
  (if operands.isEmpty then ["-"] else operands).foldl (fun r path =>
    match c.readOperand path with
    -- the input is only there once
    | .ok bytes => if path != "-" then act r path bytes
        else act { r with unread := some [] } path (r.unread.getD bytes)
    | .error f => r.tell code (c.faultLine (fault path f))) c.report

/-! ### Options -/

/-- The options of a tool. -/
structure OptionTable where
  /-- Letters that stand for themselves. -/
  flags : String := ""
  /-- Letters that a value follows. -/
  valued : String := ""
  /-- The letters of options with longer names. -/
  long : List (String × Char) := []
  /-- Whether options may also follow other arguments. -/
  mixed : Bool := true

/-- The options and the other arguments of a call. -/
structure Options where
  /-- The letters, each with its value. -/
  given : List (Char × String) := []
  /-- The other arguments. -/
  operands : List String := []

/-- Whether an option is given. -/
def Options.has (o : Options) (letter : Char) : Bool := o.given.any (fun g => g.1 == letter)

/-- The value of an option, the last one if it is given more than once. -/
def Options.value? (o : Options) (letter : Char) : Option String :=
  (o.given.reverse.find? (fun g => g.1 == letter)).map (·.2)

/-- An option that still lacks its value: its letter, and what to say if there is none. -/
abbrev OpenOption : Type := Option (Char × String)

/-- The options of letters behind a dash. A letter that a value follows takes the rest of the argument
as its value, and is left open if there is no rest. -/
def readLetters (t : OptionTable) : List Char → Except String (List (Char × String) × OpenOption)
  | [] => .ok ([], none)
  | letter :: rest =>
    if t.valued.toList.contains letter then
      if rest.isEmpty then
        .ok ([], some (letter, "option requires an argument -- '" ++ String.singleton letter ++ "'"))
      else .ok ([(letter, String.ofList rest)], none)
    else if t.flags.toList.contains letter then do
      let (more, lacking) ← readLetters t rest
      return ((letter, "") :: more, lacking)
    else .error ("invalid option -- '" ++ String.singleton letter ++ "'")

/-- The option of a longer name, which may be cut short and may have a value behind an equals sign. -/
def readLong (t : OptionTable) (arg : String) : Except String (List (Char × String) × OpenOption) :=
  let name := String.ofList (arg.toList.takeWhile (· != '='))
  let value? := if name.length == arg.length then none
    else some (String.ofList (arg.toList.drop (name.length + 1)))
  let fits := t.long.filter (fun l => ("--" ++ l.1).startsWith name)
  match (fits.find? (fun l => "--" ++ l.1 == name)).or (if fits.length == 1 then fits.head? else none) with
  | none => .error ("unrecognized option '" ++ (if fits.isEmpty then arg else name) ++ "'")
  | some (long, letter) =>
    match t.valued.toList.contains letter, value? with
    | true, some value => .ok ([(letter, value)], none)
    | true, none => .ok ([], some (letter, "option '--" ++ long ++ "' requires an argument"))
    | false, some _ => .error ("option '--" ++ long ++ "' doesn't allow an argument")
    | false, none => .ok ([(letter, "")], none)

/-- The options and the other arguments among some arguments, or the text of a fault. Two dashes end
the options, and a single dash is no option. -/
def readOptions (t : OptionTable) : OpenOption → List String → Except String Options
  | none, [] => .ok {}
  | some (_, lack), [] => .error lack
  | some (letter, _), value :: rest => do
    let more ← readOptions t none rest
    return { more with given := (letter, value) :: more.given }
  | none, arg :: rest =>
    if arg == "--" then .ok { operands := rest }
    else if arg.startsWith "-" && arg != "-" then do
      let (given, lacking) ← if arg.startsWith "--" then readLong t arg else readLetters t (arg.toList.drop 1)
      let more ← readOptions t lacking rest
      return { more with given := given ++ more.given }
    else if t.mixed then do
      let more ← readOptions t none rest
      return { more with operands := arg :: more.operands }
    else .ok { operands := arg :: rest }

/-- What a tool does with its options; a fault in them ends it with a code. -/
def withOptions (c : Call) (t : OptionTable) (code : Nat) (act : Options → Report) : Report :=
  match readOptions t none c.args with
  | .ok o => act o
  | .error text => c.misuse text code

end Call

end ScriptYard.Shell
