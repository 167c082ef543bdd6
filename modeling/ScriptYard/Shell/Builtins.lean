import ScriptYard.Shell.Condition
import ScriptYard.Shell.Printf
import ScriptYard.Shell.Session

/-!
# Commands of a shell

What a shell does for the commands that are part of it and run no others: those that write and test,
those for its variables, arguments and options, those that leave loops, functions and the shell, and
those for signals. `ownCommand?` finds them by name.
-/

namespace ScriptYard.Shell

/-- The commands of a shell whose faults end it. -/
def specialNames : List String :=
  [".", ":", "break", "continue", "eval", "exec", "exit", "export", "local", "readonly", "return", "set",
    "shift", "times", "trap", "unset"]

/-- The other commands of a shell. -/
def builtinNames : List String :=
  ["[", "alias", "bg", "cd", "command", "echo", "false", "fg", "getopts", "hash", "jobs", "kill", "printf",
    "pwd", "read", "test", "true", "type", "ulimit", "umask", "unalias", "wait"]

/-- The words that have a meaning of their own. -/
def reservedWords : List String :=
  ["!", "case", "do", "done", "elif", "else", "esac", "fi", "for", "if", "in", "then", "until", "while",
    "\x7b", "\x7d"]

namespace Work

/-! ### Arguments -/

/-- The natural number of an argument. -/
def numberOf (text : String) : Work Nat :=
  if !text.isEmpty && text.toList.all Char.isDigit && text.length < 11 && valueOfDigits 10 text.toList < twoTo 31
  then return valueOfDigits 10 text.toList
  else fault ("Illegal number: " ++ text)

/-- The letters in front of arguments that options may have, and the arguments behind them. -/
def letters (known : String) : List String → Work (List Char × List String)
  | [] => return ([], [])
  | "--" :: rest => return ([], rest)
  | arg :: rest =>
    match arg.toList with
    | '-' :: c :: cs => do
      match (c :: cs).find? (fun c => !known.toList.contains c) with
      | some c => fault ("Illegal option -" ++ String.singleton c)
      | none => do
        let (more, rest) ← letters known rest
        return (c :: cs ++ more, rest)
    | _ => return ([], arg :: rest)

/-- Writes to the standard output, and tells if that fails. -/
def put (bytes : List UInt8) (status : Nat := 0) : Work Unit := do
  match ← write 1 bytes with
  | none => ends status
  | some _ => do
    complain (((← get).running.getD "") ++ ": I/O error")
    ends 1

/-- Writes a text to the standard output. -/
def putText (text : String) (status : Nat := 0) : Work Unit := put (bytesOf text) status

/-! ### Writing and testing -/

/-- The command `echo`. -/
def echo (args : List String) : Work Unit :=
  let (newLine, words) := match args with
    | "-n" :: rest => (false, rest)
    | args => (true, args)
  let text := " ".intercalate words
  let (bytes, stops) := Printf.unescape .builtin (text.length + 1) text.toList
  put (if newLine && !stops then bytes ++ [10] else bytes)

/-- The command `printf`. -/
def printf (args : List String) : Work Unit := do
  let (_, args) ← letters "" args
  match args with
  | [] => fault "usage: printf format [arg ...]"
  | format :: args => do
    let s := Printf.run .builtin format args
    for text in s.faults do complain text
    put s.out s.code

/-- The command `test`, also under the name of an opening bracket. -/
def test (bracketed : Bool) (args : List String) : Work Unit := do
  if bracketed && args.getLast? != some "]" then fault "missing ]"
  else
    let args := if bracketed then args.dropLast else args
    match Condition.evaluateBuiltin (← get).machine (args.length + 2) args with
    | .ok holds => ends (if holds then 0 else 1)
    | .error text => fault text

/-! ### Directories -/

/-- The command `cd`. -/
def changeDirectory (args : List String) : Work Unit := do
  let (_, args) ← letters "LP" args
  let s ← get
  let (target, shows) := match args with
    | [] => ((s.nameValue? "HOME").getD "", false)
    | "-" :: _ => ((s.nameValue? "OLDPWD").getD "", true)
    | path :: _ => (path, false)
  match s.machine.enter (if target.isEmpty then "." else target) with
  | .error _ => fault ("can't cd to " ++ target)
  | .ok m => do
    set { s with machine := m }
    assign "OLDPWD" ((s.nameValue? "PWD").getD "")
    assign "PWD" m.directoryPath
    if shows then putText (m.directoryPath ++ "\n") else ends 0

/-- The command `pwd`. -/
def directory (args : List String) : Work Unit := do
  let _ ← letters "LP" args
  putText ((← get).machine.directoryPath ++ "\n")

/-! ### Variables, arguments and options -/

/-- The characters of a value in quotes: single ones, or double ones around those that are single quotes. -/
def quotedChars : (fuel : Nat) → List Char → List Char
  | 0, _ => []
  | fuel + 1, cs =>
    let plain := cs.takeWhile (· != '\'')
    let rest := cs.drop plain.length
    let quotes := rest.takeWhile (· == '\'')
    let behind := rest.drop quotes.length
    ['\''] ++ plain ++ ['\''] ++ (if quotes.isEmpty then [] else ['"'] ++ quotes ++ ['"']) ++
      (if behind.isEmpty then [] else quotedChars fuel behind)

def quotedValue (value : String) : String := String.ofList (quotedChars (value.length + 1) value.toList)

/-- An argument that names a variable and may give it a value. -/
def nameAndValue (arg : String) : Work (String × Option String) := do
  let name := String.ofList (arg.toList.takeWhile (· != '='))
  if !isName name then fault (name ++ ": bad variable name")
  else return (name, if name.length == arg.length then none
    else some (String.ofList (arg.toList.drop (name.length + 1))))

/-- The commands `export` and `readonly`, which change a mark of variables. -/
def mark (command : String) (marked : Variable → Bool) (change : Variable → Variable) (args : List String) :
    Work Unit := do
  let (_, args) ← letters "p" args
  if args.isEmpty then
    let s ← get
    let shown := s.names.filter fun v => marked v.2
    putText (String.join (shown.map fun (name, v) =>
      command ++ " " ++ name ++ (match v.value with
        | some value => "=" ++ quotedValue value
        | none => "") ++ "\n"))
  else do
    for arg in args do
      let (name, value?) ← nameAndValue arg
      match value? with
      | some value => assign name value
      | none => pure ()
      modify fun s => { s with names := s.names.insert name (change ((s.names.get? name).getD {})) }
    ends 0

/-- The command `unset`. -/
def unset (args : List String) : Work Unit := do
  let (letters, names) ← letters "vf" args
  for name in names do
    if letters.contains 'f' then modify fun s => { s with functions := s.functions.erase name }
    else if !isName name then fault (name ++ ": bad variable name")
    else
      let s ← get
      match s.names.get? name with
      | some v =>
        if v.fixed then fault (name ++ ": is read only")
        else set { s with names := s.names.erase name }
      | none => pure ()
  ends 0

/-- The command `local`. -/
def declareLocal (args : List String) : Work Unit := do
  for arg in args do
    let s ← get
    match s.shadowed with
    | none => fault "not in a function"
    | some shadowed =>
      let (name, value?) ← nameAndValue arg
      if !shadowed.any (fun x => x.1 == name) then
        set { s with shadowed := some ((name, s.names.get? name) :: shadowed) }
      match value? with
      | some value => assign name value
      | none => pure ()
  match (← get).shadowed with
  | none => fault "not in a function"
  | some _ => ends 0

/-- The names of options. -/
def optionNames : List (String × Char) :=
  [("errexit", 'e'), ("noglob", 'f'), ("ignoreeof", 'I'), ("interactive", 'i'), ("monitor", 'm'),
    ("noexec", 'n'), ("stdin", 's'), ("xtrace", 'x'), ("verbose", 'v'), ("vi", 'V'), ("emacs", 'E'),
    ("noclobber", 'C'), ("allexport", 'a'), ("notify", 'b'), ("nounset", 'u')]

/-- Sets or clears an option. -/
def setOption (on : Bool) (letter : Char) : Work Unit := modify fun s =>
  let others := s.options.filter (· != letter)
  { s with options := if on then letter :: others else others }

/-- Sets options as arguments ask for, and answers with the other arguments; there are none at all if
only options were given. `refuse` tells a wrong one. -/
def setOptions (refuse : String → Work Unit) : List String → Work (Option (List String))
  | [] => return none
  | "--" :: rest => return some rest
  | "-" :: rest => return if rest.isEmpty then none else some rest
  | arg :: rest =>
    match arg.toList with
    | sign :: c :: cs => do
      if sign != '-' && sign != '+' then return some (arg :: rest)
      let on := sign == '-'
      let known := optionNames.map (·.2)
      match (c :: cs).find? (fun c => c != 'o' && !known.contains c) with
      | some c => do refuse (String.ofList [sign, c]); return none
      | none => do
        for letter in c :: cs do
          if letter != 'o' then setOption on letter
        if !(c :: cs).contains 'o' then setOptions refuse rest
        else match rest with
          | [] => return none
          | name :: rest => match optionNames.lookup name with
            | some letter => do setOption on letter; setOptions refuse rest
            | none => do refuse (String.singleton sign ++ "o " ++ name); return none
    | _ => return some (arg :: rest)

def setCommand (args : List String) : Work Unit := do
  if args.isEmpty then
    let s ← get
    putText (String.join (s.names.filterMap fun (name, v) => v.value.map fun value =>
      name ++ "=" ++ quotedValue value ++ "\n"))
  else
    ends 0
    match ← setOptions (fun text => fault ("Illegal option " ++ text)) args with
    | some arguments => modify fun s => { s with arguments := arguments }
    | none => pure ()

/-- The command `shift`. -/
def shift (args : List String) : Work Unit := do
  let n ← match args with
    | [] => pure 1
    | arg :: _ => numberOf arg
  let s ← get
  if s.arguments.length < n then fault "can't shift that many"
  else set { s with arguments := s.arguments.drop n, status := 0 }

/-- The options that are read next from arguments: the letter with what else there is to know. -/
def nextOption (s : ShellState) (known : String) (args : List String) :
    Option (Char × Option String × Bool × Nat × Nat) :=
  let index := (((s.nameValue? "OPTIND").bind String.toNat?).getD 1)
  let index := max index 1
  -- while the letters of an argument are read, the index is that of the next one
  let (index, offset) := if s.optionOffset == 0 then (index + 1, 1) else (index, s.optionOffset)
  let arg := (args.getD (index - 2) "").toList
  if args.length < index - 1 || arg.head? != some '-' || arg.length < 2 || arg == ['-', '-'] then none
  else match arg.drop offset with
    | [] => none
    | letter :: rest =>
      let valued := letter != ':' && (known.splitOn (String.ofList [letter, ':'])).length != 1
      let isKnown := letter != ':' && known.toList.contains letter
      if !isKnown then some (letter, none, false, index, if rest.isEmpty then 0 else offset + 1)
      else if !valued then some (letter, none, true, index, if rest.isEmpty then 0 else offset + 1)
      else if !rest.isEmpty then some (letter, some (String.ofList rest), true, index, 0)
      else match args[index - 1]? with
        | some value => some (letter, some value, true, index + 1, 0)
        | none => some (letter, none, false, index, 0)

/-- The command `getopts`. -/
def readOption (args : List String) : Work Unit := do
  match args with
  | known :: name :: args => do
    let s ← get
    let args := if args.isEmpty then s.arguments else args
    let silent := known.startsWith ":"
    match nextOption s known args with
    | none => do
      let index := (((s.nameValue? "OPTIND").bind String.toNat?).getD 1)
      if args[index - 1]? == some "--" then assign "OPTIND" (naturalText (index + 1))
      assign name "?"
      ends 1
    | some (letter, value?, good, index, offset) => do
      assign "OPTIND" (naturalText index)
      modify fun s => { s with optionOffset := offset }
      let lacks := !good && known.toList.contains letter
      if good then
        assign name (String.singleton letter)
        match value? with
        | some value => assign "OPTARG" value
        | none => modify fun s => { s with names := s.names.erase "OPTARG" }
      else if silent then
        assign name (if lacks then ":" else "?")
        assign "OPTARG" (String.singleton letter)
      else
        say 2 (if lacks then "No arg for -" ++ String.singleton letter ++ " option\n"
          else "Illegal option -" ++ String.singleton letter ++ "\n")
        assign name "?"
        modify fun s => { s with names := s.names.erase "OPTARG" }
      ends 0
  | _ => fault "Usage: getopts optstring var [arg...]"

/-! ### Reading -/

/-- A line of input with the rest behind it: its characters, each with whether a backslash stood in front
of it. Where backslashes count (`raw` is not set) one at the end of a line joins it with the next one. The
flag tells whether the line was ended. -/
def readLine (raw : Bool) : List UInt8 → List (UInt8 × Bool) × List UInt8 × Bool
  | [] => ([], [], false)
  | [b] => (if b == 10 || (b == 92 && !raw) then [] else [(b, false)], [], b == 10)
  | b :: c :: rest =>
    if b == 10 then ([], c :: rest, true)
    else if b == 92 && !raw then
      let (line, left, ended) := readLine raw rest
      (if c == 10 then line else (c, true) :: line, left, ended)
    else
      let (line, left, ended) := readLine raw (c :: rest)
      ((b, false) :: line, left, ended)

/-- The values of so many variables in a line: words between separators, of which the last variable takes
all that is left. -/
def splitLine (isBlank isOther : UInt8 × Bool → Bool) : (count : Nat) → List (UInt8 × Bool) →
    List (List (UInt8 × Bool))
  | 0, _ => []
  | 1, line =>
    let line := line.dropWhile isBlank
    -- a single separator behind a single word ends it
    let word := line.takeWhile (fun b => !isBlank b && !isOther b)
    let behind := (line.drop word.length).dropWhile isBlank
    match behind with
    | b :: more =>
      if isOther b && (more.dropWhile isBlank).isEmpty then [word]
      else [(line.reverse.dropWhile isBlank).reverse]
    | [] => [word]
  | count + 1, line =>
    let line := line.dropWhile isBlank
    let word := line.takeWhile (fun b => !isBlank b && !isOther b)
    let behind := (line.drop word.length).dropWhile isBlank
    let behind := match behind with
      | b :: more => if isOther b then more else behind
      | [] => []
    word :: splitLine isBlank isOther count behind

def readCommand (args : List String) : Work Unit := do
  let raw := args.any (fun a => a == "-r")
  let rec names : List String → List String
    | "-r" :: rest => names rest
    | "-p" :: _ :: rest => names rest
    | rest => rest
  match names args with
  | [] => fault "arg count"
  | targets => do
    let s ← get
    if (s.channel? 0).isNone then fault "read error" 1
    let (line, left, ended) := readLine raw (s.inputText 0).rest
    set (s.setInput 0 left)
    let separators := s.separators
    let isSeparator (blank : Bool) (b : UInt8 × Bool) : Bool :=
      !b.2 && separators.any fun c =>
        c.toNat == b.1.toNat && (c == ' ' || c == '\t' || c == '\n') == blank
    let values := splitLine (isSeparator true) (isSeparator false) targets.length line
    for (name, value) in targets.zip values do
      if !isName name then fault (name ++ ": bad variable name")
      assign name (decodeUtf8 (value.map (·.1)))
    ends (if ended then 0 else 1)

/-! ### Leaving -/

/-- The command `exit`. -/
def exit (args : List String) : Work Unit := do
  match args with
  | arg :: _ => ends ((← numberOf arg) % 256)
  | [] => pure ()
  throw .shell

/-- The command `return`. -/
def return_ (args : List String) : Work Unit := do
  match args with
  | arg :: _ => ends (← numberOf arg)
  | [] => pure ()
  throw .function

/-- The commands `break` and `continue`. -/
def leaveLoops (again : Bool) (args : List String) : Work Unit := do
  let n ← match args with
    | arg :: _ => numberOf arg
    | [] => pure 1
  if n == 0 then fault ("Illegal number: " ++ args.headD "")
  let s ← get
  set { s with status := 0 }
  if s.loops != 0 then throw (.loops (min n s.loops) again)

/-! ### Signals -/

/-- The names of signals by their numbers. -/
def signalNames : List String :=
  ["EXIT", "HUP", "INT", "QUIT", "ILL", "TRAP", "ABRT", "BUS", "FPE", "KILL", "USR1", "SEGV", "USR2", "PIPE",
    "ALRM", "TERM", "16", "CHLD", "CONT", "STOP", "TSTP", "TTIN", "TTOU", "URG", "XCPU", "XFSZ", "VTALRM",
    "PROF", "WINCH", "IO", "PWR", "SYS", "32", "33", "RTMIN"] ++
    ((List.range 15).map fun i => "RTMIN+" ++ naturalText (i + 1)) ++
    ((List.range 14).map fun i => "RTMAX-" ++ naturalText (14 - i)) ++ ["RTMAX"]

/-- The number of a signal that is given by its number or name. -/
def signal? (text : String) : Option Nat :=
  if !text.isEmpty && text.toList.all Char.isDigit then
    let n := valueOfDigits 10 text.toList
    if n < 65 then some n else none
  else
    let name := String.ofList (text.toList.map Char.toUpper)
    let n := signalNames.findIdx (· == name)
    if n < signalNames.length then some n else none

def signalName (n : Nat) : String := signalNames.getD n (naturalText n)

/-- Sends a signal to the shell. -/
def raise (n : Nat) : Work Unit := do
  let s ← get
  let name := signalName n
  ends 0
  if n == 0 || ["CHLD", "CONT", "URG", "WINCH"].contains name then pure ()
  else match (if name == "KILL" || name == "STOP" then none else s.traps.get? name) with
    | some "" => pure ()
    | some _ => modify fun s => { s with signals := s.signals ++ [name] }
    | none =>
      if ["STOP", "TSTP", "TTIN", "TTOU"].contains name then
        set { s with machine := s.machine.wait forever }
        throw .shell
      else do
        set { s with killed := some n, status := 128 + n }
        if s.level == 0 then throw .shell

/-- The command `kill`. -/
def kill (args : List String) : Work Unit := do
  let usage {α : Type} : Work α :=
    fault "Usage: kill [-s sigspec | -signum | -sigspec] [pid | job]... or\nkill -l [exitstatus]"
  let send (n : Nat) (targets : List String) : Work Unit := do
    if targets.isEmpty then usage
    ends 0
    for target in targets do
      let s ← get
      let text := if target.startsWith "-" then String.ofList (target.toList.drop 1) else target
      if target.startsWith "%" then fault ("No such job: " ++ target)
      else
        let pid ← numberOf text
        if pid == s.number then raise n
        else if some (naturalText pid) == s.parameter? "!" then ends 0
        else do
          complain "No such process\n"
          ends 1
  match args with
  | [] => usage
  | "-l" :: [] => putText (String.join (("0" :: signalNames.drop 1).map (· ++ "\n")))
  | "-l" :: arg :: _ => do
    let n ← numberOf arg
    putText (signalName (if 128 < n then n - 128 else n) ++ "\n")
  | "-s" :: name :: targets => match signal? name with
    | some n => send n (if targets.head? == some "--" then targets.drop 1 else targets)
    | none => fault ("invalid signal number or name: " ++ name)
  | "--" :: targets => send 15 targets
  | arg :: targets =>
    match arg.toList with
    | '-' :: cs => match signal? (String.ofList cs) with
      | some n => send n (if targets.head? == some "--" then targets.drop 1 else targets)
      | none => fault ("Illegal option -" ++ String.ofList (cs.take 1))
    | _ => send 15 (arg :: targets)

/-- The command `trap`. -/
def trap (args : List String) : Work Unit := do
  let args := if args.head? == some "--" then args.drop 1 else args
  match args with
  | [] => do
    let s ← get
    let shown := signalNames.filterMap fun name => (s.traps.get? name).map fun action =>
      "trap -- " ++ quotedValue action ++ " " ++ name ++ "\n"
    putText (String.join shown)
  | action :: rest => do
    -- a signal alone gets back what is usually done at it
    let (action, names) := if rest.isEmpty then ("-", [action]) else (action, rest)
    ends 0
    for name in names do
      match signal? name with
      | none => do
        say 2 ("trap: " ++ name ++ ": bad trap\n")
        ends 1
      | some n => modify fun s => { s with
          traps := if action == "-" then s.traps.erase (signalName n) else s.traps.insert (signalName n) action }

/-! ### Names -/

/-- The directories that programs are looked for in. -/
def searchPath (s : ShellState) : String := (s.nameValue? "PATH").getD "/usr/local/bin:/usr/bin:/bin"

/-- What a name stands for, in words or in short; there is nothing for an unknown one. -/
def describe? (s : ShellState) (short : Bool) (name : String) : Option String :=
  let say (text : String) : Option String := some (if short then name else name ++ text)
  if reservedWords.contains name then say " is a shell keyword"
  else if specialNames.contains name then say " is a special shell builtin"
  else if (s.functions.get? name).isSome then say " is a shell function"
  else if builtinNames.contains name then say " is a shell builtin"
  else match s.machine.findProgram (searchPath s) name with
    | .ok (path, _) => some (if short then path else name ++ " is " ++ path)
    | .error _ => none

/-- The command `type`. -/
def typeOf (args : List String) : Work Unit := do
  ends 0
  for name in args do
    let status := (← get).status
    match describe? (← get) false name with
    | some text => putText (text ++ "\n") status
    | none => putText (name ++ ": not found\n") 127

/-- The command `command` where it asks what a name stands for. -/
def commandOf (short : Bool) (name : String) : Work Unit := do
  match describe? (← get) short name with
  | some text => putText (text ++ "\n")
  | none => if short then ends 127 else putText (name ++ ": not found\n") 127

/-- The command `hash`. -/
def hash (args : List String) : Work Unit := do
  ends 0
  for name in args do
    if !name.startsWith "-" && (describe? (← get) true name).isNone then
      complain (name ++ ": not found")
      ends 1

/-! ### Others -/

/-- The command `wait`. -/
def wait (args : List String) : Work Unit := do
  let s ← get
  let m := s.machine
  let m := { m with elapsed := ⟨max m.elapsed.nanos s.background.nanos⟩ }
  let known := args.all fun a => some a == s.parameter? "!"
  set { s with machine := m, status := if args.isEmpty then 0 else if known then s.backgroundStatus else 127 }

/-- What the octal digit of a mask leaves to be used for, in letters. -/
def leftLetters (digit : Nat) : String :=
  String.ofList ([(4, 'r'), (2, 'w'), (1, 'x')].filterMap fun (bit, letter) =>
    if digit / bit % 2 == 0 then some letter else none)

/-- The command `umask`. -/
def mask (args : List String) : Work Unit := do
  let mask := (← get).mask
  let (high, middle, low) := (mask / 64 % 8, mask / 8 % 8, mask % 8)
  match args with
  | [] => putText ("0" ++ naturalText high ++ naturalText middle ++ naturalText low ++ "\n")
  | "-S" :: _ => putText ("u=" ++ leftLetters high ++ ",g=" ++ leftLetters middle ++ ",o=" ++
      leftLetters low ++ "\n")
  | arg :: _ =>
    if arg.toList.all Printf.isOctal then
      modify fun s => { s with mask := valueOfDigits 8 arg.toList % 512, status := 0 }
    else if arg.toList.all Char.isDigit then fault ("Illegal number: " ++ arg)
    else ends 0

/-- The commands `alias` and `unalias`; no other names are kept. -/
def otherName (command : String) (args : List String) : Work Unit := do
  ends 0
  for arg in args do
    if !arg.toList.contains '=' then
      say 2 (command ++ ": " ++ arg ++ " not found\n")
      ends 1

end Work

/-- What the shell does for a command of its own that runs no other one. -/
def ownCommand? : String → Option (List String → Work Unit)
  | ":" | "true" => some fun _ => Work.ends 0
  | "false" => some fun _ => Work.ends 1
  | "echo" => some Work.echo
  | "printf" => some Work.printf
  | "test" => some (Work.test false)
  | "[" => some (Work.test true)
  | "cd" => some Work.changeDirectory
  | "pwd" => some Work.directory
  | "export" => some (Work.mark "export" (·.exported) fun v => { v with exported := true })
  | "readonly" => some (Work.mark "readonly" (·.fixed) fun v => { v with fixed := true })
  | "unset" => some Work.unset
  | "local" => some Work.declareLocal
  | "set" => some Work.setCommand
  | "shift" => some Work.shift
  | "getopts" => some Work.readOption
  | "read" => some Work.readCommand
  | "exit" => some Work.exit
  | "return" => some Work.return_
  | "break" => some (Work.leaveLoops false)
  | "continue" => some (Work.leaveLoops true)
  | "kill" => some Work.kill
  | "trap" => some Work.trap
  | "type" => some Work.typeOf
  | "hash" => some Work.hash
  | "wait" => some Work.wait
  | "umask" => some Work.mask
  | "times" => some fun _ => Work.putText "0m0.000000s 0m0.000000s\n0m0.000000s 0m0.000000s\n"
  | "ulimit" => some fun _ => Work.putText "unlimited\n"
  | "jobs" => some fun _ => Work.ends 0
  | "fg" | "bg" => some fun _ => Work.fault "No current job"
  | "alias" => some (Work.otherName "alias")
  | "unalias" => some (Work.otherName "unalias")
  | _ => none

end ScriptYard.Shell
