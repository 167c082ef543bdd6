import ScriptYard.Files.Tree
import ScriptYard.Text.Utf8
import ScriptYard.Time.Span
import ScriptYard.Value.Fields

/-!
# What programs work with

A `Machine` is what programs work with and change: variables of the environment, files, and the time
that has passed. `ProgramEnd` says how a program ended and what it leaves behind.
-/

namespace ScriptYard.Shell

/-- What programs work with. -/
structure Machine where
  /-- The variables of the environment. -/
  environment : Fields String := [("PATH", "/usr/local/bin:/usr/bin:/bin")]
  /-- The files in reach. -/
  files : FileTree := {}
  /-- The time taken so far. -/
  elapsed : Span := .zero
deriving Repr, Inhabited

/-- The bytes written to outputs by their numbers, in order. The standard output has the number 1, and
errors go to the output of the number 2. -/
abbrev Writing : Type := List (Nat × List UInt8)

/-- The bytes written to the output of a number. -/
def Writing.to (w : Writing) (number : Nat) : List UInt8 :=
  List.flatMap (fun part => if part.1 == number then part.2 else []) w

/-- The end of a program: its exit code, or the signal that ended it, and what it leaves behind. -/
structure ProgramEnd where
  /-- The exit code, or 128 and the number of the signal. -/
  code : Nat
  /-- Whether a signal ended it. -/
  killed : Bool := false
  /-- What it wrote. -/
  written : Writing := []
  /-- What it left of its input; none if it left all. -/
  unread : Option (List UInt8) := none
  /-- What it leaves behind. -/
  machine : Machine
deriving Repr

def bytesOf (text : String) : List UInt8 := text.toUTF8.toList

/-- The text of a natural number. -/
def naturalText (n : Nat) : String := String.ofList (Nat.toDigits 10 n)

/-- A time that no program is given. -/
def forever : Span := .ofSecs (twoTo 60)

namespace Machine

/-- The machine some time later. -/
def wait (m : Machine) (t : Span) : Machine := { m with elapsed := ⟨m.elapsed.nanos + t.nanos⟩ }

/-- Whether a path leads to a file. -/
def isFile (m : Machine) (path : String) : Bool :=
  match m.files.find path with
  | .ok (.file _) => true
  | _ => false

/-- The path of the directory that programs are in. -/
def directoryPath (m : Machine) : String :=
  match m.files.directory with
  | "/" :: parts => FileTree.rootPath parts
  | parts => FileTree.rootPath parts

/-- The name of the program at a path, or why there is none. -/
def programAt (m : Machine) (path : String) : Except FileFault String :=
  match m.files.locate path with
  | .ok (place, _) => match FileTree.program? place with
    | some name => .ok name
    | none => .error .denied
  | .error f => .error f

/-- The path and the name of the program that a command names: by its path, or in the directories of a
list, which colons separate. -/
def findProgram (m : Machine) (directories command : String) : Except FileFault (String × String) :=
  if command.toList.contains '/' then (m.programAt command).map (command, ·)
  else
    let places := (directories.splitOn ":").map fun directory => directory ++ "/" ++ command
    match places.findSome? fun path => (m.programAt path).toOption.map (path, ·) with
    | some found => .ok found
    | none =>
      if command.isEmpty || places.all (fun path => !m.isFile path) then .error .notFound else .error .denied

/-- The machine with programs in another directory. -/
def enter (m : Machine) (path : String) : Except FileFault Machine := do
  match ← m.files.locate path with
  | (place, .directory) => return { m with files := { m.files with directory := place } }
  | _ => throw .notDirectory

end Machine

/-- The short text of a fault. -/
def faultText : FileFault → String
  | .denied => "Permission denied"
  | .exists => "File exists"
  | .notDirectory => "Not a directory"
  | .isDirectory => "Is a directory"
  | .nameTooLong => "File name too long"
  | .noSpace => "No space left on device"
  | .notFound | .badPath | .notText => "No such file or directory"

/-- A text in the quotes that messages use. -/
def inQuotes (text : String) : String := "‘" ++ text ++ "’"

/-- A text as messages show the names of files: in single quotes. -/
def inFileQuotes (text : String) : String := "'" ++ text ++ "'"

end ScriptYard.Shell
