/-!
# Files

A `FileTree` is a directory with files and further directories in it, given by the list of their
places. Paths are relative to a directory of it or, with a slash in front, to the root of all files; a
place there has a slash as its first part. Of what lies under the root the usual directories and a few
files are known (`systemEntry?`), and only the directories for passing files may be written to.

A path is followed part by part (`FileTree.walk`): everything on the way to the last part has to be a
directory, a single dot stays where it is, and two dots lead one level up. Operations fail as those of
an operating system do (`FileFault`).
-/

namespace ScriptYard

/-- Why a file or directory cannot be used. -/
inductive FileFault where
  /-- It, or a directory on the way to it, is not there. -/
  | notFound
  /-- It may not be used in this way. -/
  | denied
  /-- It is there already. -/
  | exists
  /-- Something on the way to it is no directory. -/
  | notDirectory
  | isDirectory
  /-- A part of the path is too long. -/
  | nameTooLong
  /-- The path holds a character that no path can hold. -/
  | badPath
  /-- The contents are no text. -/
  | notText
  /-- There is no room for what is written. -/
  | noSpace
deriving DecidableEq, Repr

/-- The text of the fault. -/
def FileFault.message : FileFault → String
  | .notFound => "No such file or directory (os error 2)"
  | .denied => "Permission denied (os error 13)"
  | .exists => "File exists (os error 17)"
  | .notDirectory => "Not a directory (os error 20)"
  | .isDirectory => "Is a directory (os error 21)"
  | .nameTooLong => "File name too long (os error 36)"
  | .badPath => "file name contained an unexpected NUL byte"
  | .notText => "stream did not contain valid UTF-8"
  | .noSpace => "No space left on device (os error 28)"

/-- What stands at a place. -/
inductive FileEntry where
  | file (bytes : List UInt8)
  | directory
  /-- A device that gives nothing when read, and takes what is written to it or has no room for it. -/
  | device (takes : Bool)
deriving DecidableEq, Repr

/-- The files and directories of a directory by the parts of their paths. -/
structure FileTree where
  /-- The entries; of two with one place the first counts. -/
  entries : List (List String × FileEntry) := []
  /-- The place that relative paths start from. -/
  directory : List String := []
deriving DecidableEq, Repr, Inhabited

namespace FileTree

/-! ### Places -/

/-- The parts of a path between its slashes. -/
def parts (path : String) : List String := (path.splitOn "/").filter (· != "")

/-- Whether the last part of a path is one or two dots. -/
def endsInDots (path : String) : Bool :=
  match (parts path).getLast? with
  | some last => last == "." || last == ".."
  | none => false

/-- The place that a path starts from. -/
def start (t : FileTree) (path : String) : List String :=
  if path.startsWith "/" then ["/"] else t.directory

/-- The place one level up. There is none above the tree. -/
def above? (place : List String) : Option (List String) :=
  if place.isEmpty then none else if place = ["/"] then some place else some place.dropLast

/-- The path of a place under the root. -/
def rootPath (parts : List String) : String := "/" ++ "/".intercalate parts

/-- Directories under the root that are there. -/
def systemDirectories : List String :=
  ["/", "/bin", "/boot", "/dev", "/dev/shm", "/etc", "/home", "/lib", "/media", "/mnt", "/opt", "/proc",
    "/root", "/run", "/sbin", "/srv", "/sys", "/tmp", "/usr", "/usr/bin", "/usr/include", "/usr/lib",
    "/usr/local", "/usr/local/bin", "/usr/local/lib", "/usr/sbin", "/usr/share", "/var", "/var/lib",
    "/var/log", "/var/tmp"]

/-- Files under the root that are there. What is in them is not known. -/
def systemFiles : List String := ["/etc/group", "/etc/hostname", "/etc/hosts", "/etc/passwd"]

/-- The programs that are there, in the directories of programs. -/
def programNames : List String :=
  ["[", "basename", "bash", "cat", "chmod", "cp", "cut", "dash", "dirname", "echo", "egrep", "env", "expr",
    "false", "fgrep", "grep", "head", "ls", "mkdir", "mv", "nice", "nl", "nohup", "paste", "printenv",
    "printf", "pwd", "readlink", "realpath", "rev", "rm", "rmdir", "sed", "seq", "setsid", "sh", "sleep",
    "sort", "tac", "tail", "tee", "test", "timeout", "touch", "tr", "true", "uname", "uniq", "wc", "which",
    "xargs", "yes"]

/-- The name of the program at a place. -/
def program? : List String → Option String
  | ["/", "bin", name] | ["/", "usr", "bin", name] => if programNames.contains name then some name else none
  | _ => none

/-- What stands at a place under the root, apart from what a tree holds there. -/
def systemEntry? : List String → Option FileEntry
  | "/" :: parts =>
    let path := rootPath parts
    if systemDirectories.contains path then some .directory
    else if systemFiles.contains path || (program? ("/" :: parts)).isSome then some (.file [])
    else if path == "/dev/null" then some (.device true)
    else if path == "/dev/full" then some (.device false)
    else none
  | _ => none

/-- Whether something may be made or changed at a place. -/
def isOpen : List String → Bool
  | "/" :: "tmp" :: _ :: _ | "/" :: "dev" :: "shm" :: _ :: _ | "/" :: "var" :: "tmp" :: _ :: _ => true
  | "/" :: _ => false
  | _ => true

/-- What stands at a place. The tree itself is a directory. -/
def entry? (t : FileTree) (place : List String) : Option FileEntry :=
  if place.isEmpty then some .directory
  else match t.entries.find? (fun e => e.1 == place) with
    | some e => some e.2
    | none => systemEntry? place

def put (t : FileTree) (place : List String) (e : FileEntry) : FileTree :=
  { t with entries := (place, e) :: t.entries.filter (fun other => other.1 != place) }

/-- Follows parts of a path from a place, all but the last of which have to be directories. -/
def walk (t : FileTree) (place : List String) : List String → Except FileFault (List String)
  | [] => .ok place
  | part :: rest =>
    if 255 < part.utf8ByteSize then .error .nameTooLong
    else
      let next : Except FileFault (List String) :=
        if part == "." then .ok place
        else if part != ".." then .ok (place ++ [part])
        else match above? place with
          | some up => .ok up
          | none => .error .notFound
      match next with
      | .error e => .error e
      | .ok next =>
        if rest.isEmpty then .ok next
        else match t.entry? next with
          | some .directory => walk t next rest
          | some _ => .error .notDirectory
          | none => .error .notFound

/-- The place that a path leads to. -/
def place (t : FileTree) (path : String) : Except FileFault (List String) :=
  if path.toList.contains '\x00' then .error .badPath
  else if path.isEmpty then .error .notFound
  else if 4095 < path.utf8ByteSize then .error .nameTooLong
  else t.walk (t.start path) (parts path)

/-- What stands at the end of a path, and its place. A slash at the end asks for a directory. -/
def locate (t : FileTree) (path : String) : Except FileFault (List String × FileEntry) := do
  let place ← t.place path
  match t.entry? place with
  | none => throw .notFound
  | some .directory => return (place, .directory)
  | some e => if path.endsWith "/" then throw .notDirectory else return (place, e)

/-- What stands at the end of a path. -/
def find (t : FileTree) (path : String) : Except FileFault FileEntry := do return (← t.locate path).2

/-- Whether something stands at the end of a path. -/
def holds (t : FileTree) (path : String) : Bool :=
  match t.find path with
  | .ok _ => true
  | .error _ => false

/-- Whether a path leads to a directory. -/
def isDirectory (t : FileTree) (path : String) : Bool :=
  match t.find path with
  | .ok .directory => true
  | _ => false

/-! ### Reading -/

/-- The text of bytes, if they are one. -/
def textOf? (bytes : List UInt8) : Option String := String.fromUTF8? ⟨bytes.toArray⟩

def bytesOf (text : String) : List UInt8 := text.toUTF8.toList

def readBytes (t : FileTree) (path : String) : Except FileFault (List UInt8) := do
  match ← t.find path with
  | .directory => throw .isDirectory
  | .file bytes => return bytes
  | .device _ => return []

def readText (t : FileTree) (path : String) : Except FileFault String := do
  match textOf? (← t.readBytes path) with
  | some text => return text
  | none => throw .notText

/-! ### Writing -/

/-- The place of a file to be written, which need not be there, and what stands there so far. A path
that could only be that of a directory is none of a file. -/
def target (t : FileTree) (path : String) : Except FileFault (List String × FileEntry) := do
  let place ← t.place path
  if endsInDots path || path.endsWith "/" then throw .isDirectory
  match t.entry? place with
  | some .directory => throw .isDirectory
  | some (.device takes) => return (place, .device takes)
  | some e => if isOpen place then return (place, e) else throw .denied
  | none => if isOpen place then return (place, .file []) else throw .denied

/-- The tree with bytes behind what stands at a place, or instead of it. -/
def store (t : FileTree) (bytes : List UInt8) (behind : Bool) :
    List String × FileEntry → Except FileFault FileTree
  | (_, .device takes) => if takes || bytes.isEmpty then .ok t else .error .noSpace
  | (place, .file before) => .ok (t.put place (.file (if behind then before ++ bytes else bytes)))
  | (_, .directory) => .error .isDirectory

/-- The tree with bytes in the place of a file. -/
def writeBytes (t : FileTree) (path : String) (bytes : List UInt8) : Except FileFault FileTree := do
  t.store bytes false (← t.target path)

/-- The tree with bytes behind what a file holds. -/
def appendBytes (t : FileTree) (path : String) (bytes : List UInt8) : Except FileFault FileTree := do
  t.store bytes true (← t.target path)

/-- The tree with the text in the place of a file. -/
def write (t : FileTree) (path text : String) : Except FileFault FileTree :=
  t.writeBytes path (bytesOf text)

/-- The tree with a directory more. -/
def makeDirectory (t : FileTree) (path : String) : Except FileFault FileTree := do
  let place ← t.place path
  if (t.entry? place).isSome then throw .exists
  else if isOpen place then return t.put place .directory
  else throw .denied

/-- Parts of a path without those at its end that say nothing. -/
def trimParts (parts : List String) : List String :=
  (parts.reverse.dropWhile (fun p => p == "" || p == ".")).reverse

/-- A path without its last part that says something; a single dot does so only at the start. There is
none for a path that has no such part. -/
def parentPath? (path : String) : Option String :=
  match path.splitOn "/" with
  | [] => none
  | first :: rest =>
    match trimParts rest with
    | [] => if first.isEmpty then none else some ""
    | parts =>
      let text := "/".intercalate (first :: trimParts parts.dropLast)
      some (if text.isEmpty && first.isEmpty then "/" else text)

/-- Makes the directory of a path, after those on the way to it where it cannot be made without;
`fuel` bounds their count. -/
def makeAlong (t : FileTree) : (fuel : Nat) → (path : String) → Except FileFault FileTree
  | 0, _ => .error .notFound
  | fuel + 1, path =>
    -- a directory that is there already is as good as one that was made
    let there (t : FileTree) (e : FileFault) : Except FileFault FileTree :=
      if t.isDirectory path then .ok t else .error e
    if path.isEmpty then .ok t
    else match t.makeDirectory path with
      | .ok made => .ok made
      | .error .notFound => do
        let t ← t.makeAlong fuel ((parentPath? path).getD "")
        match t.makeDirectory path with
        | .ok made => return made
        | .error e => there t e
      | .error e => there t e

/-- The tree with the directory of a path and all directories on the way to it. -/
def makeDirectories (t : FileTree) (path : String) : Except FileFault FileTree :=
  t.makeAlong (path.length + 1) path

/-- The tree with directories at the places on the way from one place to another. -/
def addDirectories (t : FileTree) (place : List String) : List String → FileTree
  | [] => t
  | part :: rest => addDirectories (t.put (place ++ [part]) .directory) (place ++ [part]) rest

/-- The tree with a file and the directories on the way to it. -/
def add (t : FileTree) (path : String) (bytes : List UInt8) : FileTree :=
  let start := t.start path
  let parts := (parts path).filter (· != ".")
  (t.addDirectories start parts.dropLast).put (start ++ parts) (.file bytes)

/-- The tree without what stands at a place and below it. -/
def erase (t : FileTree) (place : List String) : FileTree :=
  { t with entries := t.entries.filter (fun e => !place.isPrefixOf e.1) }

/-- The names of what stands in the directory at a place, in order. -/
def namesIn (t : FileTree) (place : List String) : List String :=
  let own := t.entries.filterMap fun e =>
    if e.1.dropLast == place && !e.1.isEmpty then e.1.getLast? else none
  let system := (systemDirectories ++ systemFiles).filterMap fun path =>
    let there := "/" :: parts path
    if there.dropLast == place && 1 < there.length then there.getLast? else none
  let programs := programNames.filter fun name => (program? (place ++ [name])).isSome
  (own ++ system ++ programs).eraseDups.mergeSort (fun a b => decide (a ≤ b))

/-- A path followed by a further part. -/
def join (path part : String) : String :=
  if part.startsWith "/" then part
  else if path.isEmpty || path.endsWith "/" then path ++ part
  else path ++ "/" ++ part

end FileTree

end ScriptYard
