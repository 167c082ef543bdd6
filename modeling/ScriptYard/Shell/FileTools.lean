import ScriptYard.Shell.Tool

/-!
# Tools for files

Tools that make, remove, copy, move and list files and directories: `mkdir`, `rmdir`, `rm`, `touch`,
`cp`, `mv`, `ls`, `chmod` and `realpath`. Each goes on to its next argument when one cannot be used.
-/

namespace ScriptYard.Shell

namespace Report

/-- The report with files changed, or with the fault that kept them from being changed. -/
def change (r : Report) (outcome : Except FileFault FileTree) (fault : FileFault → String) : Report :=
  match outcome with
  | .ok files => { r with machine := { r.machine with files := files } }
  | .error f => r.tell 1 (fault f)

/-- The files that the tool works with. -/
def files (r : Report) : FileTree := r.machine.files

end Report

namespace Call

/-- The last part of a path that says something. -/
def lastPart (path : String) : String := (FileTree.parts path).getLast?.getD "/"

/-- What is done for each of the operands, of which there has to be one. -/
def forOperands (c : Call) (o : Options) (missing : String) (act : Report → String → Report) : Report :=
  if o.operands.isEmpty then c.misuse missing else o.operands.foldl act c.report

/-- The tool `mkdir`. -/
def makeDirectories (c : Call) : Report :=
  c.withOptions { flags := "pv", valued := "m", long := [("parents", 'p'), ("verbose", 'v'), ("mode", 'm')] } 1
    fun o => c.forOperands o "missing operand" fun r path =>
      let fault (f : FileFault) : String :=
        c.faultLine ("cannot create directory " ++ inQuotes path ++ ": " ++ faultText f)
      let after := r.change (if o.has 'p' then r.files.makeDirectories path else r.files.makeDirectory path) fault
      if o.has 'v' && after.code == r.code then
        after.say (c.name ++ ": created directory " ++ inFileQuotes path ++ "\n")
      else after

/-- The place of an empty directory, or why there is none to be removed. -/
def emptyDirectory (files : FileTree) (path : String) : Except String (List String) :=
  match files.locate path with
  | .error f => .error (faultText f)
  | .ok (place, .directory) =>
    if !(files.namesIn place).isEmpty then .error "Directory not empty"
    else if FileTree.isOpen place then .ok place else .error "Permission denied"
  | .ok _ => .error "Not a directory"

/-- The tool `rmdir`. -/
def removeDirectories (c : Call) : Report :=
  c.withOptions { flags := "pv", long := [("parents", 'p'), ("verbose", 'v')] } 1 fun o =>
    c.forOperands o "missing operand" fun r path =>
      match emptyDirectory r.files path with
      | .ok place => r.change (.ok (r.files.erase place)) fun _ => ""
      | .error text => r.tell 1 (c.faultLine ("failed to remove " ++ inFileQuotes path ++ ": " ++ text))

/-- The tool `rm`. -/
def removeFiles (c : Call) : Report :=
  c.withOptions { flags := "frRvid", long := [("force", 'f'), ("recursive", 'r'), ("verbose", 'v'),
    ("dir", 'd')] } 1 fun o =>
    let forced := o.has 'f'
    if o.operands.isEmpty && forced then c.report
    else c.forOperands o "missing operand" fun r path =>
      let refuse (text : String) : Report :=
        r.tell 1 (c.faultLine ("cannot remove " ++ inFileQuotes path ++ ": " ++ text))
      let remove (place : List String) : Report :=
        if !FileTree.isOpen place then refuse "Permission denied"
        else
          let r := r.change (.ok (r.files.erase place)) fun _ => ""
          if o.has 'v' then r.say ("removed " ++ inFileQuotes path ++ "\n") else r
      match r.files.locate path with
      | .error f => if forced && f == FileFault.notFound then r else refuse (faultText f)
      | .ok (place, .directory) =>
        if o.has 'r' || o.has 'R' then
          if FileTree.endsInDots path then
            r.tell 1 (c.faultLine ("refusing to remove '.' or '..' directory: skipping " ++ inFileQuotes path))
          else remove place
        else if o.has 'd' && (r.files.namesIn place).isEmpty then remove place
        else refuse "Is a directory"
      | .ok (place, _) => remove place

/-- The tool `touch`. -/
def touchFiles (c : Call) : Report :=
  c.withOptions { flags := "acm", valued := "drt", long := [("no-create", 'c'), ("date", 'd'),
    ("reference", 'r')] } 1 fun o =>
    c.forOperands o "missing file operand" fun r path =>
      if r.files.holds path || o.has 'c' then r
      else r.change (r.files.writeBytes path []) fun f =>
        c.faultLine ("cannot touch " ++ inFileQuotes path ++ ": " ++ faultText f)

/-- The tool `chmod`; what files may be used for does not change. -/
def changeModes (c : Call) : Report :=
  match c.args.filter (fun a => a != "-R") with
  | [] => c.misuse "missing operand"
  | [mode] => c.misuse ("missing operand after " ++ inQuotes mode)
  | _ :: paths => paths.foldl (fun r path =>
      match r.files.find path with
      | .ok _ => r
      | .error f => r.tell 1 (c.faultLine ("cannot access " ++ inFileQuotes path ++ ": " ++ faultText f)))
      c.report

/-- The entries at and below a place, put at and below another. -/
def copyTree (files : FileTree) (old new : List String) : FileTree :=
  (files.entries.filter (fun e => old.isPrefixOf e.1)).foldr
    (fun e files => files.put (new ++ e.1.drop old.length) e.2) files

/-- Copies or moves what stands at a path to another one. -/
def transfer (c : Call) (moves recursive : Bool) (r : Report) (source target : String) : Report :=
  match r.files.locate source with
  | .error f => r.tell 1 (c.faultLine ("cannot stat " ++ inFileQuotes source ++ ": " ++ faultText f))
  | .ok (place, entry) =>
    if entry == .directory && !moves && !recursive then
      r.tell 1 (c.faultLine ("-r not specified; omitting directory " ++ inFileQuotes source))
    else
      let target := if r.files.isDirectory target then FileTree.join target (lastPart source) else target
      let refuse (f : FileFault) : Report :=
        r.tell 1 (c.faultLine (
          if moves then
            "cannot move " ++ inFileQuotes source ++ " to " ++ inFileQuotes target ++ ": " ++ faultText f
          else if entry == .directory then
            "cannot create directory " ++ inFileQuotes target ++ ": " ++ faultText f
          else "cannot create regular file " ++ inFileQuotes target ++ ": " ++ faultText f))
      match r.files.place target with
      | .error f => refuse f
      | .ok newPlace =>
        if newPlace == place then
          r.tell 1 (c.faultLine (inFileQuotes source ++ " and " ++ inFileQuotes target ++ " are the same file"))
        else
          let moved (files : FileTree) : FileTree := if moves then files.erase place else files
          match entry with
          | .directory =>
            if !FileTree.isOpen newPlace || (moves && !FileTree.isOpen place) then refuse .denied
            else if (r.files.entry? newPlace.dropLast).isNone then refuse .notFound
            else r.change (.ok (moved (copyTree r.files place newPlace))) fun _ => ""
          | .file bytes =>
            if moves && !FileTree.isOpen place then refuse .denied
            else match r.files.writeBytes target bytes with
              | .ok files => r.change (.ok (moved files)) fun _ => ""
              | .error f => refuse f
          | .device _ => match r.files.writeBytes target [] with
            | .ok files => r.change (.ok files) fun _ => ""
            | .error f => refuse f

/-- The tools `cp` and `mv`. -/
def transferFiles (c : Call) (moves : Bool) : Report :=
  c.withOptions { flags := "rRafivpTnu", valued := "t", long := [("recursive", 'r'), ("archive", 'a'),
    ("force", 'f'), ("verbose", 'v'), ("no-clobber", 'n')] } 1 fun o =>
    match o.operands with
    | [] => c.misuse "missing file operand"
    | [source] => c.misuse ("missing destination file operand after " ++ inFileQuotes source)
    | operands =>
      let target := operands.getLast?.getD ""
      let sources := operands.dropLast
      if 1 < sources.length && !c.machine.files.isDirectory target then
        c.fails 1 ("target " ++ inFileQuotes target ++
          (if c.machine.files.holds target then ": Not a directory" else ": No such file or directory"))
      else
        let recursive := o.has 'r' || o.has 'R' || o.has 'a'
        sources.foldl (fun r source => c.transfer moves recursive r source target) c.report

/-- The tool `ls`. -/
def listFiles (c : Call) : Report :=
  c.withOptions { flags := "aA1dFprRCmxtSUl", long := [("all", 'a'), ("almost-all", 'A'), ("directory", 'd'),
    ("reverse", 'r'), ("classify", 'F')] } 2 fun o =>
    let files := c.machine.files
    let mark (path : String) : String :=
      if (o.has 'F' || o.has 'p') && files.isDirectory path then "/" else ""
    let ordered (names : List String) : List String :=
      let names := names.mergeSort (fun a b => decide (a ≤ b))
      if o.has 'r' then names.reverse else names
    let operands := if o.operands.isEmpty then ["."] else ordered o.operands
    let r := operands.foldl (fun (r : Report) path =>
      match files.find path with
      | .ok _ => r
      | .error f => r.tell 2 (c.faultLine ("cannot access " ++ inFileQuotes path ++ ": " ++ faultText f)))
      c.report
    let there := operands.filter files.holds
    let plain := there.filter fun path => o.has 'd' || !files.isDirectory path
    let directories := there.filter fun path => !o.has 'd' && files.isDirectory path
    let r := plain.foldl (fun r path => r.say (path ++ mark path ++ "\n")) r
    let listing (path : String) : String :=
      match files.locate path with
      | .ok (place, _) =>
        let names := files.namesIn place
        let names := if o.has 'a' then [".", ".."] ++ names
          else if o.has 'A' then names else names.filter (fun n => !n.startsWith ".")
        String.join ((ordered names).map fun name => name ++ mark (FileTree.join path name) ++ "\n")
      | .error _ => ""
    (directories.zipIdx 0).foldl (fun r (path, i) =>
      let gap := if i == 0 && plain.isEmpty then "" else "\n"
      r.say ((if 1 < operands.length then gap ++ path ++ ":\n" else "") ++ listing path)) r

/-- The tool `realpath`. -/
def realPaths (c : Call) : Report :=
  c.withOptions { flags := "efmqsz" } 1 fun o =>
    c.forOperands o "missing operand" fun r path =>
      match r.files.place path with
      | .error f => r.tell 1 (c.faultLine (path ++ ": " ++ faultText f))
      | .ok place =>
        if o.has 'e' && !r.files.holds path then
          r.tell 1 (c.faultLine (path ++ ": " ++ faultText .notFound))
        else r.say ((match place with
          | "/" :: parts => FileTree.rootPath parts
          | parts => FileTree.rootPath parts) ++ "\n")

/-- The tool `readlink`. No path is a link. -/
def readLinks (c : Call) : Report :=
  c.withOptions { flags := "efmnqsvz" } 1 fun o =>
    if o.has 'f' || o.has 'e' || o.has 'm' then c.realPaths
    else c.forOperands o "missing operand" fun r _ => { r with code := 1 }

end Call

end ScriptYard.Shell
