import ScriptYard.Shell.Regex
import ScriptYard.Shell.TextTools

/-!
# Editing lines

The tool `sed` carries out commands for each line of its input. A command is for the lines that its
addresses select, and acts on the line that is held, on a text that is kept aside, and on which command
comes next. `readEdits` reads commands, and `editLines` carries them out.
-/

namespace ScriptYard.Shell.LineEditor

/-- What selects a line. -/
inductive Address where
  | number (n : Nat)
  /-- Its number, from one on in steps. -/
  | step (first size : Nat)
  | last
  /-- What stands in it. -/
  | matching (r : Regex)

/-- A piece of what replaces a match. -/
inductive ReplacementPart where
  /-- A character. -/
  | text (c : Char)
  /-- What a group has matched, or all of the match for the number zero. -/
  | group (n : Nat)

/-- What is done with a line. -/
inductive Action where
  | delete
  /-- The line is deleted up to its first line end, and commands start again with what is left. -/
  | deleteFirst
  | print
  /-- The line is written up to its first line end. -/
  | printFirst
  | number
  /-- The end, with or without writing the line. -/
  | quit (writes : Bool)
  /-- The next line takes the place of the line, or is joined to it. -/
  | next (joins : Bool)
  /-- The line is put into the text aside, or behind it. -/
  | keep (behind : Bool)
  /-- The text aside is put into the line, or behind it. -/
  | recall (behind : Bool)
  /-- Line and text aside change places. -/
  | exchange
  /-- The replacement of a match, counted from the left, or of all from there on. -/
  | substitute (r : Regex) (by_ : List ReplacementPart) (count : Nat) (all shows : Bool)
  /-- The replacement of characters. -/
  | transliterate (pairs : List (Char × Char))
  /-- Lines behind it, in front of it, or in its place. -/
  | append (text : String)
  | insert (text : String)
  | change (text : String)
  /-- So many commands that are only for the lines of this one. -/
  | block (length : Nat)
  /-- A place among the commands. -/
  | label (name : String)
  /-- The commands behind a label come next, or none; in one case only if something was replaced. -/
  | branch (name : String) (ifReplaced : Bool)

/-- A command for the lines that addresses select, or for the others. -/
structure Edit where
  /-- The addresses: none, one, or the first and the last of a range. -/
  addresses : List Address
  /-- Whether it is for the other lines. -/
  others : Bool
  /-- What is done. -/
  action : Action

/-! ### Reading commands -/

/-- A reader's answer, or the text of a fault and what stands behind it. -/
abbrev Outcome : Type → Type := Except (String × List Char)

/-- The characters of a set in brackets behind the opening one, with the closing one. -/
def bracketed (cs : List Char) : List Char :=
  let front := if cs.head? == some '^' then 1 else 0
  let front := if (cs.drop front).head? == some ']' then front + 1 else front
  let inside := (cs.drop front).takeWhile (· != ']')
  cs.take (front + inside.length + 1)

/-- The text up to a delimiter, in which a backslash keeps the delimiter from counting, and the rest. In a
regular expression the delimiter does not count in brackets either. -/
def delimited? (delimiter : Char) (regex : Bool) : (fuel : Nat) → List Char → Option (List Char × List Char)
  | 0, _ => none
  | _, [] => none
  | fuel + 1, '\\' :: c :: rest => (delimited? delimiter regex fuel rest).map fun (text, left) =>
      ((if c == delimiter then [c] else if c == 'n' then ['\n'] else ['\\', c]) ++ text, left)
  | fuel + 1, c :: rest =>
    if c == delimiter then some ([], rest)
    else if c == '[' && regex then
      let set := bracketed rest
      (delimited? delimiter regex fuel (rest.drop set.length)).map fun (text, left) => (c :: set ++ text, left)
    else (delimited? delimiter regex fuel rest).map fun (text, left) => (c :: text, left)

/-- The pieces of a replacement. -/
def readReplacement : List Char → List ReplacementPart
  | '\\' :: c :: rest =>
    (if c.isDigit then .group (c.toNat - 48) else if c == 't' then .text '\t' else .text c) ::
      readReplacement rest
  | '&' :: rest => .group 0 :: readReplacement rest
  | c :: rest => .text c :: readReplacement rest
  | [] => []

/-- The address at the front, if there is one. -/
def readAddress (extended : Bool) (cs : List Char) : Outcome (Option Address × List Char) :=
  match cs with
  | '$' :: rest => .ok (some .last, rest)
  | '/' :: rest =>
    match delimited? '/' true (rest.length + 1) rest with
    | none => .error ("unterminated address regex", [])
    | some (text, rest) =>
      let (fold, rest) := match rest with
        | 'I' :: rest => (true, rest)
        | rest => (false, rest)
      match Regex.read extended fold false (String.ofList text) with
      | .ok (r, _) => .ok (some (.matching r), rest)
      | .error f => .error (f.message, rest)
  | cs =>
    let ds := cs.takeWhile Char.isDigit
    let n := valueOfDigits 10 ds
    if ds.isEmpty then .ok (none, cs)
    else match cs.drop ds.length with
      | '~' :: rest =>
        let size := rest.takeWhile Char.isDigit
        .ok (some (.step n (valueOfDigits 10 size)), rest.drop size.length)
      | rest => .ok (some (.number n), rest)

/-- The substitution behind its letter. -/
def readSubstitution (extended : Bool) (cs : List Char) : Outcome (Action × List Char) := do
  let unterminated : String × List Char := ("unterminated \x60s' command", [])
  match cs with
  | [] => throw unterminated
  | delimiter :: rest => do
    let some (pattern, rest) := delimited? delimiter true (rest.length + 1) rest | throw unterminated
    let some (by_, rest) := delimited? delimiter false (rest.length + 1) rest | throw unterminated
    let flags := rest.takeWhile (fun c => "gpiIm".toList.contains c || c.isDigit)
    let rest := rest.drop flags.length
    match rest with
    | c :: more => if !";\n\x7d# \t".toList.contains c then throw ("unknown option to \x60s'", more)
    | [] => pure ()
    match Regex.read extended (flags.contains 'i' || flags.contains 'I') false (String.ofList pattern) with
    | .error f => throw (f.message, rest)
    | .ok (r, groups) =>
      let parts := readReplacement by_
      match parts.findSome? (fun p => match p with
          | .group n => if groups < n then some n else none
          | .text _ => none) with
      | some n => throw ("invalid reference \\" ++ naturalText n ++ " on \x60s' command's RHS", rest)
      | none =>
        return (.substitute r parts (max 1 (valueOfDigits 10 (flags.filter Char.isDigit))) (flags.contains 'g')
          (flags.contains 'p'), rest)

/-- The replacement of characters behind its letter. -/
def readTransliteration (cs : List Char) : Outcome (Action × List Char) := do
  let unterminated : String × List Char := ("unterminated \x60y' command", [])
  match cs with
  | [] => throw unterminated
  | delimiter :: rest => do
    let some (old, rest) := delimited? delimiter false (rest.length + 1) rest | throw unterminated
    let some (new, rest) := delimited? delimiter false (rest.length + 1) rest | throw unterminated
    if old.length != new.length then throw ("strings for \x60y' command are different lengths", rest)
    return (.transliterate (old.zip new), rest)

/-- The text of a command that adds lines, and the rest. -/
def readAdded (make : String → Action) (cs : List Char) : Outcome (Action × List Char) :=
  let cs := cs.dropWhile (fun c => c == ' ' || c == '\t')
  let cs := match cs with
    | '\\' :: '\n' :: rest => rest
    | '\\' :: rest => rest
    | rest => rest
  if cs.isEmpty then .error ("expected \\ after \x60a', \x60c' or \x60i'", [])
  else
    let text := cs.takeWhile (· != '\n')
    .ok (make (String.ofList text), cs.drop text.length)

/-- The name of a label behind a letter, and the rest. -/
def readLabel (cs : List Char) : String × List Char :=
  let cs := cs.dropWhile (fun c => c == ' ' || c == '\t')
  let name := cs.takeWhile (fun c => c != ';' && c != '\n' && c != '\x7d' && c != ' ')
  (String.ofList name, cs.drop name.length)

/-- The command behind its addresses. -/
def readAction (extended : Bool) : List Char → Outcome (Action × List Char)
  | [] => .error ("missing command", [])
  | c :: rest =>
    match c with
    | 'd' => .ok (.delete, rest)
    | 'D' => .ok (.deleteFirst, rest)
    | 'p' => .ok (.print, rest)
    | 'P' => .ok (.printFirst, rest)
    | '=' => .ok (.number, rest)
    | 'q' => .ok (.quit true, rest)
    | 'Q' => .ok (.quit false, rest)
    | 'n' => .ok (.next false, rest)
    | 'N' => .ok (.next true, rest)
    | 'h' => .ok (.keep false, rest)
    | 'H' => .ok (.keep true, rest)
    | 'g' => .ok (.recall false, rest)
    | 'G' => .ok (.recall true, rest)
    | 'x' => .ok (.exchange, rest)
    | 's' => readSubstitution extended rest
    | 'y' => readTransliteration rest
    | 'a' => readAdded .append rest
    | 'i' => readAdded .insert rest
    | 'c' => readAdded .change rest
    | '\x7b' => .ok (.block 0, rest)
    | ':' => let (name, rest) := readLabel rest; .ok (.label name, rest)
    | 'b' => let (name, rest) := readLabel rest; .ok (.branch name false, rest)
    | 't' => let (name, rest) := readLabel rest; .ok (.branch name true, rest)
    | c => .error ("unknown command: \x60" ++ String.singleton c ++ "'", rest)

/-- The commands of a text, to its end or to the brace that closes a block. -/
def readEdits (extended : Bool) : (fuel : Nat) → (inBlock : Bool) → List Char → Outcome (List Edit × List Char)
  | 0, _, cs => .ok ([], cs)
  | fuel + 1, inBlock, cs =>
    let isBlank (c : Char) : Bool := c == ' ' || c == '\t'
    match cs.dropWhile (fun c => isBlank c || c == ';' || c == '\n') with
    | [] => if inBlock then .error ("unmatched \x60\x7b'", cs) else .ok ([], [])
    | '#' :: rest => readEdits extended fuel inBlock (rest.dropWhile (· != '\n'))
    | '\x7d' :: rest => if inBlock then .ok ([], rest) else .error ("unexpected \x60\x7d'", rest)
    | cs => do
      let (first?, rest) ← readAddress extended cs
      let (second?, rest) ← match first?, rest.dropWhile isBlank with
        | some _, ',' :: rest => do
          match ← readAddress extended (rest.dropWhile isBlank) with
          | (none, rest) => throw ("unexpected \x60,'", rest.drop 1)
          | second => pure second
        | _, rest => pure (none, rest)
      let rest := rest.dropWhile isBlank
      let others := rest.head? == some '!'
      let addresses := first?.toList ++ second?.toList
      let (action, rest) ← readAction extended ((if others then rest.drop 1 else rest).dropWhile isBlank)
      match action with
      | .block _ => do
        let (body, rest) ← readEdits extended fuel true rest
        let (more, rest) ← readEdits extended fuel inBlock rest
        return (⟨addresses, others, .block body.length⟩ :: body ++ more, rest)
      | action => do
        match rest.dropWhile isBlank with
        | c :: more => if !";\n#\x7d".toList.contains c then throw ("extra characters after command", more)
        | [] => pure ()
        let (more, rest) ← readEdits extended fuel inBlock rest
        return (⟨addresses, others, action⟩ :: more, rest)

/-! ### Carrying them out -/

/-- A line with matches replaced: those counted from a number on, or only that one. The flags tell whether
nothing stands in front, and whether a match has just ended there. -/
def replaceMatches (r : Regex) (by_ : List ReplacementPart) (count : Nat) (all : Bool) :
    (fuel seen : Nat) → (atStart behindMatch : Bool) → List Char → List Char × Bool
  | 0, _, _, _, cs => (cs, false)
  | fuel + 1, seen, atStart, behindMatch, cs =>
    match r.find? atStart cs with
    | none => (cs, false)
    | some (before, n, groups) =>
      let found := (cs.drop before.length).take n
      let rest := cs.drop (before.length + n)
      -- an empty match does not count directly behind another match
      let void := n == 0 && before.isEmpty && behindMatch
      let hit := !void && (seen + 1 == count || (all && count ≤ seen + 1))
      let new := if !hit then found else by_.flatMap fun part => match part with
        | .text c => [c]
        | .group 0 => found
        | .group k => (groups.lookup k).getD []
      if hit && !all then (before ++ new ++ rest, true)
      else if n == 0 then
        match rest with
        | [] => (before ++ new, hit)
        | c :: rest =>
          let (tail, more) :=
            replaceMatches r by_ count all fuel (if void then seen else seen + 1) false false rest
          (before ++ new ++ c :: tail, hit || more)
      else
        let (tail, more) := replaceMatches r by_ count all fuel (seen + 1) false true rest
        (before ++ new ++ tail, hit || more)

/-- Where the editing of lines is. -/
structure State where
  /-- The number of the line. -/
  number : Nat := 0
  /-- The text of the line. -/
  line : String := ""
  /-- The lines behind it. -/
  rest : List (List UInt8) := []
  /-- The text kept aside. -/
  aside : String := ""
  /-- What was written. -/
  out : List (List UInt8) := []
  /-- What comes behind the line. -/
  behind : List String := []
  /-- Whether something was replaced in the line. -/
  replaced : Bool := false
  /-- Whether no further line is read. -/
  stopped : Bool := false
  /-- For each command whether its range is open. -/
  openRanges : List Bool := []

/-- Whether an address selects the line. -/
def Address.selects (a : Address) (s : State) : Bool :=
  match a with
  | .number n => n == s.number
  | .step first size =>
    if size == 0 then s.number == first else first ≤ s.number && (s.number - first) % size == 0
  | .last => s.rest.isEmpty
  | .matching r => (r.find? true s.line.toList).isSome

/-- Whether a command is for the line, and whether its range is still open behind it. -/
def Edit.selects (e : Edit) (isOpen : Bool) (s : State) : Bool × Bool :=
  let (hit, stays) := match e.addresses with
    | [] => (true, false)
    | [a] => (a.selects s, false)
    | a :: b :: _ =>
      if isOpen then
        (true, match b with
          | .number n => s.number < n
          | b => !b.selects s)
      else if a.selects s then
        (true, match b with
          | .number n => s.number < n
          | _ => true)
      else (false, false)
  (hit != e.others, stays)

/-- What comes after a command. -/
inductive Then where
  /-- The command at a place. -/
  | goTo (place : Nat)
  /-- The end of the line, which is written or not. -/
  | ends (writes : Bool)
  /-- The first command again, for the same line. -/
  | restarts

/-- The state with a text and a line end written. -/
def State.say (s : State) (text : String) : State := { s with out := bytesOf (text ++ "\n") :: s.out }

/-- The place of a label, or of the end. -/
def placeOf (edits : List Edit) (name : String) : Nat :=
  if name.isEmpty then edits.length
  else edits.findIdx fun e => match e.action with
    | .label n => n == name
    | _ => false

/-- The part of a line in front of its first line end. -/
def firstLine (line : String) : String := String.ofList (line.toList.takeWhile (· != '\n'))

/-- Carries out a command at a place. -/
def Action.perform (a : Action) (edits : List Edit) (quiet : Bool) (place : Nat) (s : State) : State × Then :=
  let further (s : State) : State × Then := (s, .goTo (place + 1))
  match a with
  | .delete => (s, .ends false)
  | .deleteFirst =>
    if s.line.toList.contains '\n' then
      ({ s with line := String.ofList (s.line.toList.drop ((firstLine s.line).length + 1)) }, .restarts)
    else (s, .ends false)
  | .print => further (s.say s.line)
  | .printFirst => further (s.say (firstLine s.line))
  | .number => further (s.say (naturalText s.number))
  | .quit writes => ({ s with stopped := true }, .ends writes)
  | .next joins =>
    match s.rest with
    | [] => ({ s with stopped := true }, .ends (!quiet || joins))
    | line :: rest =>
      let s := { s with rest := rest, number := s.number + 1 }
      if joins then further { s with line := s.line ++ "\n" ++ textOf line }
      else further { (if quiet then s else s.say s.line) with line := textOf line }
  | .keep behind => further { s with aside := if behind then s.aside ++ "\n" ++ s.line else s.line }
  | .recall behind => further { s with line := if behind then s.line ++ "\n" ++ s.aside else s.aside }
  | .exchange => further { s with line := s.aside, aside := s.line }
  | .substitute r by_ count all shows =>
    let (cs, changed) := replaceMatches r by_ count all (s.line.length + 2) 0 true false s.line.toList
    let s := { s with line := String.ofList cs, replaced := s.replaced || changed }
    further (if changed && shows then s.say s.line else s)
  | .transliterate pairs =>
    further { s with line := String.ofList (s.line.toList.map fun c => (pairs.lookup c).getD c) }
  | .append text => further { s with behind := s.behind ++ [text] }
  | .insert text => further (s.say text)
  | .change text => (s.say text, .ends false)
  | .block _ | .label _ => further s
  | .branch name ifReplaced =>
    if !ifReplaced then (s, .goTo (placeOf edits name))
    else if s.replaced then ({ s with replaced := false }, .goTo (placeOf edits name))
    else further s

/-- Carries out commands from a place on, and tells whether the line is written behind them. -/
def performEdits (edits : List Edit) (quiet : Bool) : (fuel : Nat) → (place : Nat) → State → State × Bool
  | 0, _, s => (s, true)
  | fuel + 1, place, s =>
    match edits[place]? with
    | none => (s, true)
    | some e =>
      let (hit, stays) := e.selects (s.openRanges.getD place false) s
      let s := { s with openRanges := s.openRanges.set place stays }
      if !hit then
        match e.action with
        | .block length => performEdits edits quiet fuel (place + 1 + length) s
        | _ => performEdits edits quiet fuel (place + 1) s
      else match e.action.perform edits quiet place s with
        | (s, .goTo place) => performEdits edits quiet fuel place s
        | (s, .ends writes) => (s, writes)
        | (s, .restarts) => performEdits edits quiet fuel 0 s

/-- How many commands are carried out for a line at most. -/
def mostEdits : Nat := 100000

/-- Edits the lines that are left, of which the last one has its line end or not. -/
def editLines (edits : List Edit) (quiet ended : Bool) : (fuel : Nat) → State → State
  | 0, s => s
  | fuel + 1, s =>
    match s.rest, s.stopped with
    | line :: rest, false =>
      let (s, writes) := performEdits edits quiet mostEdits 0
        { s with number := s.number + 1, line := textOf line, rest := rest, behind := [], replaced := false }
      let ending := if s.rest.isEmpty && !ended then "" else "\n"
      let kept := if writes && !quiet then s.line ++ ending else ""
      editLines edits quiet ended fuel
        { s with out := bytesOf (kept ++ String.join (s.behind.map (· ++ "\n"))) :: s.out }
    | _, _ => s

/-- The bytes of a text with its lines edited, and how many bytes of it were needed. -/
def edit (edits : List Edit) (quiet : Bool) (bytes : List UInt8) : List UInt8 × Nat :=
  let lines := linesOf bytes
  let s := editLines edits quiet (endsLine bytes) (lines.length + 1)
    { rest := lines, openRanges := edits.map fun _ => false }
  (s.out.reverse.flatten, bytes.length - s.rest.foldl (fun k l => k + l.length + 1) 0)

/-- The tool `sed`. -/
def sed (c : Call) : Report :=
  c.withOptions { flags := "nErsiuz", valued := "ef", long := [("quiet", 'n'), ("silent", 'n'),
    ("expression", 'e'), ("regexp-extended", 'E')] } 1 fun o =>
    let given := (o.given.filter (fun g => g.1 == 'e')).map (·.2)
    match given, o.operands with
    | [], [] =>
      c.report.tell 1 ("Usage: " ++ c.name ++
        " [OPTION]... \x7bscript-only-if-no-other-script\x7d [input-file]...\n\n")
    | given, operands =>
      let (scripts, files) := if given.isEmpty then (operands.take 1, operands.drop 1) else (given, operands)
      let script := "\n".intercalate scripts
      match readEdits (o.has 'E' || o.has 'r') (script.length + 1) false script.toList with
      | .error (text, left) =>
        let place := if text.startsWith "unmatched" then 0 else script.length - left.length
        c.fails 1 ("-e expression #1, char " ++ naturalText place ++ ": " ++ text)
      | .ok (edits, _) =>
        let wrong := edits.findSome? fun e => match e.action with
          | .branch name _ => if edits.length < placeOf edits name + 1 && !name.isEmpty then some name else none
          | _ => none
        let fault (path : String) (f : FileFault) : String :=
          if f == FileFault.isDirectory then "couldn't edit " ++ path ++ ": not a regular file"
          else "can't read " ++ Call.pathFault path f
        match wrong with
        | some name => c.fails 1 ("can't find label for jump to \x60" ++ name ++ "'")
        | none =>
          if o.has 'i' then
            c.eachOperand files 2 fault fun r path bytes =>
              match r.machine.files.writeBytes path (edit edits (o.has 'n') bytes).1 with
              | .ok files => { r with machine := { r.machine with files := files } }
              | .error f => r.tell 4 (c.faultLine (Call.pathFault path f))
          else
            let r := c.eachOperand files 2 fault fun r _ bytes => r.write bytes
            let (out, needed) := edit edits (o.has 'n') (r.written.to 1)
            let left := behindBlocks (if c.inputIsFile then 1 else 4096) needed c.input
            { r with
              written := r.written.filter (fun w => w.1 == 2) ++ [(1, out)]
              unread := if files.isEmpty || files == ["-"] then some left else r.unread }

end ScriptYard.Shell.LineEditor
