import ScriptYard.Shell.Regex
import ScriptYard.Shell.TextTools

/-!
# Lines that match

The tool `grep` writes the lines that regular expressions match, or the matches themselves, or tells
how many there are.
-/

namespace ScriptYard.Shell

namespace Call

/-! ### Lines that match -/

/-- A text with all its characters standing for themselves in a basic regular expression. -/
def literalPattern (text : String) : String :=
  String.join (text.toList.map fun c =>
    (if "\\.[*^$".toList.contains c then "\\" else "") ++ String.singleton c)

/-- The parts of characters that an expression matches, from left to right. -/
def matchesIn (r : Regex) (wholeWords : Bool) : (fuel : Nat) → (before : Option Char) → List Char →
    List (List Char)
  | 0, _, _ => []
  | fuel + 1, before, cs =>
    match r.find? before.isNone cs with
    | none => []
    | some (skipped, n, _) =>
      let found := (cs.drop skipped.length).take n
      let rest := cs.drop (skipped.length + n)
      let isWord (c : Char) : Bool := c.isAlphanum || c == '_'
      let alone := !((skipped.getLast?.or before).any isWord) && !(rest.head?.any isWord)
      let step := if n == 0 then rest.drop 1 else rest
      let last := if n == 0 then rest.head? else found.getLast?
      let more := if n == 0 && rest.isEmpty then [] else matchesIn r wholeWords fuel (last.or before) step
      if wholeWords && !alone then
        -- a match inside a word is given up, and the search goes on behind its first character
        matchesIn r wholeWords fuel ((cs.drop skipped.length).head?.or before)
          (cs.drop (skipped.length + 1))
      else found :: more

/-- The tool `grep`. -/
def grep (c : Call) : Report :=
  let table : OptionTable := { flags := "vicnqoEFGlLxwhHrsaI", valued := "em", long := [
      ("invert-match", 'v'), ("ignore-case", 'i'), ("count", 'c'), ("line-number", 'n'),
      ("quiet", 'q'), ("only-matching", 'o'), ("extended-regexp", 'E'), ("fixed-strings", 'F'),
      ("files-with-matches", 'l'), ("line-regexp", 'x'), ("word-regexp", 'w'), ("regexp", 'e'),
      ("max-count", 'm'), ("no-messages", 's'), ("no-filename", 'h'), ("with-filename", 'H')] }
  let usage := "Usage: " ++ c.name ++ " [OPTION]... PATTERNS [FILE]...\n" ++ c.advice
  match readOptions table none c.args with
  | .error text => c.report.tell 2 (c.faultLine text ++ usage)
  | .ok o =>
    let given := (o.given.filter (fun g => g.1 == 'e')).map (·.2)
    match given, o.operands with
    | [], [] => c.report.tell 2 usage
    | given, operands =>
      let (texts, files) := if given.isEmpty then (operands.take 1, operands.drop 1) else (given, operands)
      let texts := texts.flatMap (·.splitOn "\n")
      let extended := o.has 'E' || c.name.endsWith "egrep"
      let fixed := o.has 'F' || c.name.endsWith "fgrep"
      match texts.mapM fun t =>
          if fixed then Regex.read false (o.has 'i') true (literalPattern t)
          else Regex.read extended (o.has 'i') true t with
      | .error f => c.fails 2 f.message
      | .ok regexes =>
        let regexes := regexes.map (·.1)
        let found (line : List Char) : List (List Char) :=
          regexes.flatMap fun r =>
            if o.has 'x' then
              (match (Regex.seq .start (.seq r .finish)).matchHere? true line with
                | some _ => [line]
                | none => [])
            else matchesIn r (o.has 'w') (line.length + 2) none line
        let most := ((o.value? 'm').bind String.toNat?)
        let named := o.has 'H' || (1 < files.length && !o.has 'h')
        let select (lines : List (List UInt8)) : List (List UInt8 × Nat) :=
          let chosen := (lines.zipIdx 1).filter fun (line, _) =>
            (!(found (textOf line).toList).isEmpty) != o.has 'v'
          chosen.take (most.getD chosen.length)
        let stopsAtOnce := o.has 'q' || o.has 'l' || o.has 'L'
        -- a file is left behind the last line that was asked for, if their number was
        let blockSize := if !c.inputIsFile then 65536 else if stopsAtOnce then 98304 else 1
        let left (chosen : List (List UInt8 × Nat)) (bytes : List UInt8) : List UInt8 :=
          let needed := if stopsAtOnce then chosen.head? else
            if some chosen.length == most then chosen.getLast? else none
          match needed with
          | some (_, n) =>
            behindBlocks blockSize (((linesOf bytes).take n).foldl (fun k l => k + l.length + 1) 0) bytes
          | none => []
        let start : Report × Bool × Bool := (c.report, false, false)
        let (r, any, failed) := (if files.isEmpty then ["-"] else files).foldl
          (fun (r, any, failed) path =>
            match c.readOperand path with
            | .error f =>
              (if o.has 's' then r else r.tell 2 (c.faultLine (pathFault path f)), any, true)
            | .ok bytes =>
              let chosen := select (linesOf bytes)
              let r := if path == "-" then { r with unread := some (left chosen bytes) } else r
              let any := any || !chosen.isEmpty
              let shown := if path == "-" then "(standard input)" else path
              let front := if named then shown ++ ":" else ""
              if o.has 'q' then (r, any, failed)
              else if o.has 'l' then (if chosen.isEmpty then r else r.say (shown ++ "\n"), any, failed)
              else if o.has 'L' then (if chosen.isEmpty then r.say (shown ++ "\n") else r, any, failed)
              else if o.has 'c' then (r.say (front ++ naturalText chosen.length ++ "\n"), any, failed)
              else
                let rows := chosen.flatMap fun (line, n) =>
                  let front := front ++ (if o.has 'n' then naturalText n ++ ":" else "")
                  if o.has 'o' then
                    if o.has 'v' then []
                    else ((found (textOf line).toList).filter (!·.isEmpty)).map fun cs =>
                      bytesOf (front ++ String.ofList cs)
                  else [bytesOf front ++ line]
                (r.write (joinLines rows), any, failed)) start
        { r with code := if any && o.has 'q' then 0 else if failed then 2 else if any then 0 else 1 }

end Call

end ScriptYard.Shell
