import ScriptYard.Shell.Condition
import ScriptYard.Shell.FileTools
import ScriptYard.Shell.LineEditor
import ScriptYard.Shell.SearchTools

/-!
# The tools in reach

`toolNamed?` finds the tool of a name. Besides those for text and files there are the small ones that scripts
are made of: `echo`, `printf`, `test`, `expr`, `seq`, `sleep` and the like.
-/

namespace ScriptYard.Shell

namespace Call

/-! ### Writing -/

/-- The bytes of a text with the escapes of the tool `echo`, as far as none of them stops the writing; the
flag tells whether one does. -/
def echoEscapes : (fuel : Nat) → List Char → List UInt8 × Bool
  | 0, _ => ([], false)
  | _, [] => ([], false)
  | fuel + 1, '\\' :: c :: rest =>
    let go (bytes : List UInt8) (rest : List Char) : List UInt8 × Bool :=
      let (more, stops) := echoEscapes fuel rest
      (bytes ++ more, stops)
    match Printf.letterByte? c with
    | some b => go [b] rest
    | none =>
      if c == 'c' then ([], true)
      else if c == 'x' then
        let ds := (rest.take 2).takeWhile Printf.isHex
        if ds.isEmpty then go [92, 120] rest
        else go [UInt8.ofNat (valueOfDigits 16 ds)] (rest.drop ds.length)
      else if Printf.isOctal c then
        let ds := if c == '0' then (rest.take 3).takeWhile Printf.isOctal
          else c :: (rest.take 2).takeWhile Printf.isOctal
        go [UInt8.ofNat (valueOfDigits 8 ds)] (rest.drop (if c == '0' then ds.length else ds.length - 1))
      else go (92 :: bytesOf (String.singleton c)) rest
  | fuel + 1, c :: rest =>
    let (more, stops) := echoEscapes fuel rest
    (bytesOf (String.singleton c) ++ more, stops)

/-- The options of `echo` at the front of its arguments, whether escapes count and whether the line is
ended, and the others. -/
def echoOptions (escapes newLine : Bool) : List String → Bool × Bool × List String
  | [] => (escapes, newLine, [])
  | arg :: rest =>
    match arg.toList with
    | '-' :: c :: cs =>
      if (c :: cs).all "neE".toList.contains then
        let last := ((c :: cs).filter (· != 'n')).getLast?
        echoOptions (match last with | some c => c == 'e' | none => escapes)
          (newLine && !(c :: cs).contains 'n') rest
      else (escapes, newLine, arg :: rest)
    | _ => (escapes, newLine, arg :: rest)

/-- The tool `echo`. -/
def echo (c : Call) : Report :=
  let (escapes, newLine, words) := echoOptions false true c.args
  let text := " ".intercalate words
  let ending : List UInt8 := if newLine then [10] else []
  if escapes then
    let (bytes, stops) := echoEscapes (text.length + 1) text.toList
    c.report.write (if stops then bytes else bytes ++ ending)
  else c.report.write (bytesOf text ++ ending)

/-- The tool `printf`. -/
def printf (c : Call) : Report :=
  match (if c.args.head? == some "--" then c.args.drop 1 else c.args) with
  | [] => c.misuse "missing operand"
  | format :: args =>
    let s := Printf.run .program format args
    let r := s.faults.foldl (fun (r : Report) text => r.tell 1 (c.faultLine text)) c.report
    { r with code := s.code }.write s.out

/-- The tool `yes`, which never ends; more than a row of its lines is not asked for. -/
def yes (c : Call) : Report :=
  c.withOptions {} 1 fun o =>
    let line := bytesOf ((if o.operands.isEmpty then "y" else " ".intercalate o.operands) ++ "\n")
    let count := 250000 / line.length + 1
    { c.report with machine := c.machine.wait forever }.write (List.flatten (List.replicate count line))

/-! ### Conditions and values -/

/-- The tool `test`, also under the name of an opening bracket. -/
def test (c : Call) : Report :=
  let bracketed := c.name == "[" || c.name.endsWith "/["
  if bracketed && c.args.getLast? != some "]" then c.fails 2 ("missing " ++ inQuotes "]")
  else match Condition.evaluate c.machine (if bracketed then c.args.dropLast else c.args) with
    | .ok holds => { c.report with code := if holds then 0 else 1 }
    | .error text => c.fails 2 text

/-- The integer of an argument of `expr`: digits, which a dash may stand in front of. -/
def integerOf? (text : String) : Option Int :=
  match text.toList with
  | '-' :: d :: ds => if (d :: ds).all Char.isDigit then some (-(valueOfDigits 10 (d :: ds) : Int)) else none
  | d :: ds => if (d :: ds).all Char.isDigit then some (valueOfDigits 10 (d :: ds)) else none
  | [] => none

/-- Whether a value of `expr` counts as nothing. -/
def isNull (value : String) : Bool := value.isEmpty || integerOf? value == some 0

/-- What a regular expression matches at the start of a value: a group, if it has one, or the number of
its characters. -/
def matchValue (value pattern : String) : Except String String := do
  match Regex.read false false false pattern with
  | .error f => throw f.message
  | .ok (r, groups) =>
    match r.matchHere? true value.toList with
    | some (n, found) =>
      return if 0 < groups then String.ofList ((found.lookup 1).getD []) else naturalText n
    | none => return if 0 < groups then "" else "0"

/-- The value of an operation of `expr`. -/
def operate (op a b : String) : Except String String :=
  let truth (b : Bool) : Except String String := .ok (if b then "1" else "0")
  let arithmetic (f : Int → Int → Int) : Except String String :=
    match integerOf? a, integerOf? b with
    | some x, some y =>
      if y == 0 && (op == "/" || op == "%") then .error "division by zero" else .ok (toString (f x y))
    | _, _ => .error "non-integer argument"
  let compare (ints : Int → Int → Bool) (texts : String → String → Bool) : Except String String :=
    match integerOf? a, integerOf? b with
    | some x, some y => truth (ints x y)
    | _, _ => truth (texts a b)
  match op with
  | "|" => .ok (if !isNull a then a else if !isNull b then b else "0")
  | "&" => .ok (if isNull a || isNull b then "0" else a)
  | "<" => compare (fun x y => x < y) (fun x y => x < y)
  | "<=" => compare (fun x y => x ≤ y) (fun x y => x ≤ y)
  | "=" | "==" => compare (· == ·) (· == ·)
  | "!=" => compare (· != ·) (· != ·)
  | ">=" => compare (fun x y => y ≤ x) (fun x y => y ≤ x)
  | ">" => compare (fun x y => y < x) (fun x y => y < x)
  | "+" => arithmetic (· + ·)
  | "-" => arithmetic (· - ·)
  | "*" => arithmetic (· * ·)
  | "/" => arithmetic Int.tdiv
  | "%" => arithmetic Int.tmod
  | _ => matchValue a b

/-- The operators of `expr` by their ranks, the weakest first. -/
def operatorRanks : List (List String) :=
  [["|"], ["&"], ["<", "<=", "=", "==", "!=", ">=", ">"], ["+", "-"], ["*", "/", "%"], [":"]]

/-- A value of `expr` and the arguments behind it, after the last argument that was read. -/
abbrev ValueStep : Type := Except String (String × String × List String)

mutual

/-- Reads operations of at least a rank. -/
def readOperations : (fuel : Nat) → (rank : Nat) → (last : String) → List String → ValueStep
  | 0, _, _, _ => .error "syntax error"
  | fuel + 1, rank, last, args =>
    if operatorRanks.length ≤ rank then readValue fuel last args
    else do
      let step ← readOperations fuel (rank + 1) last args
      readFurther fuel rank step

/-- Reads operations of a rank behind their first operand. -/
def readFurther : (fuel : Nat) → (rank : Nat) → String × String × List String → ValueStep
  | 0, _, step => .ok step
  | fuel + 1, rank, (value, last, args) =>
    match args with
    | op :: rest =>
      if (operatorRanks.getD rank []).contains op then do
        let (other, last, rest) ← readOperations fuel (rank + 1) op rest
        readFurther fuel rank (← operate op value other, last, rest)
      else .ok (value, last, args)
    | [] => .ok (value, last, [])

def readValue : (fuel : Nat) → (last : String) → List String → ValueStep
  | 0, _, _ => .error "syntax error"
  | fuel + 1, last, args =>
    let value (last : String) (args : List String) : ValueStep := readValue fuel last args
    match args with
    | [] => .error ("syntax error: missing argument after " ++ inQuotes last)
    | "(" :: rest => do
      let (v, last, rest) ← readOperations fuel 0 "(" rest
      match rest with
      | ")" :: rest => return (v, ")", rest)
      | [] => throw ("syntax error: expecting ')' after " ++ inQuotes last)
      | x :: _ => throw ("syntax error: expecting ')' instead of " ++ inQuotes x)
    | ")" :: _ => .error "syntax error: unexpected ')'"
    | "+" :: a :: rest => .ok (a, a, rest)
    | "length" :: rest => if rest.isEmpty then .error ("syntax error: missing argument after " ++ inQuotes "length")
      else do
        let (v, last, rest) ← value "length" rest
        return (naturalText v.length, last, rest)
    | "match" :: rest => do
      let (v, last, rest) ← value "match" rest
      let (p, last, rest) ← value last rest
      return (← matchValue v p, last, rest)
    | "index" :: rest => do
      let (v, last, rest) ← value "index" rest
      let (set, last, rest) ← value last rest
      let before := v.toList.takeWhile (fun c => !set.toList.contains c)
      return (if before.length == v.length then "0" else naturalText (before.length + 1), last, rest)
    | "substr" :: rest => do
      let (v, last, rest) ← value "substr" rest
      let (start, last, rest) ← value last rest
      let (count, last, rest) ← value last rest
      match integerOf? start, integerOf? count with
      | some i, some n =>
        let part := if i < 1 || n < 1 then [] else (v.toList.drop (i.toNat - 1)).take n.toNat
        return (String.ofList part, last, rest)
      | _, _ => return ("", last, rest)
    | a :: rest => .ok (a, a, rest)

end

/-- The tool `expr`. -/
def expr (c : Call) : Report :=
  match (if c.args.head? == some "--" then c.args.drop 1 else c.args) with
  | [] => c.misuse "missing operand" 2
  | args => match readOperations (8 * args.length + 16) 0 "" args with
    | .error text => c.fails 2 text
    | .ok (_, _, x :: _) => c.fails 2 ("syntax error: unexpected argument " ++ inQuotes x)
    | .ok (value, _, []) => { c.report with code := if isNull value then 1 else 0 }.say (value ++ "\n")

/-! ### Numbers and time -/

/-- A decimal number: its digits as an integer, and how many of them are behind the point. -/
def decimal? (text : String) : Option (Int × Nat) :=
  let (negative, cs) := match text.toList with
    | '-' :: cs => (true, cs)
    | '+' :: cs => (false, cs)
    | cs => (false, cs)
  let whole := cs.takeWhile Char.isDigit
  let (fraction, rest) := match cs.drop whole.length with
    | '.' :: rest => (rest.takeWhile Char.isDigit, rest.dropWhile Char.isDigit)
    | rest => ([], rest)
  if (whole.isEmpty && fraction.isEmpty) || !rest.isEmpty then none
  else
    let n : Int := valueOfDigits 10 (whole ++ fraction)
    some (if negative then -n else n, fraction.length)

/-- The text of an integer with a point in front of its last digits. -/
def decimalText (n : Int) (places : Nat) : String :=
  let ds := Nat.toDigits 10 n.natAbs
  let ds := List.replicate (places + 1 - ds.length) '0' ++ ds
  let whole := ds.take (ds.length - places)
  (if n < 0 then "-" else "") ++ String.ofList whole ++
    (if places == 0 then "" else "." ++ String.ofList (ds.drop (ds.length - places)))

/-- A text with zeros behind its sign up to a width. -/
def padZeros (width : Nat) (text : String) : String :=
  let zeros := String.ofList (List.replicate (width - text.length) '0')
  if text.startsWith "-" then "-" ++ zeros ++ String.ofList (text.toList.drop 1) else zeros ++ text

/-- The most numbers that `seq` writes. -/
def longestSequence : Nat := 100000

/-- The arguments of `seq` with two dashes in front of the first number, which may have a dash itself. -/
def markNumbers : List String → List String
  | [] => []
  | [a] => if (decimal? a).isSome then ["--", a] else [a]
  | a :: b :: rest =>
    if (decimal? a).isSome then "--" :: a :: b :: rest
    else if a == "-s" || a == "-f" then a :: b :: markNumbers rest
    else a :: markNumbers (b :: rest)

/-- The tool `seq`. -/
def sequence (c : Call) : Report :=
  let args := markNumbers c.args
  let table : OptionTable := { flags := "w", valued := "sf", mixed := false, long := [("separator", 's'),
    ("equal-width", 'w'), ("format", 'f')] }
  withOptions { c with args := args } table 1 fun o =>
    match o.operands with
    | [] => c.misuse "missing operand"
    | _ :: _ :: _ :: extra :: _ => c.misuse ("extra operand " ++ inQuotes extra)
    | operands =>
      match operands.find? (fun a => (decimal? a).isNone) with
      | some a => c.misuse ("invalid floating point argument: " ++ inQuotes a)
      | none =>
        let number (a : String) : Int × Nat := (decimal? a).getD (0, 0)
        let (first, step, last, stepText) := match operands with
          | [a] => ((1, 0), (1, 0), number a, "1")
          | [a, b] => (number a, (1, 0), number b, "1")
          | a :: s :: b :: _ => (number a, number s, number b, s)
          | [] => ((1, 0), (1, 0), (0, 0), "1")
        if step.1 == 0 then c.misuse ("invalid Zero increment value: " ++ inQuotes stepText)
        else
          let places := max first.2 step.2
          let scale := max places last.2
          let scaled (n : Int × Nat) : Int := n.1 * tenTo (scale - n.2)
          let (a, s, b) := (scaled first, scaled step, scaled last)
          let count := if 0 < s then (if b < a then 0 else ((b - a) / s).toNat + 1)
            else if a < b then 0 else ((a - b) / (-s)).toNat + 1
          let texts := (List.range (min count longestSequence)).map fun i =>
            decimalText ((a + Int.ofNat i * s) / tenTo (scale - places)) places
          let width := (texts.map String.length).foldl max 0
          let texts := if o.has 'w' then texts.map (padZeros width) else texts
          let texts := match o.value? 'f' with
            | some format => texts.map fun t => textOf (Printf.run .program format [t]).out
            | none => texts
          let separator := (o.value? 's').getD "\n"
          if texts.isEmpty then c.report else c.onlySays (separator.intercalate texts ++ "\n")

/-- The time of an argument of `sleep`: seconds, or another unit by its letter. -/
def sleepTime? (arg : String) : Option Span :=
  let (magnitude, length) := Printf.magnitudeAhead arg.toList
  let unit? : Option Nat := match arg.toList.drop length with
    | [] | ['s'] => some 1
    | ['m'] => some 60
    | ['h'] => some 3600
    | ['d'] => some 86400
    | _ => none
  if length == 0 then none
  else unit?.bind fun unit => match magnitude with
    | .quotient n d => some ⟨n * unit * 1000000000 / d⟩
    | .infinite => some forever
    | .undefined => none

/-- The tool `sleep`. -/
def sleep (c : Call) : Report :=
  c.withOptions {} 1 fun o =>
    if o.operands.isEmpty then c.misuse "missing operand"
    else
      let wrong := o.operands.filter fun a => (sleepTime? a).isNone
      if !wrong.isEmpty then
        c.report.tell 1 (String.join (wrong.map fun a =>
          c.faultLine ("invalid time interval " ++ inQuotes a)) ++ c.advice)
      else
        let machine := (o.operands.filterMap sleepTime?).foldl (fun (m : Machine) t => m.wait t) c.machine
        { c.report with machine := machine }

/-! ### Paths and the environment -/

/-- The tool `pwd`. -/
def directory (c : Call) : Report :=
  c.withOptions { flags := "LP", long := [("logical", 'L'), ("physical", 'P')] } 1 fun _ =>
    c.onlySays (c.machine.directoryPath ++ "\n")

/-- The last part of a path. -/
def baseName (path : String) : String :=
  let cs := path.toList.reverse.dropWhile (· == '/')
  if cs.isEmpty then (if path.isEmpty then "" else "/") else String.ofList (cs.takeWhile (· != '/')).reverse

/-- A name without an ending, unless it is nothing else. -/
def withoutEnding (name ending : String) : String :=
  if name != ending && name.endsWith ending then String.ofList (name.toList.take (name.length - ending.length))
  else name

/-- The tool `basename`. -/
def baseNames (c : Call) : Report :=
  c.withOptions { flags := "az", valued := "s", mixed := false, long := [("multiple", 'a'), ("suffix", 's')] } 1
    fun o => match o.operands with
      | [] => c.misuse "missing operand"
      | path :: rest =>
        if o.has 'a' || o.has 's' then
          let ending := (o.value? 's').getD ""
          c.onlySays (String.join ((path :: rest).map fun p => withoutEnding (baseName p) ending ++ "\n"))
        else match rest with
          | [] => c.onlySays (baseName path ++ "\n")
          | [ending] => c.onlySays (withoutEnding (baseName path) ending ++ "\n")
          | _ :: extra :: _ => c.misuse ("extra operand " ++ inQuotes extra)

/-- A path without its last part. -/
def directoryName (path : String) : String :=
  let cs := path.toList.reverse.dropWhile (· == '/')
  let above := (cs.dropWhile (· != '/')).dropWhile (· == '/')
  if cs.isEmpty then (if path.isEmpty then "." else "/")
  else if above.isEmpty then (if cs.contains '/' then "/" else ".")
  else String.ofList above.reverse

/-- The tool `dirname`. -/
def directoryNames (c : Call) : Report :=
  c.withOptions { flags := "z" } 1 fun o =>
    if o.operands.isEmpty then c.misuse "missing operand"
    else c.onlySays (String.join (o.operands.map fun p => directoryName p ++ "\n"))

/-- The tool `printenv`. -/
def printEnvironment (c : Call) : Report :=
  match c.args with
  | [] => c.onlySays (String.join (c.machine.environment.map fun e => e.1 ++ "=" ++ e.2 ++ "\n"))
  | names => names.foldl (fun r name =>
      match c.machine.environment.get? name with
      | some value => r.say (value ++ "\n")
      | none => { r with code := 1 }) c.report

/-- The tool `uname`. -/
def systemName (c : Call) : Report :=
  c.withOptions { flags := "sm", long := [("kernel-name", 's'), ("machine", 'm')] } 1 fun o =>
    let names := (if o.has 's' || !o.has 'm' then ["Linux"] else []) ++ (if o.has 'm' then ["x86_64"] else [])
    c.onlySays (" ".intercalate names ++ "\n")

end Call

/-- What the tool of a name does. -/
def toolNamed? : String → Option (Call → Report)
  | "true" => some fun c => c.report
  | "false" => some fun c => { c.report with code := 1 }
  | "echo" => some Call.echo
  | "printf" => some Call.printf
  | "yes" => some Call.yes
  | "test" | "[" => some Call.test
  | "expr" => some Call.expr
  | "seq" => some Call.sequence
  | "sleep" => some Call.sleep
  | "pwd" => some Call.directory
  | "basename" => some Call.baseNames
  | "dirname" => some Call.directoryNames
  | "printenv" => some Call.printEnvironment
  | "uname" => some Call.systemName
  | "cat" => some Call.cat
  | "head" => some (Call.portion · false)
  | "tail" => some (Call.portion · true)
  | "wc" => some Call.wordCount
  | "sort" => some Call.sortLines
  | "uniq" => some Call.uniqueLines
  | "cut" => some Call.cutLines
  | "rev" => some Call.reverseLines
  | "tac" => some Call.lastLineFirst
  | "nl" => some Call.numberedLines
  | "paste" => some Call.pasteLines
  | "tee" => some Call.tee
  | "tr" => some Call.translateBytes
  | "grep" | "egrep" | "fgrep" => some Call.grep
  | "sed" => some LineEditor.sed
  | "mkdir" => some Call.makeDirectories
  | "rmdir" => some Call.removeDirectories
  | "rm" => some Call.removeFiles
  | "touch" => some Call.touchFiles
  | "chmod" => some Call.changeModes
  | "cp" => some (Call.transferFiles · false)
  | "mv" => some (Call.transferFiles · true)
  | "ls" => some Call.listFiles
  | "realpath" => some Call.realPaths
  | "readlink" => some Call.readLinks
  | _ => none

end ScriptYard.Shell
