import ScriptYard.Shell.Pattern
import ScriptYard.Shell.Printf
import ScriptYard.Shell.Tool

/-!
# Tools for text

Tools that copy lines and characters of files and of their input: `cat`, `head`, `tail`, `wc`, `sort`,
`uniq`, `cut`, `tr`, `rev`, `tac`, `nl`, `paste` and `tee`. Lines are ended by line ends; the last one
need not be.
-/

namespace ScriptYard.Shell

/-! ### Lines -/

/-- The lines of bytes, without their line ends; what follows the last line end is a line unless it is
empty. -/
def linesOf (bytes : List UInt8) : List (List UInt8) :=
  bytes.foldr (fun b lines =>
    if b == 10 then [] :: lines
    else match lines with
      | line :: rest => (b :: line) :: rest
      | [] => [[b]]) []

def endsLine (bytes : List UInt8) : Bool := bytes.getLast?.getD 10 == 10

/-- The bytes of lines. -/
def joinLines (lines : List (List UInt8)) : List UInt8 := lines.flatMap (· ++ [10])

/-- The bytes of lines, of which the last one has its line end or not. -/
def joinLinesAs (ended : Bool) (lines : List (List UInt8)) : List UInt8 :=
  if ended then joinLines lines else (joinLines lines).dropLast

/-- The text of bytes, as far as they are one. -/
def textOf (bytes : List UInt8) : String := decodeUtf8 bytes

/-- A text with blanks in front up to a width. -/
def padLeft (width : Nat) (text : String) : String :=
  String.ofList (List.replicate (width - text.length) ' ') ++ text

namespace Call

/-! ### Copying -/

/-- The fault of a file, behind its path. -/
def pathFault (path : String) (f : FileFault) : String := path ++ ": " ++ faultText f

/-- Lines with their numbers, all of them or those that are not blank. -/
def numberLines (blankToo : Bool) : Nat → List (List UInt8) → List (List UInt8)
  | _, [] => []
  | n, line :: rest =>
    if line.isEmpty && !blankToo then line :: numberLines blankToo n rest
    else (bytesOf (padLeft 6 (naturalText n) ++ "\t") ++ line) :: numberLines blankToo (n + 1) rest

/-- Lines without a blank one behind another. -/
def squeezeBlank : List (List UInt8) → List (List UInt8)
  | [] :: [] :: rest => squeezeBlank ([] :: rest)
  | line :: rest => line :: squeezeBlank rest
  | [] => []

/-- The tool `cat`. -/
def cat (c : Call) : Report :=
  c.withOptions { flags := "nbsETAetuv", long := [("number", 'n'), ("show-ends", 'E'), ("squeeze-blank", 's'),
    ("number-nonblank", 'b'), ("show-tabs", 'T'), ("show-all", 'A')] } 1 fun o =>
    let plain := o.given.all (fun g => g.1 == 'u' || g.1 == 'v')
    if plain then
      c.eachOperand o.operands 1 pathFault fun r _ bytes => r.write bytes
    else
      let gathered := c.eachOperand o.operands 1 pathFault fun r _ bytes => r.write bytes
      let bytes := gathered.written.to 1
      let lines := if o.has 's' then squeezeBlank (linesOf bytes) else linesOf bytes
      let tabs := o.has 'T' || o.has 'A' || o.has 't'
      let ends := o.has 'E' || o.has 'A' || o.has 'e'
      let lines := if tabs then lines.map (·.flatMap fun b => if b == 9 then [94, 73] else [b]) else lines
      let lines := if ends then lines.map (· ++ [36]) else lines
      let lines := if o.has 'b' then numberLines false 1 lines
        else if o.has 'n' then numberLines true 1 lines else lines
      let bytes := joinLinesAs (endsLine bytes) lines
      { gathered with written := gathered.written.filter (fun w => w.1 == 2) ++ [(1, bytes)] }

/-- The first or last argument of `head` and `tail` in its old form, a number behind a sign, in the form
of an option. -/
def countOption (plus : Bool) (args : List String) : List String :=
  match args with
  | arg :: rest =>
    match arg.toList with
    | sign :: d :: ds =>
      if (sign == '-' || (plus && sign == '+')) && (d :: ds).all Char.isDigit then
        ((if sign == '+' then "-n+" else "-n") ++ String.ofList (d :: ds)) :: rest
      else args
    | _ => args
  | [] => []

/-- The heading of a file among several. -/
def heading (r : Report) (path : String) : Report :=
  let name := if path == "-" then "standard input" else path
  r.say ((if r.written.any (fun w => w.1 == 1) then "\n" else "") ++ "==> " ++ name ++ " <==\n")

/-- The fault of a file that `head` and `tail` cannot read. -/
def openFault (path : String) (f : FileFault) : String :=
  if f == .isDirectory then "error reading " ++ inFileQuotes path ++ ": Is a directory"
  else "cannot open " ++ inFileQuotes path ++ " for reading: " ++ faultText f

/-- The tools `head` and `tail`: a part of each file, of so many lines or bytes. -/
def portion (c : Call) (last : Bool) : Report :=
  let table : OptionTable := { flags := "qvz", valued := "nc", long := [("lines", 'n'), ("bytes", 'c'),
    ("quiet", 'q'), ("silent", 'q'), ("verbose", 'v')] }
  withOptions { c with args := countOption last c.args } table 1 fun o =>
    let (bytewise, count) := match o.given.reverse.find? (fun g => g.1 == 'n' || g.1 == 'c') with
      | some (letter, value) => (letter == 'c', value)
      | none => (false, "10")
    let (sign?, digits) : Option Char × List Char := match count.toList with
      | '-' :: ds => (some '-', ds)
      | '+' :: ds => (some '+', ds)
      | ds => (none, ds)
    if digits.isEmpty || !digits.all Char.isDigit then
      c.fails 1 ("invalid number of " ++ (if bytewise then "bytes" else "lines") ++ ": " ++ inQuotes count)
    else
      let n := valueOfDigits 10 digits
      let takePart {α : Type} (l : List α) : List α :=
        if last then (if sign? == some '+' then l.drop (n - 1) else l.drop (l.length - n))
        else if sign? == some '-' then l.take (l.length - n) else l.take n
      let named := o.has 'v' || (1 < o.operands.length && !o.has 'q')
      c.eachOperand o.operands 1 openFault fun r path bytes =>
        let r := if named then heading r path else r
        let (kept, blockSize) :=
          if bytewise then (takePart bytes, 1)
          else
            let lines := linesOf bytes
            let kept := takePart lines
            let reachesEnd := last || kept.length == lines.length
            (if kept.isEmpty then [] else joinLinesAs (endsLine bytes || !reachesEnd) kept, 8192)
        let r := r.write kept
        if path != "-" || (last && 0 < n) || (sign? == some '-' && !c.inputIsFile) then r
        else { r with unread := some (behindBlocks (if c.inputIsFile then 1 else blockSize) kept.length bytes) }

/-! ### Counting -/

/-- Whether a byte separates words. -/
def isGapByte (b : UInt8) : Bool := b == 32 || (9 ≤ b && b ≤ 13)

/-- The number of words in bytes. -/
def countWords : (inWord : Bool) → List UInt8 → Nat
  | _, [] => 0
  | inWord, b :: rest =>
    if isGapByte b then countWords false rest
    else (if inWord then 0 else 1) + countWords true rest

/-- The tool `wc`. -/
def wordCount (c : Call) : Report :=
  c.withOptions { flags := "lwcmL", long := [("lines", 'l'), ("words", 'w'), ("bytes", 'c'),
    ("chars", 'm')] } 1 fun o =>
    let columns := if o.given.isEmpty then ['l', 'w', 'c']
      else ['l', 'w', 'm', 'c', 'L'].filter o.has
    let count (bytes : List UInt8) (column : Char) : Nat :=
      match column with
      | 'l' => (bytes.filter (· == 10)).length
      | 'w' => countWords false bytes
      | 'm' => (textOf bytes).length
      | 'L' => ((linesOf bytes).map (fun l => (textOf l).length)).foldl max 0
      | _ => bytes.length
    let operands := if o.operands.isEmpty then ["-"] else o.operands
    let width :=
      if columns.length == 1 && operands.length == 1 then 1
      else
        let sizes := operands.map fun path => match c.readOperand path with
          | .ok bytes => (bytes.length, if path == "-" then c.inputIsFile else c.machine.isFile path)
          | .error f => (0, f != FileFault.isDirectory)
        let total := (sizes.map (·.1)).foldl (· + ·) 0
        max (naturalText total).length (if sizes.all (·.2) then 1 else 7)
    let row (counts : List Nat) (path : String) : String :=
      " ".intercalate (counts.map fun n => padLeft width (naturalText n)) ++
        (if path.isEmpty then "" else " " ++ path) ++ "\n"
    let name (path : String) : String := if o.operands.isEmpty then "" else path
    let (r, totals) := operands.foldl (fun (r, totals) path =>
      let r : Report := if path == "-" then { r with unread := some [] } else r
      match c.readOperand path with
      | .ok bytes =>
        let counts := columns.map (count bytes)
        (r.say (row counts (name path)), List.zipWith (· + ·) totals counts)
      | .error f =>
        let r := r.tell 1 (c.faultLine (pathFault path f))
        (if f == .isDirectory then r.say (row (columns.map fun _ => 0) (name path)) else r, totals))
      (c.report, columns.map fun _ => 0)
    if operands.length == 1 then r else r.say (row totals "total")

/-! ### Order -/

/-- The integer or decimal number at the start of a text, as a quotient. -/
def leadingNumber (text : List UInt8) : Int × Nat :=
  let cs := (text.dropWhile (fun b => b == 32 || b == 9)).map fun b => Char.ofNat b.toNat
  let (negative, cs) := match cs with
    | '-' :: cs => (true, cs)
    | cs => (false, cs)
  let whole := cs.takeWhile Char.isDigit
  let fraction := match cs.drop whole.length with
    | '.' :: rest => rest.takeWhile Char.isDigit
    | _ => []
  let n : Int := valueOfDigits 10 (whole ++ fraction)
  (if negative then -n else n, tenTo fraction.length)

/-- Whether one list of bytes comes before another or is the same. -/
def bytesLe : List UInt8 → List UInt8 → Bool
  | [], _ => true
  | _ :: _, [] => false
  | a :: as, b :: bs => if a == b then bytesLe as bs else a < b

/-- Bytes with capital letters in place of small ones. -/
def capitals (bytes : List UInt8) : List UInt8 :=
  bytes.map fun b => if 97 ≤ b && b ≤ 122 then b - 32 else b

/-- What lines are ordered by: some of their fields, by value or as text, upwards or downwards. -/
structure SortKey where
  /-- The first field, and the last one if it is not that of the line. -/
  fields : Nat × Option Nat := (1, none)
  numeric : Bool := false
  reverse : Bool := false
  fold : Bool := false
  skipBlanks : Bool := false
deriving Repr

/-- The key with the order that letters ask for. -/
def SortKey.ordered (k : SortKey) (letters : List Char) : SortKey :=
  { k with
    numeric := k.numeric || letters.contains 'n' || letters.contains 'g'
    reverse := k.reverse || letters.contains 'r'
    fold := k.fold || letters.contains 'f'
    skipBlanks := k.skipBlanks || letters.contains 'b' }

/-- The key that an argument writes; without letters it takes the order of another. -/
def readKey? (plain : SortKey) (text : String) : Option SortKey :=
  let position (part : String) : Option (Nat × List Char) :=
    let cs := part.toList
    let ds := cs.takeWhile Char.isDigit
    let rest := match cs.drop ds.length with
      | '.' :: rest => rest.dropWhile Char.isDigit
      | rest => rest
    if ds.isEmpty || !rest.all (fun c => "bdfginMRrV".toList.contains c) then none
    else some (valueOfDigits 10 ds, rest)
  match text.splitOn "," with
  | [first] => do
    let (a, letters) ← position first
    if a == 0 then none
    else if letters.isEmpty then some { plain with fields := (a, none) }
    else some (SortKey.ordered { fields := (a, none) } letters)
  | [first, last] => do
    let (a, letters) ← position first
    let (b, more) ← position last
    if a == 0 then none
    else if (letters ++ more).isEmpty then some { plain with fields := (a, some b) }
    else some (SortKey.ordered { fields := (a, some b) } (letters ++ more))
  | _ => none

/-- The fields of a line: what stands between separators, or each run of blanks with what follows it. -/
def sortFields (separator : Option UInt8) (line : List UInt8) : List (List UInt8) :=
  match separator with
  | some s => line.foldr (fun b fields =>
      if b == s then [] :: fields
      else match fields with
        | f :: rest => (b :: f) :: rest
        | [] => [[b]]) [[]]
  | none =>
    let isBlank (b : UInt8) : Bool := b == 32 || b == 9
    -- a field starts at each blank behind something else
    (line.foldr (fun b (fields, next) =>
      match fields with
      | f :: rest =>
        if !isBlank b && next then ([b] :: f :: rest, isBlank b) else ((b :: f) :: rest, isBlank b)
      | [] => ([[b]], isBlank b)) (([] : List (List UInt8)), false)).1

/-- The bytes of a line that a key is about. -/
def SortKey.of (k : SortKey) (separator : Option UInt8) (line : List UInt8) : List UInt8 :=
  let bytes :=
    if k.fields == (1, none) then line
    else
      let fields := (sortFields separator line).drop (k.fields.1 - 1)
      let fields := match k.fields.2 with
        | some last => fields.take (last + 1 - k.fields.1)
        | none => fields
      match separator with
      | some s => List.flatten (fields.intersperse [s])
      | none => fields.flatten
  let bytes := if k.skipBlanks then bytes.dropWhile (fun b => b == 32 || b == 9) else bytes
  if k.fold then capitals bytes else bytes

/-- Whether one line comes before another, comes after it, or neither, by a key. -/
def SortKey.compare (k : SortKey) (separator : Option UInt8) (a b : List UInt8) : Ordering :=
  let x := k.of separator a
  let y := k.of separator b
  let up : Ordering :=
    if k.numeric then
      let (m, d) := leadingNumber x
      let (n, e) := leadingNumber y
      Ord.compare (m * (e : Int)) (n * (d : Int))
    else if x == y then .eq
    else if bytesLe x y then .lt else .gt
  if k.reverse then up.swap else up

/-- Whether lines count as the same by some keys. -/
def sameByKeys (keys : List SortKey) (separator : Option UInt8) (a b : List UInt8) : Bool :=
  keys.all fun k => k.compare separator a b == .eq

/-- Lines without those that count as the same as the line before. -/
def withoutRepeats (same : List UInt8 → List UInt8 → Bool) : List (List UInt8) → List (List UInt8)
  | a :: b :: rest =>
    if same a b then withoutRepeats same (a :: rest) else a :: withoutRepeats same (b :: rest)
  | lines => lines
termination_by lines => lines.length

/-- The tool `sort`. -/
def sortLines (c : Call) : Report :=
  c.withOptions { flags := "rnubfgsdchMV", valued := "kto", long := [("reverse", 'r'), ("numeric-sort", 'n'),
    ("unique", 'u'), ("ignore-case", 'f'), ("key", 'k'), ("field-separator", 't'), ("output", 'o')] } 2 fun o =>
    let letters := o.given.map (·.1)
    let plain : SortKey := SortKey.ordered {} (letters.filter (fun l => "nrfbg".toList.contains l))
    let written := (o.given.filter (fun g => g.1 == 'k')).map (·.2)
    match written.find? (fun text => (readKey? plain text).isNone) with
    | some text =>
      let ds := text.toList.takeWhile Char.isDigit
      c.fails 2 (
        if ds.isEmpty then "invalid number at field start: invalid count at start of " ++ inQuotes text
        else if valueOfDigits 10 ds == 0 then
          "field number is zero: invalid field specification " ++ inQuotes text
        else "stray character in field spec: invalid field specification " ++ inQuotes text)
    | none => if (o.value? 't').any (fun t => 1 < t.utf8ByteSize) then
        c.fails 2 ("multi-character tab " ++ inQuotes ((o.value? 't').getD ""))
      else
      let keys := match written.filterMap (readKey? plain) with
        | [] => [plain]
        | keys => keys
      let separator := (o.value? 't').bind fun t => (bytesOf t).head?
      let r := c.eachOperand o.operands 2 (fun path f => "cannot read: " ++ pathFault path f)
        fun r _ bytes => r.write (if endsLine bytes then bytes else bytes ++ [10])
      if r.code != 0 then { r with written := r.written.filter (fun w => w.1 == 2) }
      else
        let order (a b : List UInt8) : Bool :=
          match (keys.map fun k => k.compare separator a b).find? (· != .eq) with
          | some o => o == .lt
          | none => o.has 's' || o.has 'u' || (if plain.reverse then bytesLe b a else bytesLe a b)
        let lines := (linesOf (r.written.to 1)).mergeSort order
        let lines := if o.has 'u' then withoutRepeats (sameByKeys keys separator) lines else lines
        let empty : Report := { r with written := [] }
        match o.value? 'o' with
        | none => empty.write (joinLines lines)
        | some path => match r.machine.files.writeBytes path (joinLines lines) with
          | .ok files => { empty with machine := { r.machine with files := files } }
          | .error f => empty.tell 2 (c.faultLine ("open failed: " ++ pathFault path f))

/-- Lines that follow each other with the count of each. -/
def runsOf (same : List UInt8 → List UInt8 → Bool) (lines : List (List UInt8)) : List (List UInt8 × Nat) :=
  lines.foldr (fun line runs =>
    match runs with
    | (next, n) :: rest => if same line next then (line, n + 1) :: rest else (line, 1) :: (next, n) :: rest
    | [] => [(line, 1)]) []

/-- The tool `uniq`. -/
def uniqueLines (c : Call) : Report :=
  c.withOptions { flags := "cdui", long := [("count", 'c'), ("repeated", 'd'), ("unique", 'u'),
    ("ignore-case", 'i')] } 1 fun o =>
    c.eachOperand (o.operands.take 1) 1 pathFault fun r _ bytes =>
      let same (a b : List UInt8) : Bool := if o.has 'i' then capitals a == capitals b else a == b
      let runs := (runsOf same (linesOf bytes)).filter fun run =>
        (!o.has 'd' || 1 < run.2) && (!o.has 'u' || run.2 == 1)
      r.write (joinLines (runs.map fun (line, n) =>
        if o.has 'c' then bytesOf (padLeft 7 (naturalText n) ++ " ") ++ line else line))

/-! ### Parts of lines -/

/-- The range of positions that a part of a list writes; a missing end is that of the line. The fault of
another part is told of fields or of characters. -/
def readRange (fields : Bool) (part : String) : Except String (Nat × Option Nat) :=
  let number (ds : String) : Except String Nat :=
    if !ds.toList.all Char.isDigit then
      .error ((if fields then "invalid field value " else "invalid byte/character position ") ++ inQuotes part)
    else .ok (valueOfDigits 10 ds.toList)
  let positive (n : Nat) : Except String Nat :=
    if n == 0 then
      .error (if fields then "fields are numbered from 1" else "byte/character positions are numbered from 1")
    else .ok n
  match part.splitOn "-" with
  | [n] => do let n ← positive (← number n); return (n, some n)
  | [a, b] => do
    if a.isEmpty && b.isEmpty then throw "invalid range with no endpoint: -"
    let a ← if a.isEmpty then pure 1 else do positive (← number a)
    if b.isEmpty then return (a, none)
    let b ← number b
    if b < a then throw "invalid decreasing range"
    return (a, some b)
  | _ => .error (if fields then "invalid field range" else "invalid byte or character range")

/-- Whether a position is in one of some ranges. -/
def inRanges (ranges : List (Nat × Option Nat)) (n : Nat) : Bool :=
  ranges.any fun (a, b) => a ≤ n && b.all (n ≤ ·)

/-- The elements of a list at positions of ranges. -/
def selectAt {α : Type} (keep : Nat → Bool) (l : List α) : List α :=
  (l.zipIdx 1).filterMap fun (a, n) => if keep n then some a else none

/-- The tool `cut`. -/
def cutLines (c : Call) : Report :=
  c.withOptions { flags := "snC", valued := "dfcbO", long := [("delimiter", 'd'), ("fields", 'f'),
    ("characters", 'c'), ("bytes", 'b'), ("only-delimited", 's'), ("output-delimiter", 'O'),
    ("complement", 'C')] } 1 fun o =>
    match o.given.filter (fun g => g.1 == 'f' || g.1 == 'c' || g.1 == 'b') with
    | [] => c.misuse "you must specify a list of bytes, characters, or fields"
    | _ :: _ :: _ => c.misuse "only one list may be specified"
    | [(letter, list)] =>
      let delimiter := (o.value? 'd').getD "\t"
      match (list.splitOn ",").mapM (readRange (letter == 'f')), (bytesOf delimiter) with
      | .error text, _ => c.misuse text
      | .ok _, _ :: _ :: _ => c.misuse "the delimiter must be a single character"
      | .ok ranges, delimiter =>
        let delimiter := delimiter.head?.getD 0
        let keep (n : Nat) : Bool := inRanges ranges n != o.has 'C'
        let between := ((o.value? 'O').map bytesOf).getD [delimiter]
        c.eachOperand o.operands 1 pathFault fun r _ bytes =>
          let lines := linesOf bytes
          let lines :=
            if letter == 'f' then
              (if o.has 's' then lines.filter (·.contains delimiter) else lines).map fun line =>
                if !line.contains delimiter then line
                else List.flatten ((selectAt keep (sortFields (some delimiter) line)).intersperse between)
            else lines.map (selectAt keep)
          r.write (joinLines lines)

/-- The tool `rev`. -/
def reverseLines (c : Call) : Report :=
  c.withOptions {} 1 fun o =>
    c.eachOperand o.operands 1 (fun path f => "cannot open " ++ pathFault path f) fun r _ bytes =>
      r.write (joinLinesAs (endsLine bytes)
        ((linesOf bytes).map fun line => bytesOf (String.ofList (textOf line).toList.reverse)))

/-- The tool `tac`. -/
def lastLineFirst (c : Call) : Report :=
  c.withOptions {} 1 fun o =>
    c.eachOperand o.operands 1
      (fun path f => "failed to open " ++ inFileQuotes path ++ " for reading: " ++ faultText f) fun r _ bytes =>
        match (linesOf bytes).reverse with
        | last :: rest => r.write (last ++ (if endsLine bytes then [10] else []) ++ joinLines rest)
        | [] => r

/-- The tool `nl`. -/
def numberedLines (c : Call) : Report :=
  c.withOptions { valued := "bwsvinf" } 1 fun o =>
    let all := o.value? 'b' == some "a"
    let width := (((o.value? 'w').bind String.toNat?).getD 6)
    let separator := (o.value? 's').getD "\t"
    let first := (((o.value? 'v').bind String.toNat?).getD 1)
    let rec number (n : Nat) : List (List UInt8) → List (List UInt8)
      | [] => []
      | line :: rest =>
        if line.isEmpty && !all then
          bytesOf (padLeft (width + separator.length) "") :: number n rest
        else (bytesOf (padLeft width (naturalText n) ++ separator) ++ line) :: number (n + 1) rest
    let r := c.eachOperand o.operands 1 pathFault fun r _ bytes => r.write bytes
    let lines := number first (linesOf (r.written.to 1))
    { r with written := r.written.filter (fun w => w.1 == 2) ++ [(1, joinLines lines)] }

/-- Columns side by side: the lines of each list at the same place. -/
def zipLines (separator : Nat → List UInt8) : (fuel : Nat) → List (List (List UInt8)) → List (List UInt8)
  | 0, _ => []
  | fuel + 1, columns =>
    if columns.all List.isEmpty then []
    else
      let row := columns.map fun column => column.head?.getD []
      ((row.zipIdx 0).flatMap fun (cell, i) => (if i == 0 then [] else separator (i - 1)) ++ cell) ::
        zipLines separator fuel (columns.map (·.drop 1))

/-- Every so many of some lines, from one of them on. -/
def everyLine (step first : Nat) (lines : List (List UInt8)) : List (List UInt8) :=
  (lines.zipIdx 0).filterMap fun (line, i) => if i % step == first then some line else none

/-- The tool `paste`. -/
def pasteLines (c : Call) : Report :=
  c.withOptions { flags := "s", valued := "d", long := [("serial", 's'), ("delimiters", 'd')] } 1 fun o =>
    let delimiters := (Printf.unescape .program 1000 ((o.value? 'd').getD "\t").toList).1
    let separator (i : Nat) : List UInt8 :=
      if delimiters.isEmpty then [] else [delimiters.getD (i % delimiters.length) 9]
    let operands := if o.operands.isEmpty then ["-"] else o.operands
    match (operands.filterMap fun path => match c.readOperand path with
        | .error f => some (pathFault path f)
        | .ok _ => none) with
    | fault :: _ => c.fails 1 fault
    | [] =>
      let r : Report := { c.report with unread := if operands.contains "-" then some [] else none }
      let lines (path : String) : List (List UInt8) := linesOf ((c.readOperand path).toOption.getD [])
      if o.has 's' then
        r.write (joinLines (operands.map fun path =>
          ((lines path).zipIdx 0).flatMap fun (line, i) => (if i == 0 then [] else separator (i - 1)) ++ line))
      else
        -- several columns of the input take turns in reading its lines
        let shares := (operands.filter (· == "-")).length
        let columns := (operands.zipIdx 0).map fun (path, i) =>
          if path == "-" then everyLine shares ((operands.take i).filter (· == "-")).length (lines path)
          else lines path
        let most := (columns.map List.length).foldl max 0
        r.write (joinLines (zipLines separator most columns))

/-- The tool `tee`. -/
def tee (c : Call) : Report :=
  c.withOptions { flags := "aip", long := [("append", 'a')] } 1 fun o =>
    let r := { c.report with unread := some [] }.write c.input
    o.operands.foldl (fun r path =>
      match (if o.has 'a' then r.machine.files.appendBytes path c.input
          else r.machine.files.writeBytes path c.input) with
      | .ok files => { r with machine := { r.machine with files := files } }
      | .error f => r.tell 1 (c.faultLine (pathFault path f))) r

/-! ### Characters -/

/-- The bytes of a set of the tool `tr`: characters, escapes, ranges and classes. -/
def readByteSet : (fuel : Nat) → List Char → List UInt8
  | 0, _ => []
  | _, [] => []
  | fuel + 1, '[' :: ':' :: rest =>
    let name := rest.takeWhile (· != ':')
    if (rest.drop name.length).take 2 == [':', ']'] then
      ((List.range 128).map fun n => UInt8.ofNat n).filter
        (fun b => Pattern.isOfClass (String.ofList name) (Char.ofNat b.toNat)) ++
        readByteSet fuel (rest.drop (name.length + 2))
    else 91 :: readByteSet fuel (':' :: rest)
  | fuel + 1, c :: rest =>
    let one (cs : List Char) : List UInt8 × List Char :=
      match cs with
      | '\\' :: d :: rest =>
        let ds := ((d :: rest).take 3).takeWhile Printf.isOctal
        if !ds.isEmpty then ([UInt8.ofNat (valueOfDigits 8 ds)], (d :: rest).drop ds.length)
        else match Printf.letterByte? d with
          | some b => ([b], rest)
          | none => (bytesOf (String.singleton d), rest)
      | c :: rest => (bytesOf (String.singleton c), rest)
      | [] => ([], [])
    let (first, rest) := one (c :: rest)
    match rest with
    | '-' :: d :: more =>
      let (last, more) := one (d :: more)
      let low := (first.head?.getD 0).toNat
      let high := (last.head?.getD 0).toNat
      ((List.range (high + 1 - low)).map fun i => UInt8.ofNat (low + i)) ++ readByteSet fuel more
    | rest => first ++ readByteSet fuel rest

/-- The range of a set of the tool `tr` whose ends are in the wrong order. -/
def badRange? : List Char → Option String
  | a :: '-' :: b :: rest =>
    if a != '\\' && b < a then some (String.ofList [a, '-', b]) else badRange? ('-' :: b :: rest)
  | _ :: rest => badRange? rest
  | [] => none

/-- Bytes without those of a set that repeat the byte before. -/
def squeezeBytes (set : List UInt8) : List UInt8 → List UInt8
  | a :: b :: rest =>
    if a == b && set.contains a then squeezeBytes set (b :: rest) else a :: squeezeBytes set (b :: rest)
  | bytes => bytes

/-- The tool `tr`. -/
def translateBytes (c : Call) : Report :=
  c.withOptions { flags := "dscCt", mixed := false, long := [("delete", 'd'), ("squeeze-repeats", 's'),
    ("complement", 'c'), ("truncate-set1", 't')] } 1 fun o =>
    let needsTwo := o.has 'd' == o.has 's'
    let written (set : String) : List UInt8 := readByteSet (set.length + 1) set.toList
    let complement (set : List UInt8) : List UInt8 :=
      if o.has 'c' || o.has 'C' then
        ((List.range 256).map fun n => UInt8.ofNat n).filter (fun b => !set.contains b)
      else set
    let answer (bytes : List UInt8) : Report := { c.report with unread := some [] }.write bytes
    match o.operands with
    | [] => c.misuse "missing operand"
    | _ :: _ :: extra :: _ => c.misuse ("extra operand " ++ inQuotes extra)
    | a :: more =>
      match (a :: more).findSome? (fun set => badRange? set.toList) with
      | some range => c.fails 1 ("range-endpoints of " ++ inFileQuotes range ++ " are in reverse collating sequence order")
      | none =>
        let chosen := complement (written a)
        match more with
        | [] =>
          if needsTwo then c.report.tell 1 (c.faultLine ("missing operand after " ++ inQuotes a) ++
            (if o.has 'd' then "Two strings must be given when both deleting and squeezing repeats.\n"
              else "Two strings must be given when translating.\n") ++ c.advice)
          else if o.has 'd' then answer (c.input.filter (fun b => !chosen.contains b))
          else answer (squeezeBytes chosen c.input)
        | b :: _ =>
          let images := written b
          if o.has 'd' && !o.has 's' then
            c.report.tell 1 (c.faultLine ("extra operand " ++ inQuotes b) ++
              "Only one string may be given when deleting without squeezing repeats.\n" ++ c.advice)
          else if o.has 'd' then answer (squeezeBytes images (c.input.filter (fun b => !chosen.contains b)))
          else if images.isEmpty then c.fails 1 "when not truncating set1, string2 must be non-empty"
          else
            let pairs := (chosen.zipIdx 0).reverse
            let image (b : UInt8) : UInt8 := match pairs.find? (fun p => p.1 == b) with
              | some (_, i) => images.getD (min i (images.length - 1)) b
              | none => b
            let bytes := c.input.map image
            answer (if o.has 's' then squeezeBytes images bytes else bytes)

end Call

end ScriptYard.Shell
