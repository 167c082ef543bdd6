import ScriptYard.Document.Plain
import ScriptYard.Number.Shortest
import ScriptYard.Yaml.Cursor

/-!
# Writing YAML

`Yaml.write` writes a value as blocks: a field or item a line, what it holds two columns further
in, except that an array in the place of a field stands in the column of its key. An empty array
or object is a pair of brackets, and lines are never folded.

A string is written without quotes wherever it then reads back as the same string. One with a line
feed is written as a literal block, one that would read as another type in single quotes, and one
that a notation cannot hold in the next wider one (`ScalarStyle`): plain, single quotes, double
quotes. A key that is longer than 128 bytes or has a line break in it gets a question mark in front
and its value a line of its own.
-/

namespace ScriptYard

namespace Yaml

/-! ### Styles of scalars -/

/-- How a scalar is to be written. -/
inductive ScalarStyle where
  /-- Without quotes. -/
  | plain
  /-- In single quotes. -/
  | single
  /-- In double quotes. -/
  | double
  /-- As a literal block. -/
  | literal
deriving DecidableEq, Repr

/-- The characters that are written as they are. -/
def isPrintable (c : Char) : Bool :=
  c == '\n' || (' ' ≤ c && c ≤ '~') || ('\u00a0' ≤ c && c ≤ '\ufffd' && c != '\ufeff') || 0x10000 ≤ c.toNat

/-- Whether a character, or the end of the text, ends a word. -/
def endsWord (next : Option Char) : Bool := Cursor.endsOr isGap next

/-- Whether the first character of a text, followed by `next`, has a meaning of its own in a block. -/
def isOpeningIndicator (c : Char) (next : Option Char) : Bool :=
  "#,[]\x7b\x7d&*!|>'\"%@`".toList.contains c || ((c == ':' || c == '?' || c == '-') && endsWord next)

/-- Whether the text behind its first character holds a colon or number sign that would end the
scalar in a block. `afterGap` tells whether a gap stands before. -/
def holdsIndicator : (afterGap : Bool) → List Char → Bool
  | _, [] => false
  | afterGap, c :: rest =>
    (c == ':' && endsWord rest.head?) || (c == '#' && afterGap) || holdsIndicator (isGap c) rest

/-- Whether a text contains indicators that a block does not allow in a scalar without quotes. -/
def hasIndicators (cs : List Char) : Bool :=
  match cs with
  | [] => false
  | c :: rest =>
    cs.take 3 == ['-', '-', '-'] || cs.take 3 == ['.', '.', '.'] ||
    isOpeningIndicator c rest.head? || holdsIndicator (isGap c) rest

/-- Whether two characters that stand next to each other pass a test. -/
def hasPair (test : Char → Char → Bool) : List Char → Bool
  | a :: b :: rest => test a b || hasPair test (b :: rest)
  | _ => false

/-- Whether a text has a space at its start or end, or a line break. -/
def hasOuterSpaceOrBreak (cs : List Char) : Bool :=
  cs.head? == some ' ' || cs.getLast? == some ' ' || cs.any isBreak

/-- Whether only double quotes can hold a text: a character cannot be written as it is, or a line
ends in a space. -/
def needsEscapes (cs : List Char) : Bool :=
  cs.any (fun c => !isPrintable c) || hasPair (fun a b => a == ' ' && isBreak b) cs

/-- Whether a text can be written without quotes and still be a scalar. -/
def allowsPlain (cs : List Char) : Bool :=
  !(hasOuterSpaceOrBreak cs || needsEscapes cs || hasIndicators cs)

/-- Whether single quotes can hold a text. -/
def allowsSingle (cs : List Char) : Bool :=
  !(needsEscapes cs || hasPair (fun a b => isBreak a && b == ' ') cs)

/-- Whether a literal block can hold a text. -/
def allowsLiteral (cs : List Char) : Bool :=
  !cs.isEmpty && !(needsEscapes cs || cs.getLast? == some ' ')

/-- Whether a text without quotes would be read as something else than a string. -/
def isAmbiguous (text : String) : Bool :=
  match Plain.ofText text with
  | .text => Plain.isZeroPadded text.toList
  | _ => true

def styleOf (text : String) : ScalarStyle :=
  let cs := text.toList
  if cs.contains '\n' then
    if allowsLiteral cs then .literal else .double
  else if !isAmbiguous text && allowsPlain cs then .plain
  else if allowsSingle cs then .single
  else .double

/-! ### The text written so far -/

/-- What has been written, and what it means for what comes next. -/
structure Page where
  /-- The characters written, the last one first. -/
  reversed : List Char := []
  /-- The column reached. -/
  column : Nat := 0
  /-- Whether a blank or indentation was written last. -/
  afterBlank : Bool := true
  /-- Whether only indentation and marks stand on the line. -/
  lineOpen : Bool := true
deriving Repr

namespace Page

/-- Writes a character that breaks no line. -/
def put (p : Page) (c : Char) : Page :=
  { p with reversed := c :: p.reversed, column := p.column + 1 }

/-- Writes characters that break no line. -/
def putAll (p : Page) (cs : List Char) : Page := cs.foldl put p

/-- Writes a line break. -/
def breakLine (p : Page) (c : Char) : Page := { p with reversed := c :: p.reversed, column := 0 }

/-- Goes to a column, on a new line unless this one is still open there. -/
def indentTo (p : Page) (column : Nat) : Page :=
  let stays := p.lineOpen && (p.column < column || (p.column == column && p.afterBlank))
  let p := if stays then p else p.breakLine '\n'
  { p.putAll (List.replicate (column - p.column) ' ') with afterBlank := true, lineOpen := true }

/-- Writes a mark, with a space in front where `spaced` asks for one. -/
def mark (p : Page) (text : String) (spaced keepsOpen : Bool) : Page :=
  let p := if spaced && !p.afterBlank then p.put ' ' else p
  { p.putAll text.toList with afterBlank := false, lineOpen := p.lineOpen && keepsOpen }

def text (p : Page) : String := String.ofList p.reversed.reverse

/-! ### Scalars -/

/-- Writes the characters of a scalar in single quotes. A line feed that begins a gap is written
twice, so that reading does not fold it away. -/
def putSingle (indent : Nat) : (broken : Bool) → Page → List Char → Page
  | broken, p, [] => if broken then p.indentTo indent else p
  | broken, p, c :: rest =>
    if isBreak c then
      let p := if !broken && c == '\n' then p.breakLine '\n' else p
      putSingle indent true { p.breakLine c with lineOpen := true } rest
    else if c == ' ' then putSingle indent broken (p.put c) rest
    else
      let p := if broken then p.indentTo indent else p
      let p := if c == '\'' then p.put c else p
      putSingle indent false { p.put c with lineOpen := false } rest

/-- The digit of a value below sixteen. -/
def hexDigit (n : Nat) : Char := if n < 10 then Char.ofNat (48 + n) else Char.ofNat (55 + n)

/-- The lowest `width` hexadecimal digits of a number. -/
def hexDigits : (width : Nat) → Nat → List Char
  | 0, _ => []
  | width + 1, n => hexDigits width (n / 16) ++ [hexDigit (n % 16)]

/-- The escape of a character behind its backslash. -/
def escape (c : Char) : List Char :=
  match c with
  | '\x00' => ['0']
  | '\x07' => ['a']
  | '\x08' => ['b']
  | '\t' => ['t']
  | '\n' => ['n']
  | '\x0b' => ['v']
  | '\x0c' => ['f']
  | '\r' => ['r']
  | '\x1b' => ['e']
  | '"' => ['"']
  | '\\' => ['\\']
  | '\x85' => ['N']
  | '\u2028' => ['L']
  | '\u2029' => ['P']
  | c =>
    let n := c.toNat
    if n ≤ 0xFF then 'x' :: hexDigits 2 n
    else if n ≤ 0xFFFF then 'u' :: hexDigits 4 n
    else 'U' :: hexDigits 8 n

/-- A character inside double quotes. -/
def doubleChar (c : Char) : List Char :=
  if !isPrintable c || isBreak c || c == '"' || c == '\\' then '\\' :: escape c else [c]

/-- The indicators of a literal block: an indentation where the text starts with a gap, and what
becomes of the line breaks at the end. -/
def literalHeader (cs : List Char) : String :=
  let indentation := match cs.head? with
    | some c => if c == ' ' || isBreak c then "2" else ""
    | none => ""
  let chomping := match cs.reverse with
    | [] => "-"
    | last :: before =>
      -- one line break is what a reader leaves; none, or more than one, has to be told
      if !isBreak last then "-"
      else match before.head? with
        | none => "+"
        | some c => if isBreak c then "+" else ""
  "|" ++ indentation ++ chomping

/-- Writes the lines of a literal block. -/
def putLines (indent : Nat) : (broken : Bool) → Page → List Char → Page
  | _, p, [] => p
  | broken, p, c :: rest =>
    if isBreak c then putLines indent true { p.breakLine c with lineOpen := true } rest
    else
      let p := if broken then p.indentTo indent else p
      putLines indent false { p.put c with lineOpen := false } rest

/-- Writes a scalar; lines that it is continued on start in column `indent`. -/
def putScalar (p : Page) (indent : Nat) (style : ScalarStyle) (text : String) : Page :=
  let cs := text.toList
  match style with
  | .plain => p.mark text true false
  | .single => (putSingle indent false (p.mark "'" true false) cs).mark "'" false false
  | .double => p.mark ("\"" ++ String.ofList (cs.flatMap doubleChar) ++ "\"") true false
  | .literal =>
    let p := (p.mark (literalHeader cs) true false).breakLine '\n'
    putLines indent true { p with afterBlank := true, lineOpen := true } cs

/-- Writes a string. -/
def putString (p : Page) (indent : Nat) (text : String) : Page :=
  p.putScalar indent (styleOf text) text

/-! ### Values -/

/-- Whether a key can stand before its colon on one line. -/
def isSimpleKey (key : String) : Bool := !key.toList.any isBreak && key.utf8ByteSize ≤ 128

/-- Writes a key and the colon behind it. -/
def putKey (p : Page) (indent : Nat) (key : String) : Page :=
  if isSimpleKey key then (p.putString (indent + 2) key).mark ":" false false
  else (((p.mark "?" true true).putString (indent + 2) key).indentTo indent).mark ":" true true

mutual

/-- Writes a value that stands in something at column `indent`, or at the start where there is
none. In the place of a field (`inField`) an array keeps the column of the key. -/
def putValue (p : Page) (indent : Option Nat) (inField : Bool) : Value → Page
  | .null => p.mark "null" true false
  | .bool b => p.mark (if b then "true" else "false") true false
  | .number (.int i) => p.mark (integerText i) true false
  | .number (.float x) => p.mark (FloatStyle.plainExponent.format x) true false
  | .string s => p.putString (indent.getD 0 + 2) s
  | .array [] => p.mark "[]" true false
  | .array (v :: rest) =>
    let column := match indent with
      | none => 0
      | some n => if inField && !p.lineOpen then n else n + 2
    putItems p column (v :: rest)
  | .object [] => p.mark "\x7b\x7d" true false
  | .object (f :: rest) => putFields p (match indent with | none => 0 | some n => n + 2) (f :: rest)

/-- Writes the items of an array. -/
def putItems (p : Page) (column : Nat) : List Value → Page
  | [] => p
  | v :: rest => putItems (putValue ((p.indentTo column).mark "-" true true) (some column) false v) column rest

/-- Writes the fields of an object. -/
def putFields (p : Page) (column : Nat) : List (String × Value) → Page
  | [] => p
  | (key, v) :: rest =>
    putFields (putValue ((p.indentTo column).putKey column key) (some column) true v) column rest

end

end Page

/-- The YAML text of a value, with a line feed at the end. -/
def write (v : Value) : String := ((({} : Page).putValue none false v).indentTo 0).text

end Yaml

end ScriptYard
