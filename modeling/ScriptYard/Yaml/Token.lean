import ScriptYard.Document.Node
import ScriptYard.Yaml.ScalarText

/-!
# The tokens of a YAML text

`Yaml.tokens` cuts a YAML text into tokens. Brackets, commas, markers and scalars stand for
themselves; the structure that indentation gives is made explicit by tokens that open and close
blocks (`Token.openBlockSequence`, …), and the name of a field gets a `Token.key` in front.

Whether a scalar is the name of a field shows only when the colon behind it is met. Until then its
place is remembered as a `KeyPlace`: on one line and within 1024 characters a colon may still
turn it into a name, and `Token.key` is put in at the place. Where the text breaks the notation,
tokens from the first such open place on are not given out (`Scanner.finish`), nor any that were cut
in the step that met the fault.
-/

namespace ScriptYard

namespace Yaml

/-- A token of a YAML text. -/
inductive Token where
  /-- A directive that names the version of the notation. -/
  | version (major minor : Nat)
  /-- A directive that gives a tag handle its meaning. -/
  | tagDirective (handle : String) (meaning : List UInt8)
  /-- The marker in front of a document. -/
  | documentStart
  /-- The marker behind a document. -/
  | documentEnd
  /-- The start of an array by indentation. -/
  | openBlockSequence
  /-- The start of an object by indentation. -/
  | openBlockMapping
  /-- The end of an array or object by indentation. -/
  | closeBlock
  /-- An opening square bracket. -/
  | openSequence
  /-- A closing square bracket. -/
  | closeSequence
  /-- An opening brace. -/
  | openMapping
  /-- A closing brace. -/
  | closeMapping
  /-- A dash in front of an item. -/
  | blockItem
  | comma
  /-- The name of a field follows. -/
  | key
  /-- The value of a field follows. -/
  | value
  /-- A reference to an anchor. -/
  | alias (name : String)
  /-- An anchor of the node that follows. -/
  | anchor (name : String)
  /-- A tag of the node that follows: a handle and the bytes of a suffix. -/
  | tag (handle : String) (suffix : List UInt8)
  | scalar (text : String) (form : ScalarForm)
deriving DecidableEq, Repr

/-- A place that may turn out to be the name of a field. -/
structure KeyPlace where
  /-- Whether nothing else than a name can stand there. -/
  required : Bool
  /-- The count of tokens before the place. -/
  number : Nat
  /-- The line of the place. -/
  line : Nat
  /-- The column of the place. -/
  column : Nat
  /-- The index of the place. -/
  index : Nat
deriving Repr

/-- How far a text has been cut into tokens. -/
structure Scanner where
  /-- The place reached. -/
  cursor : Cursor
  /-- The column of the innermost open block, -1 where none is open. -/
  indent : Int
  /-- The columns of the blocks around it. -/
  outer : List Int
  /-- Whether the name of a field may start here. -/
  keyAllowed : Bool
  /-- The open place of the current bracket level, if there is one. -/
  place : Option KeyPlace
  /-- The open places of the bracket levels around it; there are as many as open brackets. -/
  places : List (Option KeyPlace)
  /-- The tokens so far, the last one first. -/
  reversed : List Token
  /-- The count of tokens so far. -/
  count : Nat
deriving Repr

namespace Scanner

/-- A text of which nothing has been cut. -/
def start (text : List Char) : Scanner :=
  ⟨Cursor.start text, -1, [], true, none, [], [], 0⟩

/-- Whether the place is inside brackets. -/
def inFlow (s : Scanner) : Bool := !s.places.isEmpty

/-- One more token. -/
def emit (s : Scanner) (t : Token) : Scanner :=
  { s with reversed := t :: s.reversed, count := s.count + 1 }

/-- A token put in behind the first `number` ones. -/
def insertAt (s : Scanner) (number : Nat) (t : Token) : Scanner :=
  let behind := s.count - number
  { s with
    reversed := s.reversed.take behind ++ t :: s.reversed.drop behind
    count := s.count + 1 }

/-- One more token and a place further on. -/
def emitTo (s : Scanner) (t : Token) (c : Cursor) : Scanner := { s.emit t with cursor := c }

/-! ### Indentation -/

/-- Closes the blocks that are indented further than a column; `outer` are the columns around. -/
def closeBlocks (column : Int) : (outer : List Int) → Scanner → Scanner
  | [], s => if column < s.indent then { s.emit .closeBlock with indent := -1, outer := [] } else s
  | i :: outer, s =>
    if column < s.indent then
      closeBlocks column outer { s.emit .closeBlock with indent := i, outer := outer }
    else s

/-- Closes the blocks that are indented further than a column; brackets suspend indentation. -/
def unroll (s : Scanner) (column : Int) : Scanner :=
  if s.inFlow then s else closeBlocks column s.outer s

/-- Opens a block at a column that is indented further than the current one, by a token behind the
first `number` ones. -/
def roll (s : Scanner) (column : Nat) (number : Nat) (t : Token) : Scanner :=
  if s.inFlow then s
  else if s.indent < column then
    { s.insertAt number t with indent := column, outer := s.indent :: s.outer }
  else s

/-! ### Names of fields -/

/-- Whether a name at this place would have left the line or grown too long. -/
def isStale (c : Cursor) (p : KeyPlace) : Bool := p.line < c.line || p.index + 1024 < c.index

/-- Gives up places that cannot be names any more; a required one is a fault. -/
def dropStalePlace (c : Cursor) : Option KeyPlace → Option (Option KeyPlace)
  | none => some none
  | some p => if isStale c p then (if p.required then none else some none) else some (some p)

/-- Gives up all places that cannot be names any more. -/
def dropStale (s : Scanner) : Option Scanner := do
  let places ← s.places.mapM (dropStalePlace s.cursor)
  let place ← dropStalePlace s.cursor s.place
  return { s with place := place, places := places }

/-- Gives up the open place of the current bracket level; a required one is a fault. -/
def dropPlace (s : Scanner) : Option Scanner :=
  match s.place with
  | some p => if p.required then none else some { s with place := none }
  | none => some s

/-- Remembers the place reached as one that may be a name, where one may start. -/
def savePlace (s : Scanner) : Option Scanner :=
  if s.keyAllowed then do
    let c := s.cursor
    let required := !s.inFlow && s.indent == (c.column : Int)
    let s ← s.dropPlace
    return { s with place := some ⟨required, s.count, c.line, c.column, c.index⟩ }
  else some s

/-! ### Between tokens -/

/-- The place behind blanks, comments and line breaks. A tab counts as a blank only where no name
may start, a byte order mark only at the start of a line, and a line break lets a name start. -/
def skipGaps : (fuel : Nat) → Scanner → Scanner
  | 0, s => s
  | fuel + 1, s =>
    let c := if s.cursor.column == 0 && s.cursor.peek == some '\ufeff' then s.cursor.skip 1 else s.cursor
    let tabs := s.inFlow || !s.keyAllowed
    let c := (c.skipWhile (fun d => d == ' ' || (tabs && d == '\t'))).skipComment
    match c.peek with
    | some d =>
      if isBreak d then
        skipGaps fuel { s with cursor := c.skipBreak, keyAllowed := s.keyAllowed || !s.inFlow }
      -- a token, or a tab where none may stand
      else { s with cursor := c }
    | none => { s with cursor := c }

/-! ### Directives and tags -/

/-- Reads a number of at most nine digits. -/
def readNumber? (c : Cursor) : Option (Nat × Cursor) :=
  let ds := c.rest.takeWhile Char.isDigit
  if ds.isEmpty || 9 < ds.length then none
  else (Plain.readNatural? 10 ds).map (fun n => (n, c.skip ds.length))

/-- Reads a tag handle: `!`, letters, and a further `!` if there is one. -/
def readHandle? (c : Cursor) : Option (List Char × Cursor) :=
  match c.rest with
  | '!' :: rest =>
    let word := rest.takeWhile isWordChar
    let c := c.skip (word.length + 1)
    if c.peek == some '!' then some ('!' :: word ++ ['!'], c.skip 1) else some ('!' :: word, c)
  | _ => none

/-- The characters of the suffix of a tag; inside angle brackets three more are allowed. -/
def isTagChar (verbatim : Bool) (c : Char) : Bool :=
  isWordChar c || ";/?:@&=+$.%!~*'()".toList.contains c || (verbatim && (c == ',' || c == '[' || c == ']'))

/-- How many bytes a character has in UTF-8 whose first byte this is; there is no answer for a byte
that starts none. Whether the bytes stand for a character is not asked. -/
def widthOfLead? (b : UInt8) : Option Nat :=
  if b < 0x80 then some 1
  else if b < 0xC0 then none
  else if b < 0xE0 then some 2
  else if b < 0xF0 then some 3
  else if b < 0xF8 then some 4
  else none

/-- The bytes of a tag suffix with its percent escapes replaced; `pending` further ones of a character
have to be escapes that go on with it. -/
def tagBytes? : (fuel pending : Nat) → List Char → Option (List UInt8)
  | 0, _, _ => some []
  | _ + 1, 0, [] => some []
  | fuel + 1, pending, '%' :: a :: b :: rest => do
    let byte := (← Plain.readNatural? 16 [a, b]).toUInt8
    let pending ←
      if pending == 0 then (widthOfLead? byte).map (· - 1)
      else if 0x80 ≤ byte && byte < 0xC0 then some (pending - 1) else none
    return byte :: (← tagBytes? fuel pending rest)
  | _ + 1, _, '%' :: _ => none
  | fuel + 1, 0, c :: rest => do return c.toNat.toUInt8 :: (← tagBytes? fuel 0 rest)
  | _ + 1, _ + 1, _ => none

/-- Reads the suffix of a tag behind `head`, of which the first character is not part of it. The two
together may not be empty. The suffix ends at a zero byte. -/
def readSuffix? (verbatim : Bool) (head : List Char) (c : Cursor) : Option (List UInt8 × Cursor) := do
  let word := c.rest.takeWhile (isTagChar verbatim)
  if word.isEmpty && head.isEmpty then none
  else
    let bytes ← tagBytes? (word.length + 1) 0 word
    return ((head.drop 1).map (·.toNat.toUInt8) ++ bytes.takeWhile (· != 0), c.skip word.length)

/-- Reads a tag: `!<…>`, a handle with a suffix, or a suffix behind a single `!`. -/
def readTag? (s : Scanner) : Option (Token × Cursor) := do
  let c := s.cursor
  let (handle, suffix, c) ←
    if c.peekAt 1 == some '<' then do
      let (suffix, c) ← readSuffix? true [] (c.skip 2)
      if c.peek == some '>' then some ("", suffix, c.skip 1) else none
    else do
      let (head, c) ← readHandle? c
      if 1 < head.length && head.getLast? == some '!' then do
        let (suffix, c) ← readSuffix? false [] c
        some (String.ofList head, suffix, c)
      else do
        let (suffix, c) ← readSuffix? false head c
        -- a lone mark is a tag by itself
        if suffix.isEmpty then some ("", "!".toUTF8.toList, c) else some ("!", suffix, c)
  -- inside brackets a comma ends the tag
  if (s.inFlow && c.peek == some ',') || c.atGapOrEnd then return (.tag handle suffix, c) else none

/-- Reads a directive behind its percent sign, to the end of its line. -/
def readDirective? (c : Cursor) : Option (Token × Cursor) := do
  let name := c.rest.takeWhile isWordChar
  let c := c.skip name.length
  if name.isEmpty || !c.atGapOrEnd then none
  else
    let c := c.skipWhile isSpaceOrTab
    let (t, c) ← match String.ofList name with
      | "YAML" => do
        let (major, c) ← readNumber? c
        if c.peek == some '.' then
          let (minor, c) ← readNumber? (c.skip 1)
          some (Token.version major minor, c)
        else none
      | "TAG" => do
        let (handle, c) ← readHandle? c
        if handle.getLast? == some '!' && (match c.peek with | some d => isSpaceOrTab d | none => false) then
          let (meaning, c) ← readSuffix? true [] (c.skipWhile isSpaceOrTab)
          if c.atGapOrEnd then some (Token.tagDirective (String.ofList handle) meaning, c) else none
        else none
      | _ => none
    let c := (c.skipWhile isSpaceOrTab).skipComment
    if c.atBreakOrEnd then return (t, c.skipBreak) else none

/-! ### Single tokens -/

/-- A token of `length` characters that ends a name and lets one start behind it, or not. -/
def mark (s : Scanner) (t : Token) (length : Nat) (keyAllowed : Bool) : Option Scanner := do
  let s ← s.dropPlace
  return { s.emitTo t (s.cursor.skip length) with keyAllowed := keyAllowed }

def openBracket (s : Scanner) (t : Token) : Option Scanner := do
  let s ← s.savePlace
  return { s.emitTo t (s.cursor.skip 1) with
    place := none, places := s.place :: s.places, keyAllowed := true }

/-- A closing bracket; one too many is left to whoever reads the tokens. -/
def closeBracket (s : Scanner) (t : Token) : Option Scanner := do
  let s ← s.dropPlace
  let s := match s.places with
    | p :: places => { s with place := p, places := places }
    | [] => s
  return { s.emitTo t (s.cursor.skip 1) with keyAllowed := false }

/-- A dash in front of an item. -/
def blockItem (s : Scanner) : Option Scanner :=
  if s.inFlow then s.mark .blockItem 1 true
  else if s.keyAllowed then (s.roll s.cursor.column s.count .openBlockSequence).mark .blockItem 1 true
  else none

/-- A question mark in front of the name of a field. -/
def explicitKey (s : Scanner) : Option Scanner :=
  if s.inFlow then s.mark .key 1 false
  else if s.keyAllowed then (s.roll s.cursor.column s.count .openBlockMapping).mark .key 1 true
  else none

/-- A colon. An open place before it is the name of a field; otherwise the name was marked or is
missing. -/
def fieldValue (s : Scanner) : Option Scanner :=
  match s.place with
  | some p =>
    let s := (s.insertAt p.number .key).roll p.column p.number .openBlockMapping
    some { s.emitTo .value (s.cursor.skip 1) with place := none, keyAllowed := false }
  | none =>
    if s.inFlow then some { s.emitTo .value (s.cursor.skip 1) with keyAllowed := false }
    else if s.keyAllowed then
      let s := s.roll s.cursor.column s.count .openBlockMapping
      some { s.emitTo .value (s.cursor.skip 1) with keyAllowed := true }
    else none

/-- An anchor or a reference to one. -/
def anchorOrAlias (s : Scanner) (make : String → Token) : Option Scanner := do
  let s ← s.savePlace
  let word := (s.cursor.rest.drop 1).takeWhile isWordChar
  let c := s.cursor.skip (word.length + 1)
  let ends := Cursor.endsOr (fun d => isGap d || "?:,]\x7d%@`".toList.contains d) c.peek
  if word.isEmpty || !ends then none
  else return { s.emitTo (make (String.ofList word)) c with keyAllowed := false }

def tag (s : Scanner) : Option Scanner := do
  let s ← s.savePlace
  let (t, c) ← s.readTag?
  return { s.emitTo t c with keyAllowed := false }

def blockScalar (s : Scanner) (literal : Bool) : Option Scanner := do
  let s ← s.dropPlace
  let r ← readBlock literal s.indent s.cursor
  return { s.emitTo (.scalar (String.ofList r.text) (if literal then .literal else .quoted)) r.cursor with
    keyAllowed := true }

def quotedScalar (s : Scanner) (single : Bool) : Option Scanner := do
  let s ← s.savePlace
  let r ← readQuoted single s.cursor
  return { s.emitTo (.scalar (String.ofList r.text) .quoted) r.cursor with keyAllowed := false }

/-- A scalar without quotes. A name may start behind one that ends its line. -/
def plainScalar (s : Scanner) : Option Scanner := do
  let s ← s.savePlace
  let r ← readPlain s.inFlow (s.indent + 1).toNat s.cursor
  return { s.emitTo (.scalar (String.ofList r.text) .plain) r.cursor with keyAllowed := r.endsLine }

/-- Whether a scalar without quotes may start with a character that is followed by `next`. -/
def startsPlain (inFlow : Bool) (c : Char) (next : Option Char) : Bool :=
  !(isGap c || "-?:,[]\x7b\x7d#&*!|>'\"%@`".toList.contains c) ||
  (c == '-' && !(match next with | some d => isSpaceOrTab d | none => false)) ||
  (!inFlow && (c == '?' || c == ':') && !Cursor.endsOr isGap next)

/-- The scanner behind the token that starts with the character at its place. There is no answer
where no token can start. -/
def nextToken (s : Scanner) (c : Char) : Option Scanner :=
  let next := s.cursor.peekAt 1
  let gapNext := Cursor.endsOr isGap next
  -- directives and markers stand at the start of a line and close all blocks
  if s.cursor.column == 0 && c == '%' then do
    let s ← (s.unroll (-1)).dropPlace
    let (t, c) ← readDirective? (s.cursor.skip 1)
    return { s.emitTo t c with keyAllowed := false }
  else if s.cursor.atMarker '-' then (s.unroll (-1)).mark .documentStart 3 false
  else if s.cursor.atMarker '.' then (s.unroll (-1)).mark .documentEnd 3 false
  else if c == '[' then s.openBracket .openSequence
  else if c == '{' then s.openBracket .openMapping
  else if c == ']' then s.closeBracket .closeSequence
  else if c == '}' then s.closeBracket .closeMapping
  else if c == ',' then s.mark .comma 1 true
  else if c == '-' && gapNext then s.blockItem
  else if c == '?' && (s.inFlow || gapNext) then s.explicitKey
  else if c == ':' && (s.inFlow || gapNext) then s.fieldValue
  -- aliases, properties and scalars, which can be the start of a key
  else if c == '*' then s.anchorOrAlias .alias
  else if c == '&' then s.anchorOrAlias .anchor
  else if c == '!' then s.tag
  else if c == '|' && !s.inFlow then s.blockScalar true
  else if c == '>' && !s.inFlow then s.blockScalar false
  else if c == '\'' then s.quotedScalar true
  else if c == '"' then s.quotedScalar false
  else if startsPlain s.inFlow c next then s.plainScalar
  else none

/-! ### The whole text -/

/-- The tokens that may be given out: all, or where the notation is broken those before the first
place that may still become a name. -/
def finish (s : Scanner) (faulty : Bool) : List Token × Bool :=
  let tokens := s.reversed.reverse
  if faulty then
    let opens := (s.place :: s.places).filterMap (fun p => p.map (·.number))
    (tokens.take (opens.foldl min s.count), true)
  else (tokens, false)

/-- The scanner at the end of the text, where a new line starts. -/
def atEnd (s : Scanner) : Scanner :=
  if s.cursor.column == 0 then s
  else { s with cursor := { s.cursor with line := s.cursor.line + 1, column := 0 } }

/-- Cuts the next token off, or the end of the text, at which the flag is set. There is no answer where
the text breaks the notation. -/
def advance (s : Scanner) : Option (Scanner × Bool) := do
  let s ← (skipGaps (s.cursor.rest.length + 1) s).dropStale
  let s := s.unroll s.cursor.column
  match s.cursor.peek with
  | none => return (← (← (s.unroll (-1)).dropPlace).atEnd.dropStale, true)
  | some c => return (← (← s.nextToken c).dropStale, false)

/-- Cuts the rest of the text; the flag tells whether the notation is broken. `fuel` bounds the
count of tokens. -/
def run : (fuel : Nat) → Scanner → List Token × Bool
  | 0, s => s.finish true
  | fuel + 1, s =>
    match s.advance with
    | none => s.finish true
    | some (s, true) => s.finish false
    | some (s, false) => run fuel s

end Scanner

/-- The tokens of a text as far as they can be given out, and whether the text breaks the notation
behind them. A character that no text may hold leaves no tokens at all. -/
def tokens (text : String) : List Token × Bool :=
  let cs := text.toList
  if cs.all isAllowed then Scanner.run (cs.length + 1) (Scanner.start cs) else ([], true)

end Yaml

end ScriptYard
