import ScriptYard.Document.Plain
import ScriptYard.Yaml.Cursor

/-!
# The text of YAML scalars

A scalar is written without quotes, in single or double quotes, or as a block. Each form has its
own reader here, which starts at the first character of the scalar and answers with its text and
the place behind it.

Outside blocks a scalar is a series of words with gaps between them. A gap inside one line is kept
as it is; one that breaks the line is folded: a single break becomes a space, and of several the
first is dropped (`Gap.text`).
-/

namespace ScriptYard

namespace Yaml

/-- A scalar that was read, and the place behind it. -/
structure ScalarRead where
  /-- The text of the scalar. -/
  text : List Char
  /-- The place behind the scalar. -/
  cursor : Cursor
  /-- Whether the scalar was followed by a gap that breaks the line. -/
  endsLine : Bool
deriving Repr

/-! ### Gaps -/

/-- Blanks and line breaks between two words. -/
structure Gap where
  /-- The blanks, as long as no line was broken. -/
  blanks : List Char
  /-- What the first line break stands for. -/
  first : List Char
  /-- What the further line breaks stand for. -/
  further : List Char
  /-- Whether a line was broken. -/
  broken : Bool
deriving Repr

namespace Gap

/-- The gap of which nothing has been read. -/
def empty : Gap := ⟨[], [], [], false⟩

/-- The text that the gap leaves between its words. -/
def text (g : Gap) : List Char :=
  if !g.broken then g.blanks
  else if g.first == ['\n'] then (if g.further.isEmpty then [' '] else g.further)
  else g.first ++ g.further

/-- The gap with one more line break. -/
def addBreak (g : Gap) (b : List Char) : Gap :=
  if g.broken then { g with further := g.further ++ b }
  else { g with blanks := [], first := b, broken := true }

/-- Reads on through a gap. `tabsFrom` is the first column in which a tab may stand at the start of
a line; a tab before it is a fault. -/
def read (tabsFrom : Nat) : (fuel : Nat) → Gap → Cursor → Option (Gap × Cursor)
  | 0, g, c => some (g, c)
  | fuel + 1, g, c =>
    match c.peek with
    | none => some (g, c)
    | some d =>
      if isSpaceOrTab d then
        if g.broken && c.column < tabsFrom && d == '\t' then none
        -- blanks behind a line break are indentation and belong to no text
        else read tabsFrom fuel (if g.broken then g else { g with blanks := g.blanks ++ [d] }) (c.skip 1)
      else if isBreak d then
        let (b, c) := c.readBreak
        read tabsFrom fuel (g.addBreak b) c
      else some (g, c)

end Gap

/-! ### Without quotes -/

/-- The characters that have a meaning of their own inside brackets. -/
def isFlowIndicator (c : Char) : Bool := c == ',' || c == '[' || c == ']' || c == '{' || c == '}'

/-- Reads a word without quotes: its characters and the place behind them. Inside brackets a colon
in front of an indicator is a fault. -/
def readWord (inFlow : Bool) : (fuel : Nat) → Cursor → Option (List Char × Cursor)
  | 0, c => some ([], c)
  | fuel + 1, c =>
    match c.peek with
    | none => some ([], c)
    | some d =>
      if isGap d then some ([], c)
      else
        let next := c.peekAt 1
        if inFlow && d == ':' &&
            (match next with | some n => isFlowIndicator n || n == '?' | none => false) then none
        -- a colon ends a word only in front of a gap
        else if (d == ':' && Cursor.endsOr isGap next) || (inFlow && isFlowIndicator d) then some ([], c)
        else do
          let (ds, c) ← readWord inFlow fuel (c.skip 1)
          return (d :: ds, c)

/-- Reads the words of a scalar without quotes onto `acc`, from the end of a word on. A line of a
block has to be indented to column `indent` at least for the scalar to go on. -/
def readPlainTail (inFlow : Bool) (indent : Nat) :
    (fuel : Nat) → (acc : List Char) → Cursor → Option ScalarRead
  | 0, acc, c => some ⟨acc, c, false⟩
  | fuel + 1, acc, c =>
    if !(match c.peek with | some d => isGap d | none => false) then some ⟨acc, c, false⟩
    else do
      let (gap, c) ← Gap.read indent (c.rest.length + 1) Gap.empty c
      -- a line that is not indented enough, a marker of a document, or a comment
      let stops := (!inFlow && c.column < indent) || c.atDocumentMarker || c.peek == some '#'
      if stops then return ⟨acc, c, gap.broken⟩
      else
        let (word, c) ← readWord inFlow (c.rest.length + 1) c
        if word.isEmpty then return ⟨acc, c, gap.broken⟩
        else readPlainTail inFlow indent fuel (acc ++ gap.text ++ word) c

/-- Reads a scalar without quotes. -/
def readPlain (inFlow : Bool) (indent : Nat) (c : Cursor) : Option ScalarRead := do
  let (word, c) ← readWord inFlow (c.rest.length + 1) c
  readPlainTail inFlow indent (c.rest.length + 1) word c

/-! ### In quotes -/

/-- What a letter behind a backslash stands for. -/
def escapeChar? : Char → Option Char
  | '0' => some '\x00'
  | 'a' => some '\x07'
  | 'b' => some '\x08'
  | 't' | '\t' => some '\t'
  | 'n' => some '\n'
  | 'v' => some '\x0b'
  | 'f' => some '\x0c'
  | 'r' => some '\r'
  | 'e' => some '\x1b'
  | ' ' => some ' '
  | '"' => some '"'
  | '/' => some '/'
  | '\\' => some '\\'
  | 'N' => some '\x85'
  | '_' => some '\u00a0'
  | 'L' => some '\u2028'
  | 'P' => some '\u2029'
  | _ => none

/-- How many hexadecimal digits follow a letter behind a backslash. -/
def escapeDigits? : Char → Option Nat
  | 'x' => some 2
  | 'u' => some 4
  | 'U' => some 8
  | _ => none

/-- Reads an escape behind its backslash: the character it stands for, and its length. -/
def readEscape? (text : List Char) : Option (Char × Nat) :=
  match text with
  | [] => none
  | d :: rest =>
    match escapeChar? d with
    | some e => some (e, 1)
    | none => do
      let count ← escapeDigits? d
      let ds := rest.take count
      if ds.length < count then none
      else
        let n ← Plain.readNatural? 16 ds
        -- halves of pairs and numbers beyond the last character stand for none
        if (0xD800 ≤ n && n ≤ 0xDFFF) || 0x10FFFF < n then none else some (Char.ofNat n, count + 1)

/-- Reads characters inside quotes up to a gap, the closing quote or the end. The answer tells
whether an escaped line break was read last. -/
def readQuotedWord (single : Bool) : (fuel : Nat) → Cursor → Option (List Char × Cursor × Bool)
  | 0, c => some ([], c, false)
  | fuel + 1, c =>
    match c.peek with
    | none => some ([], c, false)
    | some d =>
      if isGap d then some ([], c, false)
      else if single then
        if d == '\'' then
          -- two quotes stand for one
          if c.peekAt 1 == some '\'' then do
            let (ds, r) ← readQuotedWord single fuel (c.skip 2)
            return ('\'' :: ds, r)
          else some ([], c, false)
        else do
          let (ds, r) ← readQuotedWord single fuel (c.skip 1)
          return (d :: ds, r)
      else if d == '"' then some ([], c, false)
      else if d == '\\' then
        -- an escaped line break joins the lines without a space
        if (match c.peekAt 1 with | some b => isBreak b | none => false) then
          some ([], (c.skip 1).skipBreak, true)
        else do
          let (e, length) ← readEscape? (c.rest.drop 1)
          let (ds, r) ← readQuotedWord single fuel (c.skip (length + 1))
          return (e :: ds, r)
      else do
        let (ds, r) ← readQuotedWord single fuel (c.skip 1)
        return (d :: ds, r)

/-- Reads the words of a scalar in quotes onto `acc`, up to the closing quote. -/
def readQuotedTail (single : Bool) : (fuel : Nat) → (acc : List Char) → Cursor → Option ScalarRead
  | 0, _, _ => none
  | fuel + 1, acc, c =>
    if c.atDocumentMarker || c.rest.isEmpty then none
    else do
      let (word, c, escapedBreak) ← readQuotedWord single (c.rest.length + 1) c
      let acc := acc ++ word
      if c.peek == some (if single then '\'' else '"') then return ⟨acc, c.skip 1, false⟩
      else
        let (gap, c) ← Gap.read 0 (c.rest.length + 1) { Gap.empty with broken := escapedBreak } c
        readQuotedTail single fuel (acc ++ gap.text) c

/-- Reads a scalar in quotes from its opening quote on. -/
def readQuoted (single : Bool) (c : Cursor) : Option ScalarRead :=
  readQuotedTail single (c.rest.length + 1) [] (c.skip 1)

/-! ### Blocks -/

/-- What becomes of the line breaks at the end of a block. -/
inductive Chomping where
  /-- All are dropped. -/
  | strip
  /-- One is kept. -/
  | clip
  /-- All are kept. -/
  | keep
deriving DecidableEq, Repr

/-- The chomping of an indicator. -/
def Chomping.ofChar? : Char → Option Chomping
  | '+' => some .keep
  | '-' => some .strip
  | _ => none

/-- Reads the indicators behind the first character of a block: the chomping and the indentation,
in either order. An indentation of zero is a fault. -/
def readBlockHeader (c : Cursor) : Option (Chomping × Option Nat × Cursor) :=
  let digit (c : Cursor) : Option (Option Nat × Cursor) :=
    match c.peek with
    | some d => if d == '0' then none else if d.isDigit then some (some (d.toNat - 48), c.skip 1) else some (none, c)
    | none => some (none, c)
  match c.peek.bind Chomping.ofChar? with
  | some chomping => do
    let (indent, c) ← digit (c.skip 1)
    return (chomping, indent, c)
  | none => do
    let (indent, c) ← digit c
    -- neither was found, so the chomping is not looked for again
    if indent.isNone then return (.clip, none, c)
    else match c.peek.bind Chomping.ofChar? with
      | some chomping => return (chomping, indent, c.skip 1)
      | none => return (.clip, indent, c)

/-- Reads empty lines of a block: what their breaks stand for, the largest column met, and the
place at the first character of a line that is not empty. While the indentation is not known
(`none`), all spaces belong to it; a tab inside the indentation is a fault. -/
def readEmptyLines (indent : Option Nat) :
    (fuel : Nat) → (breaks : List Char) → (widest : Nat) → Cursor → Option (List Char × Nat × Cursor)
  | 0, breaks, widest, c => some (breaks, widest, c)
  | fuel + 1, breaks, widest, c =>
    let spaces := (c.rest.takeWhile (· == ' ')).length
    let c := c.skip (match indent with | none => spaces | some n => min spaces (n - c.column))
    let widest := max widest c.column
    let inIndent := match indent with | none => true | some n => c.column < n
    if inIndent && c.peek == some '\t' then none
    else match c.peek with
      | some d =>
        if isBreak d then
          let (b, c) := c.readBreak
          readEmptyLines indent fuel (breaks ++ b) widest c
        else some (breaks, widest, c)
      | none => some (breaks, widest, c)

/-- The state of a block between two lines. -/
structure BlockText where
  /-- The text so far. -/
  text : List Char
  /-- What the break of the last line stands for. -/
  last : List Char
  /-- What the breaks of the empty lines since stand for. -/
  empty : List Char
  /-- Whether the last line starts with a blank. -/
  startsBlank : Bool
deriving Repr

/-- The text with what stands between the last line and one that starts with a blank or not. Only
between two lines that start with no blank does folding apply. -/
def BlockText.join (b : BlockText) (literal startsBlank : Bool) : List Char :=
  if !literal && b.last == ['\n'] && !b.startsBlank && !startsBlank then
    b.text ++ (if b.empty.isEmpty then [' '] else []) ++ b.empty
  else b.text ++ b.last ++ b.empty

/-- Reads the lines of a block that are indented to column `indent`. -/
def readBlockLines (literal : Bool) (indent : Nat) :
    (fuel : Nat) → BlockText → Cursor → Option (BlockText × Cursor)
  | 0, b, c => some (b, c)
  | fuel + 1, b, c =>
    if c.column == indent && !c.rest.isEmpty then do
      let startsBlank := match c.peek with | some d => isSpaceOrTab d | none => false
      let text := b.join literal startsBlank
      let line := c.rest.takeWhile (fun d => !isBreak d)
      let (last, c) := (c.skip line.length).readBreak
      let (empty, _, c) ← readEmptyLines (some indent) (c.rest.length + 1) [] 0 c
      readBlockLines literal indent fuel ⟨text ++ line, last, empty, startsBlank⟩ c
    else some (b, c)

/-- Reads a block scalar from its indicator on. `outer` is the column of what holds the block, or
-1 where nothing does. -/
def readBlock (literal : Bool) (outer : Int) (c : Cursor) : Option ScalarRead := do
  let (chomping, increment, c) ← readBlockHeader (c.skip 1)
  let c := (c.skipWhile isSpaceOrTab).skipComment
  if !c.atBreakOrEnd then none
  else
    let c := c.skipBreak
    let given : Option Nat := increment.map (fun n => if 0 ≤ outer then outer.toNat + n else n)
    let (breaks, widest, c) ← readEmptyLines given (c.rest.length + 1) [] 0 c
    let indent := match given with
      | some n => n
      -- as far in as its empty lines and its first other line go, and further than what holds it
      | none => max (max widest (outer + 1).toNat) 1
    let (b, c) ← readBlockLines literal indent (c.rest.length + 1) ⟨[], [], breaks, false⟩ c
    let text := match chomping with
      | .strip => b.text
      | .clip => b.text ++ b.last
      | .keep => b.text ++ b.last ++ b.empty
    return ⟨text, c, false⟩

end Yaml

end ScriptYard
