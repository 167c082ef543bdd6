/-!
# A place in a YAML text

A `Cursor` is the rest of a text together with the line and column it starts at. YAML has five
line breaks (`isBreak`), of which a carriage return followed by a line feed counts as one; read
into a scalar, all but the two Unicode separators become a line feed (`Cursor.readBreak`).
-/

namespace ScriptYard

namespace Yaml

/-! ### Characters -/

/-- The characters that break a line. -/
def isBreak (c : Char) : Bool :=
  c == '\n' || c == '\r' || c == '\x85' || c == '\u2028' || c == '\u2029'

def isSpaceOrTab (c : Char) : Bool := c == ' ' || c == '\t'

/-- The characters that may end a word. -/
def isGap (c : Char) : Bool := isSpaceOrTab c || isBreak c

/-- The characters of anchors and tag handles. -/
def isWordChar (c : Char) : Bool := c.isAlphanum || c == '_' || c == '-'

/-- The characters that a text may hold. -/
def isAllowed (c : Char) : Bool :=
  c == '\t' || c == '\n' || c == '\r' || (' ' ≤ c && c ≤ '~') || c == '\x85' ||
  ('\u00a0' ≤ c && c ≤ '\ufffd') || 0x10000 ≤ c.toNat

/-! ### Places -/

/-- The rest of a text and where it starts. -/
structure Cursor where
  /-- The characters still to be read. -/
  rest : List Char
  /-- The count of lines before. -/
  line : Nat
  /-- The count of characters before on this line. -/
  column : Nat
  /-- The count of characters before. -/
  index : Nat
deriving Repr, Inhabited

namespace Cursor

def start (text : List Char) : Cursor := ⟨text, 0, 0, 0⟩

/-- The character at the place. -/
def peek (c : Cursor) : Option Char := c.rest.head?

/-- The character `n` further on. -/
def peekAt (c : Cursor) (n : Nat) : Option Char := c.rest[n]?

/-- Whether the text ends here, or the character here satisfies a test. -/
def endsOr (test : Char → Bool) : Option Char → Bool
  | none => true
  | some c => test c

/-- Whether the next character ends a word. -/
def atGapOrEnd (c : Cursor) : Bool := endsOr isGap c.peek

/-- Whether the next character ends a line. -/
def atBreakOrEnd (c : Cursor) : Bool := endsOr isBreak c.peek

/-- The place `n` characters on, none of which breaks a line. -/
def skip (c : Cursor) (n : Nat) : Cursor :=
  { c with rest := c.rest.drop n, column := c.column + n, index := c.index + n }

/-- The place behind the characters that satisfy a test, which no line break does. -/
def skipWhile (test : Char → Bool) (c : Cursor) : Cursor := c.skip (c.rest.takeWhile test).length

/-- Reads a line break: what it stands for in a scalar, and the place behind it. Nothing is read
where the text does not break. -/
def readBreak (c : Cursor) : List Char × Cursor :=
  match c.rest with
  | '\r' :: '\n' :: rest => (['\n'], ⟨rest, c.line + 1, 0, c.index + 2⟩)
  | b :: rest =>
    if isBreak b then
      ([if b == '\u2028' || b == '\u2029' then b else '\n'], ⟨rest, c.line + 1, 0, c.index + 1⟩)
    else ([], c)
  | [] => ([], c)

/-- The place behind a line break. -/
def skipBreak (c : Cursor) : Cursor := c.readBreak.2

/-- The place behind a comment, if one starts here. -/
def skipComment (c : Cursor) : Cursor :=
  if c.peek == some '#' then c.skipWhile (fun d => !isBreak d) else c

/-- Whether a line starts here with three of the character and then ends a word. -/
def atMarker (c : Cursor) (mark : Char) : Bool :=
  c.column == 0 && c.peek == some mark && c.peekAt 1 == some mark && c.peekAt 2 == some mark &&
    endsOr isGap (c.peekAt 3)

/-- Whether a line starts here with a document marker. -/
def atDocumentMarker (c : Cursor) : Bool := c.atMarker '-' || c.atMarker '.'

end Cursor

end Yaml

end ScriptYard
