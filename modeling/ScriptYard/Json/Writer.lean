import ScriptYard.Value.Basic

/-!
# Writing JSON

`Json.compact` writes a value without any blanks, `Json.pretty` writes every item and every field
on a line of its own, two blanks further in than what holds it; an empty array or object stays on
one line. Strings are written with the short escapes where there is one, other control characters
as `\u` and four digits, and all else as it is. Floating-point numbers have the layout of
`FloatStyle.document`.
-/

namespace ScriptYard

namespace Json

/-- The digit of a value below sixteen. -/
def hexDigit (n : Nat) : Char := if n < 10 then Char.ofNat (48 + n) else Char.ofNat (87 + n)

/-- A character inside a string. -/
def escapeChar (c : Char) : List Char :=
  match c with
  | '"' => ['\\', '"']
  | '\\' => ['\\', '\\']
  | '\n' => ['\\', 'n']
  | '\r' => ['\\', 'r']
  | '\t' => ['\\', 't']
  | '\x08' => ['\\', 'b']
  | '\x0c' => ['\\', 'f']
  | c => if c < ' ' then ['\\', 'u', '0', '0', hexDigit (c.toNat / 16), hexDigit (c.toNat % 16)] else [c]

def quote (s : String) : String :=
  String.ofList ('"' :: s.toList.flatMap escapeChar ++ ['"'])

def numberText : Number → String
  | .int i => integerText i
  | .float x => FloatStyle.document.format x

mutual

/-- A value without blanks. -/
def compact : Value → String
  | .null => "null"
  | .bool b => if b then "true" else "false"
  | .number n => numberText n
  | .string s => quote s
  | .array items => "[" ++ ",".intercalate (compactItems items) ++ "]"
  | .object fields => "\x7b" ++ ",".intercalate (compactFields fields) ++ "\x7d"

/-- The items of an array without blanks. -/
def compactItems : List Value → List String
  | [] => []
  | v :: rest => compact v :: compactItems rest

/-- The fields of an object without blanks. -/
def compactFields : List (String × Value) → List String
  | [] => []
  | (n, v) :: rest => (quote n ++ ":" ++ compact v) :: compactFields rest

end

/-- The line break before something `depth` levels in. -/
def newLine (depth : Nat) : String := String.ofList ('\n' :: List.replicate (2 * depth) ' ')

mutual

/-- A value on indented lines, the first of which continues the line it stands on. -/
def prettyAt (depth : Nat) : Value → String
  | .array [] => "[]"
  | .array (v :: rest) =>
    "[" ++ ",".intercalate (prettyItems (depth + 1) (v :: rest)) ++ newLine depth ++ "]"
  | .object [] => "\x7b\x7d"
  | .object (f :: rest) =>
    "\x7b" ++ ",".intercalate (prettyFields (depth + 1) (f :: rest)) ++ newLine depth ++ "\x7d"
  | .null => "null"
  | .bool b => if b then "true" else "false"
  | .number n => numberText n
  | .string s => quote s

/-- The items of an array, each with the line break before it. -/
def prettyItems (depth : Nat) : List Value → List String
  | [] => []
  | v :: rest => (newLine depth ++ prettyAt depth v) :: prettyItems depth rest

/-- The fields of an object, each with the line break before it. -/
def prettyFields (depth : Nat) : List (String × Value) → List String
  | [] => []
  | (n, v) :: rest =>
    (newLine depth ++ quote n ++ ": " ++ prettyAt depth v) :: prettyFields depth rest

end

/-- A value on indented lines. -/
def pretty (v : Value) : String := prettyAt 0 v

end Json

end ScriptYard
