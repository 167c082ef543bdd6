import ScriptYard.Value.Basic

/-!
# The type of an unquoted scalar

A scalar that a document writes without quotes gets its type from its text (`Plain.ofText`): null
and the truth values in three spellings each, integers in decimal, hexadecimal, octal or binary,
floating-point numbers, and everything else a string. A numeral with a needless zero in front is
a string, as is a number beyond the floating-point range.

The readers of numerals (`readInteger?`, `readFloat?`) are also what typed fields use.
-/

namespace ScriptYard

/-- What the text of an unquoted scalar stands for. -/
inductive Plain where
  /-- Nothing, or a spelling of null. -/
  | null
  /-- A truth value. -/
  | bool (b : Bool)
  /-- An integer, of any size up to 128 bits. -/
  | int (i : Int)
  /-- A floating-point number. -/
  | float (x : Binary64)
  /-- Any other text. -/
  | text
deriving DecidableEq, Repr

namespace Plain

/-! ### Integers -/

/-- The value of a character as a digit of the base, if it is one. -/
def digit? (base : Nat) (c : Char) : Option Nat :=
  let n :=
    if c.isDigit then c.toNat - 48
    else if 'a' ≤ c && c ≤ 'f' then c.toNat - 87
    else if 'A' ≤ c && c ≤ 'F' then c.toNat - 55
    else base
  if n < base then some n else none

/-- The value of the digits, read on from `n`. -/
def readDigits? (base : Nat) (n : Nat) : List Char → Option Nat
  | [] => some n
  | c :: rest => match digit? base c with
    | some d => readDigits? base (n * base + d) rest
    | none => none

/-- The value of one or more digits. -/
def readNatural? (base : Nat) (ds : List Char) : Option Nat :=
  if ds.isEmpty then none else readDigits? base 0 ds

/-- Whether a numeral has a zero in front of further digits; such a text is no number. -/
def hasNeedlessZero (ds : List Char) : Bool :=
  match ds with
  | '0' :: c :: rest => (c :: rest).all Char.isDigit
  | _ => false

/-- The value of a numeral without sign, in one of the four bases. -/
def readUnsigned? : List Char → Option Nat
  | '0' :: 'x' :: ds => readNatural? 16 ds
  | '0' :: 'o' :: ds => readNatural? 8 ds
  | '0' :: 'b' :: ds => readNatural? 2 ds
  | ds => if hasNeedlessZero ds then none else readNatural? 10 ds

/-- The value of a numeral with an optional sign. -/
def readInteger? (text : List Char) : Option Int :=
  match text with
  | '+' :: ds => (readUnsigned? ds).map (fun n => (n : Int))
  | '-' :: ds => (readUnsigned? ds).map (fun n => -(n : Int))
  | ds => (readUnsigned? ds).map (fun n => (n : Int))

/-! ### Floating-point numbers -/

/-- A decimal without sign: digits, an optional point with digits, and an optional exponent, with
at least one digit before the exponent. The number is `digits · 10 ^ scale`. -/
def readDecimal? (text : List Char) : Option (Nat × Int) :=
  let whole := text.takeWhile Char.isDigit
  let rest := text.dropWhile Char.isDigit
  let (fraction, rest) := match rest with
    | '.' :: rest => (rest.takeWhile Char.isDigit, rest.dropWhile Char.isDigit)
    | rest => ([], rest)
  if whole.isEmpty && fraction.isEmpty then none
  else
    let digits := (whole ++ fraction).foldl (fun n c => n * 10 + (c.toNat - 48)) 0
    let withExponent (e : Int) : Nat × Int := (digits, e - fraction.length)
    match rest with
    | [] => some (withExponent 0)
    | c :: rest =>
      if c == 'e' || c == 'E' then
        match rest with
        | '+' :: ds => (readNatural? 10 ds).map (fun n => withExponent n)
        | '-' :: ds => (readNatural? 10 ds).map (fun n => withExponent (-(n : Int)))
        | ds => (readNatural? 10 ds).map (fun n => withExponent n)
      else none

/-- The number nearest to a decimal with an optional minus sign, if it is finite. -/
def readFinite? (text : List Char) : Option Binary64 :=
  let (negative, text) := match text with
    | '-' :: rest => (true, rest)
    | rest => (false, rest)
  match readDecimal? text with
  | some (digits, scale) =>
    match Binary64.ofDecimal negative digits scale with
    | .finite x => some (.finite x)
    | _ => none
  | none => none

/-- The floating-point number of a text: a decimal with an optional sign, an infinity, or the
value that is not a number. -/
def readFloat? (text : List Char) : Option Binary64 :=
  match String.ofList text with
  | ".inf" | ".Inf" | ".INF" | "+.inf" | "+.Inf" | "+.INF" => some (.infinite false)
  | "-.inf" | "-.Inf" | "-.INF" => some (.infinite true)
  | ".nan" | ".NaN" | ".NAN" => some .nan
  | _ => match text with
    | '+' :: '-' :: _ => none
    | '+' :: rest => readFinite? rest
    | rest => readFinite? rest

/-! ### The type of a text -/

/-- The truth value of a text. -/
def readBool? : String → Option Bool
  | "true" | "True" | "TRUE" => some true
  | "false" | "False" | "FALSE" => some false
  | _ => none

/-- Whether a text is a spelling of null. -/
def isNull (text : String) : Bool :=
  text == "null" || text == "Null" || text == "NULL" || text == "~"

/-- Whether an integer is one that some 128-bit type holds. -/
def fits128 (i : Int) : Bool := -(twoTo 127) ≤ i && i < twoTo 128

/-- Whether a text is a sign and digits with a needless zero in front. -/
def isZeroPadded (text : List Char) : Bool :=
  match text with
  | '+' :: ds | '-' :: ds => hasNeedlessZero ds
  | ds => hasNeedlessZero ds

/-- What the text of an unquoted scalar stands for. -/
def ofText (text : String) : Plain :=
  if text.isEmpty || isNull text then .null
  else match readBool? text with
    | some b => .bool b
    | none =>
      let cs := text.toList
      -- an integer that is too long is read as a floating-point number
      match (readInteger? cs).filter fits128 with
      | some i => .int i
      | none =>
        -- digits behind a leading zero are a text, not a number
        if isZeroPadded cs then .text
        else match readFloat? cs with
          | some x => .float x
          | none => .text

end Plain

end ScriptYard
