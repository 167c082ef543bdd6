import ScriptYard.Document.Node

/-!
# Reading JSON

`Json.readDocument` turns JSON text into a `Document`. Every step takes the characters still to be
read and answers with a node and the characters behind it, or, where the notation is broken, with
a node that ends in `Node.broken` and nothing behind it.

Numbers follow one rule. A numeral without point and exponent is an integer as long as it fits in
64 bits. Any other numeral keeps as many leading digits as fit in 64 bits, on either side of the point
(`Significand`), and these digits are scaled by their power of ten in floating-point arithmetic,
308 places at a time (`scaleByTen`). A numeral beyond the floating-point range has no value.
-/

namespace ScriptYard

namespace Json

/-- A node and the characters behind it; none are left behind a broken node. -/
abbrev Step := Node × Option (List Char)

/-- A broken place of the notation. -/
def fault : Step := (.broken .malformed, none)

/-- The blanks of the notation. -/
def isBlank (c : Char) : Bool := c == ' ' || c == '\n' || c == '\t' || c == '\r'

/-- The text behind any blanks. -/
def skipBlanks (text : List Char) : List Char := text.dropWhile isBlank

/-! ### Numbers -/

/-- The digits of a numeral as far as they count: the number is about `value · 10 ^ exponent`. -/
structure Significand where
  /-- The value of the digits that count. -/
  value : Nat
  /-- The power of ten that they stand at. -/
  exponent : Int
  /-- Whether a digit has not fitted on this side of the point. -/
  full : Bool
deriving DecidableEq, Repr

namespace Significand

/-- No digits. -/
def empty : Significand := ⟨0, 0, false⟩

/-- The value after one more digit, if it fits in 64 bits. -/
def append? (s : Significand) (c : Char) : Option Nat :=
  let next := s.value * 10 + (c.toNat - 48)
  if !s.full && next < twoTo 64 then some next else none

/-- The digits after one more in front of the point. Where one does not fit, it and all further ones
raise the exponent. -/
def pushWhole (s : Significand) (c : Char) : Significand :=
  match s.append? c with
  | some value => { s with value := value }
  | none => ⟨s.value, s.exponent + 1, true⟩

/-- The digits after one more behind the point. Where one does not fit, it and all further ones are
dropped. -/
def pushPlace (s : Significand) (c : Char) : Significand :=
  match s.append? c with
  | some value => ⟨value, s.exponent - 1, false⟩
  | none => { s with full := true }

end Significand

/-- A numeral as it is written. -/
structure Numeral where
  /-- Whether it has a minus sign. -/
  negative : Bool
  /-- The digits before the point. -/
  whole : List Char
  /-- The digits after the point, if there is one. -/
  fraction : Option (List Char)
  /-- The exponent, if there is one. -/
  exponent : Option Int
deriving DecidableEq, Repr

/-- The power `10 ^ n` as a floating-point number. -/
def powerOfTen (n : Nat) : Binary64 := Binary64.ofDecimal false 1 n

/-- A number scaled by a power of ten, at most 308 places in one step. There is no answer where
the number grows beyond the format; `fuel` bounds the steps. -/
def scaleByTen : (fuel : Nat) → Binary64 → Int → Option Binary64
  | 0, x, _ => some x
  | fuel + 1, x, e =>
    -- only zero is not too large then
    if 308 < e then
      match x with
      | .finite y => if y.isZero then some x else none
      | _ => none
    else if 0 ≤ e then
      match x.mul (powerOfTen e.toNat) with
      | .finite y => some (.finite y)
      | _ => none
    else if -308 ≤ e then some (x.div (powerOfTen (-e).toNat))
    else
      match x with
      | .finite y =>
        if y.isZero then some x else scaleByTen fuel (x.div (powerOfTen 308)) (e + 308)
      | _ => none

/-- The largest exponent that is read as such; a longer one stands for zero or is out of range. -/
def exponentLimit : Nat := twoTo 31 - 1

/-- The digits of a numeral. -/
def Numeral.significand (n : Numeral) : Significand :=
  let whole := n.whole.foldl Significand.pushWhole .empty
  (n.fraction.getD []).foldl Significand.pushPlace { whole with full := false }

/-- The floating-point number of a numeral, if it is in range. -/
def Numeral.toFloat? (n : Numeral) : Option Finite64 :=
  let s := n.significand
  let sign (x : Binary64) : Option Finite64 :=
    x.toFinite?.map (fun y => if n.negative then y.neg else y)
  match n.exponent with
  | none => (scaleByTen 4 (Binary64.ofNat s.value) s.exponent).bind sign
  | some e =>
    if exponentLimit < e.natAbs then
      -- out of range, or so small that it is zero
      if s.value != 0 && 0 < e then none else sign (.finite (Finite64.zero false))
    else
      let final : Int := max (-(twoTo 31)) (min (twoTo 31 - 1) (s.exponent + e))
      (scaleByTen 4 (Binary64.ofNat s.value) final).bind sign

/-- The scalar of a numeral. Minus zero is a floating-point number. -/
def Numeral.toScalar (n : Numeral) : Scalar :=
  let value : Nat := n.whole.foldl (fun v c => v * 10 + (c.toNat - 48)) 0
  let isInteger := n.fraction.isNone && n.exponent.isNone &&
    (if n.negative then 0 < value && value ≤ twoTo 63 else value < twoTo 64)
  if isInteger then .number (.int (if n.negative then -(value : Int) else value))
  else match n.toFloat? with
    | some x => .number (.float x)
    | none => .valueless

/-- The exponent at the start of a text, if it starts with one; `none` for one without digits. -/
def readExponent? (text : List Char) : Option (Option Int × List Char) :=
  match text with
  | c :: rest =>
    if c == 'e' || c == 'E' then
      let (negative, rest) := match rest with
        | '-' :: rest => (true, rest)
        | '+' :: rest => (false, rest)
        | rest => (false, rest)
      let ds := rest.takeWhile Char.isDigit
      if ds.isEmpty then none
      else
        let value : Int := (ds.foldl (fun v c => v * 10 + (c.toNat - 48)) 0 : Nat)
        some (some (if negative then -value else value), rest.dropWhile Char.isDigit)
    else some (none, text)
  | [] => some (none, [])

/-- The numeral at the start of a text. A leading zero stands alone. -/
def readNumeral? (text : List Char) : Option (Numeral × List Char) := do
  let (negative, text) := match text with
    | '-' :: rest => (true, rest)
    | rest => (false, rest)
  let whole := text.takeWhile Char.isDigit
  let rest := text.dropWhile Char.isDigit
  if whole.isEmpty || (whole.head? == some '0' && 1 < whole.length) then none
  else
    let (fraction, rest) ← match rest with
      | '.' :: rest =>
        let ds := rest.takeWhile Char.isDigit
        if ds.isEmpty then none else some (some ds, rest.dropWhile Char.isDigit)
      | rest => some (none, rest)
    let (exponent, rest) ← readExponent? rest
    return (⟨negative, whole, fraction, exponent⟩, rest)

/-! ### Strings -/

/-- The value of four hexadecimal digits and the characters behind them. -/
def readHex4? : List Char → Option (Nat × List Char)
  | a :: b :: c :: d :: rest => (Plain.readNatural? 16 [a, b, c, d]).map (fun n => (n, rest))
  | _ => none

/-- The characters of a string up to its closing quote, and what lies behind the quote.
The inner answer is missing where an escape stands for no character. -/
abbrev StringStep := Option (List Char) × List Char

/-- A string step with one more character in front. -/
def StringStep.push (c : Char) (s : StringStep) : StringStep := (s.1.map (c :: ·), s.2)

/-- The character of a one-letter escape. -/
def escaped? : Char → Option Char
  | '"' => some '"'
  | '\\' => some '\\'
  | '/' => some '/'
  | 'b' => some '\x08'
  | 'f' => some '\x0c'
  | 'n' => some '\n'
  | 'r' => some '\r'
  | 't' => some '\t'
  | _ => none

/-- The characters of a string whose opening quote has been read. Two escapes may form a pair that
stands for one character; half a pair stands for none. There is no answer where the notation is
broken; `fuel` bounds the count of characters. -/
def readStringTail? : (fuel : Nat) → List Char → Option StringStep
  | 0, _ => none
  | _ + 1, [] => none
  | _ + 1, '"' :: rest => some (some [], rest)
  | fuel + 1, '\\' :: 'u' :: rest => do
    let (n, rest) ← readHex4? rest
    -- the first half of a pair: the second half has to be the next escape
    if 0xD800 ≤ n && n < 0xDC00 then
      match rest with
      | '\\' :: 'u' :: more =>
        let (m, more) ← readHex4? more
        -- the rest is read even if the string is spoilt, to find where it ends
        let tail ← readStringTail? fuel more
        if 0xDC00 ≤ m && m < 0xE000 then
          return tail.push (Char.ofNat (0x10000 + (n - 0xD800) * 0x400 + (m - 0xDC00)))
        else return (none, tail.2)
      | _ =>
        let tail ← readStringTail? fuel rest
        return (none, tail.2)
    else if 0xDC00 ≤ n && n < 0xE000 then
      let tail ← readStringTail? fuel rest
      return (none, tail.2)
    else
      let tail ← readStringTail? fuel rest
      return tail.push (Char.ofNat n)
  | fuel + 1, '\\' :: c :: rest => do
    let d ← escaped? c
    let tail ← readStringTail? fuel rest
    return tail.push d
  | fuel + 1, c :: rest => do
    if c < ' ' || c == '\\' then none
    else
      let tail ← readStringTail? fuel rest
      return tail.push c

/-- The string behind an opening quote. -/
def readString (text : List Char) : Step :=
  match readStringTail? (text.length + 1) text with
  | some (some cs, rest) => (.scalar (.string (String.ofList cs)), some rest)
  | some (none, rest) => (.scalar .valueless, some rest)
  | none => fault

/-! ### Values -/

/-- A scalar whose word has been found at the start of a text. -/
def readWord (word : List Char) (s : Scalar) (text : List Char) : Step :=
  if word.isPrefixOf text then (.scalar s, some (text.drop word.length)) else fault

/-- The scalar at the start of a text that is not empty. -/
def readScalar (c : Char) (rest : List Char) : Step :=
  match c with
  | '"' => readString rest
  | 'n' => readWord ['u', 'l', 'l'] .null rest
  | 't' => readWord ['r', 'u', 'e'] (.bool true) rest
  | 'f' => readWord ['a', 'l', 's', 'e'] (.bool false) rest
  | _ => match readNumeral? (c :: rest) with
    | some (n, rest) => (.scalar n.toScalar, some rest)
    | none => fault

mutual

/-- The value at the start of a text. `fuel` bounds the count of steps; the length of the text is
enough. -/
def readValue : (fuel : Nat) → List Char → Step
  | 0, _ => fault
  | fuel + 1, text =>
    match skipBlanks text with
    | [] => fault
    | '[' :: rest =>
      match skipBlanks rest with
      | ']' :: rest => (.seq none [], some rest)
      | rest =>
        let (items, rest) := readItems fuel rest
        (.seq none items, rest)
    | '{' :: rest =>
      match skipBlanks rest with
      | '}' :: rest => (.map none [], some rest)
      | rest =>
        let (entries, rest) := readEntries fuel rest
        (.map none entries, rest)
    | c :: rest => readScalar c rest

/-- The items of an array from the next one on. -/
def readItems : (fuel : Nat) → List Char → List Node × Option (List Char)
  | 0, _ => ([.broken .malformed], none)
  | fuel + 1, text =>
    match readValue fuel text with
    | (n, none) => ([n], none)
    | (n, some rest) =>
      match skipBlanks rest with
      | ',' :: rest =>
        let (items, rest) := readItems fuel rest
        (n :: items, rest)
      | ']' :: rest => ([n], some rest)
      | _ => ([n, .broken .malformed], none)

/-- The entries of an object from the next one on. A name has to be a string. -/
def readEntries : (fuel : Nat) → List Char → List (Node × Node) × Option (List Char)
  | 0, _ => ([(.broken .malformed, .broken .malformed)], none)
  | fuel + 1, text =>
    let broken : Node × Node := (.broken .malformed, .broken .malformed)
    match skipBlanks text with
    | '"' :: rest =>
      match readString rest with
      | (k, none) => ([(k, .broken .malformed)], none)
      | (k, some rest) =>
        match skipBlanks rest with
        | ':' :: rest =>
          match readValue fuel rest with
          | (n, none) => ([(k, n)], none)
          | (n, some rest) =>
            match skipBlanks rest with
            | ',' :: rest =>
              let (entries, rest) := readEntries fuel rest
              ((k, n) :: entries, rest)
            | '}' :: rest => ([(k, n)], some rest)
            | _ => ([(k, n), broken], none)
        | _ => ([(k, .broken .malformed)], none)
    | _ => ([broken], none)

end

/-- The document of a JSON text. Nothing but blanks may follow the value. -/
def readDocument (text : String) : Document :=
  let cs := text.toList
  match readValue (2 * cs.length + 2) cs with
  | (n, some rest) => { root := n, trailing := if (skipBlanks rest).isEmpty then none else some .malformed }
  | (n, none) => { root := n, trailing := none }

/-- The value of a JSON text. -/
def parse (text : String) : Except ReadError Value :=
  (readDocument text).read (Node.readValue Source.json)

end Json

end ScriptYard
