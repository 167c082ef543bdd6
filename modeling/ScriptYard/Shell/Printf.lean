import ScriptYard.Number.Shortest
import ScriptYard.Shell.Arithmetic
import ScriptYard.Shell.Machine

/-!
# Formatted output

`Printf.run` writes arguments by a format: escapes stand for characters or bytes, conversions for
arguments, and the format is used again as long as arguments are left.

The command exists twice, as a program and as a part of a shell (`Printf.Kind`). They differ in some
escapes, in the precision of floating-point numbers and in the wording of faults.
-/

namespace ScriptYard.Shell.Printf

/-- Which of the two commands writes. -/
inductive Kind where
  | program
  /-- The command of a shell. -/
  | builtin
deriving DecidableEq, Repr

/-- Whether a character is an octal digit. -/
def isOctal (c : Char) : Bool := '0' ≤ c && c ≤ '7'

/-- Whether a character is a hexadecimal digit. -/
def isHex (c : Char) : Bool := digitValue c < 16

/-! ### Escapes -/

/-- What is written for an escape. -/
inductive Escape where
  /-- Some bytes. -/
  | bytes (bs : List UInt8)
  /-- Nothing, and nothing more at all. -/
  | stop
  /-- A number without digits. -/
  | missingDigits
deriving DecidableEq, Repr

/-- The bytes of letters behind a backslash. -/
def letterByte? : Char → Option UInt8
  | 'a' => some 7
  | 'b' => some 8
  | 'e' => some 27
  | 'f' => some 12
  | 'n' => some 10
  | 'r' => some 13
  | 't' => some 9
  | 'v' => some 11
  | '\\' => some 92
  | _ => none

/-- The escape behind a backslash, and the rest. In an argument (`inArgument`) an octal number may have
a further zero in front. -/
def escape (kind : Kind) (inArgument : Bool) (cs : List Char) : Escape × List Char :=
  let octal (ds : List Char) (skipped : Nat) : Escape × List Char :=
    (.bytes [UInt8.ofNat (valueOfDigits 8 ds)], cs.drop (skipped + ds.length))
  let hex (most skipped : Nat) (text : Bool) : Escape × List Char :=
    let ds := ((cs.drop 1).take most).takeWhile isHex
    if ds.isEmpty then (.missingDigits, [])
    else
      let n := valueOfDigits 16 ds
      (.bytes (if text then bytesOf (String.singleton (Char.ofNat n)) else [UInt8.ofNat n]),
        cs.drop (skipped + ds.length))
  match cs with
  | [] => (.bytes [92], [])
  | c :: rest =>
    match letterByte? c with
    | some b => (.bytes [b], rest)
    | none =>
      if c == '0' && inArgument then octal ((rest.take 3).takeWhile isOctal) 1
      else if isOctal c then octal ((cs.take 3).takeWhile isOctal) 0
      else if c == 'c' && (inArgument || kind == .program) then (.stop, rest)
      else if kind == .builtin then (.bytes (92 :: bytesOf (String.singleton c)), rest)
      else match c with
        | '"' => (.bytes [34], rest)
        | 'x' => hex 2 1 false
        | 'u' => hex 4 1 true
        | 'U' => hex 8 1 true
        | c => (.bytes (92 :: bytesOf (String.singleton c)), rest)

/-- A text with its escapes replaced, as far as none of them stops the writing; the flag tells whether
one does. -/
def unescape (kind : Kind) : (fuel : Nat) → List Char → List UInt8 × Bool
  | 0, _ => ([], false)
  | _, [] => ([], false)
  | fuel + 1, '\\' :: rest =>
    match escape kind true rest with
    | (.bytes bs, rest) =>
      let (more, stops) := unescape kind fuel rest
      (bs ++ more, stops)
    | (_, _) => ([], true)
  | fuel + 1, c :: rest =>
    let (more, stops) := unescape kind fuel rest
    (bytesOf (String.singleton c) ++ more, stops)

/-! ### Numbers -/

/-- How far an argument could be read as a number. -/
inductive Fit where
  | whole | part | none | outOfRange
deriving DecidableEq, Repr

/-- The text of the fault of an argument. -/
def Fit.message? (kind : Kind) (arg : String) : Fit → Option String
  | .whole => Option.none
  | .part => some (match kind with
    | .program => inQuotes arg ++ ": value not completely converted"
    | .builtin => arg ++ ": not completely converted")
  | .none => some (match kind with
    | .program => inQuotes arg ++ ": expected a numeric value"
    | .builtin => arg ++ ": expected numeric value")
  | .outOfRange => some ((match kind with
    | .program => inQuotes arg
    | .builtin => arg) ++ ": Numerical result out of range")

/-- A sign in front of characters. -/
def readSign (cs : List Char) : Bool × List Char :=
  match cs.dropWhile (fun c => c == ' ' || ('\x09' ≤ c && c ≤ '\x0d')) with
  | '-' :: cs => (true, cs)
  | '+' :: cs => (false, cs)
  | cs => (false, cs)

/-- The number of the character behind a quote, if an argument starts with one. The program takes the
whole character, the command of a shell its first byte. -/
def characterCode? (kind : Kind) (arg : String) : Option Nat :=
  match arg.toList with
  | q :: c :: _ =>
    if q == '\'' || q == '"' then
      some (match kind with
        | .program => c.toNat
        | .builtin => ((bytesOf (String.singleton c)).head?.getD 0).toNat)
    else none
  | [q] => if kind == .builtin && (q == '\'' || q == '"') then some 0 else none
  | [] => none

/-- The integer of an argument, between two bounds. -/
def readInteger (kind : Kind) (low high : Int) (arg : String) : Int × Fit :=
  match characterCode? kind arg with
  | some n => (n, .whole)
  | none =>
    if arg.isEmpty then (0, .whole)
    else
      let (negative, cs) := readSign arg.toList
      let (n, length) := naturalAhead cs
      let i : Int := if negative then -(n : Int) else n
      if length == 0 then (0, .none)
      else if i < low || high < i then (max low (min high i), .outOfRange)
      else (i, if length == cs.length then .whole else .part)

/-- A floating-point number: a quotient with a sign, an infinity, or none. -/
inductive Magnitude where
  | quotient (n d : Nat)
  | infinite
  | undefined
deriving DecidableEq, Repr

/-- A quotient brought to the nearest number with so many binary digits. -/
def nearest (bits n d : Nat) : Nat × Nat :=
  if n == 0 then (0, 1)
  else
    let e := Binary64.floorLog2 n d - (bits - 1)
    if 0 ≤ e then (Binary64.divNearestEven n (d * twoTo e.toNat) * twoTo e.toNat, 1)
    else (Binary64.divNearestEven (n * twoTo (-e).toNat) d, twoTo (-e).toNat)

/-- The magnitude at the start of a text without sign, and how many characters it has. -/
def magnitudeAhead (cs : List Char) : Magnitude × Nat :=
  let small := cs.map Char.toLower
  if "infinity".toList.isPrefixOf small then (.infinite, 8)
  else if "inf".toList.isPrefixOf small then (.infinite, 3)
  else if "nan".toList.isPrefixOf small then (.undefined, 3)
  else
    let whole := cs.takeWhile Char.isDigit
    let rest := cs.drop whole.length
    let fraction := match rest with
      | '.' :: rest => rest.takeWhile Char.isDigit
      | _ => []
    let length := whole.length + (if rest.head? == some '.' then fraction.length + 1 else 0)
    if whole.isEmpty && fraction.isEmpty then (.quotient 0 1, 0)
    else
      let (exponent, more) : Int × Nat := match cs.drop length with
        | e :: rest =>
          if e == 'e' || e == 'E' then
            let (sign, signs, ds) : Int × Nat × List Char := match rest with
              | '-' :: ds => (-1, 1, ds)
              | '+' :: ds => (1, 1, ds)
              | ds => (1, 0, ds)
            let ds := ds.takeWhile Char.isDigit
            if ds.isEmpty then (0, 0) else (sign * valueOfDigits 10 ds, 1 + signs + ds.length)
          else (0, 0)
        | [] => (0, 0)
      let digits := valueOfDigits 10 (whole ++ fraction)
      let scale : Int := exponent - fraction.length
      let magnitude : Magnitude :=
        if digits == 0 || scale < -6000 then .quotient 0 1
        else if 6000 < scale then .infinite
        else if 0 ≤ scale then .quotient (digits * tenTo scale.toNat) 1
        else .quotient digits (tenTo (-scale).toNat)
      (magnitude, length + more)

/-- The floating-point number of an argument: whether it is negative, and its magnitude. -/
def readFloat (kind : Kind) (arg : String) : (Bool × Magnitude) × Fit :=
  match characterCode? kind arg with
  | some n => ((false, .quotient n 1), .whole)
  | none =>
    if arg.isEmpty then ((false, .quotient 0 1), .whole)
    else
      let (negative, cs) := readSign arg.toList
      let (magnitude, length) := magnitudeAhead cs
      if length == 0 then ((false, .quotient 0 1), .none)
      else
        let fit : Fit := if length == cs.length then .whole else .part
        match magnitude with
        | .quotient n d =>
          let (n, d) := nearest (match kind with | .program => 64 | .builtin => 53) n d
          if kind == .builtin && twoTo 1024 * d ≤ n then ((negative, .infinite), .outOfRange)
          else ((negative, .quotient n d), fit)
        | magnitude => ((negative, magnitude), fit)

/-! ### Conversions -/

/-- How an argument is written. -/
structure Conversion where
  /-- On the left of its field. -/
  left : Bool := false
  /-- With zeros instead of blanks. -/
  zeros : Bool := false
  /-- With a plus sign. -/
  plus : Bool := false
  /-- With a blank in the place of a plus sign. -/
  blank : Bool := false
  /-- With a mark of the base, or with all digits. -/
  alternate : Bool := false
  /-- The least width of the field. -/
  width : Nat := 0
  precision : Option Nat := none
  /-- The letter of the conversion. -/
  letter : Char := 's'
deriving Repr

/-- Bytes in their field, behind a sign. -/
def Conversion.pad (c : Conversion) (sign body : List UInt8) (zeros : Bool) : List UInt8 :=
  let fill := c.width - (sign.length + body.length)
  if c.left then sign ++ body ++ List.replicate fill 32
  else if zeros then sign ++ List.replicate fill 48 ++ body
  else List.replicate fill 32 ++ sign ++ body

/-- The sign in front of a number. -/
def Conversion.sign (c : Conversion) (negative : Bool) : List UInt8 :=
  if negative then [45] else if c.plus then [43] else if c.blank then [32] else []

/-- The bytes of characters. -/
def charBytes (cs : List Char) : List UInt8 := bytesOf (String.ofList cs)

/-- A natural number in a base, with as many digits as the precision asks for. -/
def Conversion.digits (c : Conversion) (base n : Nat) : List Char :=
  let ds := if n == 0 && c.precision == some 0 then [] else Nat.toDigits base n
  List.replicate ((c.precision.getD 1) - ds.length) '0' ++ ds

/-- An integer in decimal digits. -/
def Conversion.writeSigned (c : Conversion) (i : Int) : List UInt8 :=
  c.pad (c.sign (i < 0)) (charBytes (c.digits 10 i.natAbs)) (c.zeros && c.precision.isNone)

/-- A natural number in the base of the conversion. -/
def Conversion.writeUnsigned (c : Conversion) (n : Nat) : List UInt8 :=
  let base := match c.letter with | 'o' => 8 | 'u' => 10 | _ => 16
  let ds := c.digits base n
  let ds := if c.letter == 'o' && c.alternate && ds.head? != some '0' then '0' :: ds else ds
  let ds := if c.letter == 'X' then ds.map Char.toUpper else ds
  let mark := if c.alternate && n != 0 && base == 16 then ['0', c.letter] else []
  c.pad (charBytes mark) (charBytes ds) (c.zeros && c.precision.isNone)

/-- A magnitude with a count of places. -/
def fixedText (alternate : Bool) (n d places : Nat) : List Char :=
  let q := Binary64.divNearestEven (n * tenTo places) d
  let whole := Nat.toDigits 10 (q / tenTo places)
  if places == 0 then (if alternate then whole ++ ['.'] else whole)
  else whole ++ '.' :: paddedDigits places (q % tenTo places)

/-- The digits of a magnitude, one in front of the point and a count of places, and the exponent. -/
def exponentDigits (n d places : Nat) : Nat × Int :=
  if n == 0 then (0, 0)
  else
    let e := Finite64.leadingExponent n d
    let shift : Int := places - e
    let q := if 0 ≤ shift then Binary64.divNearestEven (n * tenTo shift.toNat) d
      else Binary64.divNearestEven n (d * tenTo (-shift).toNat)
    if q == tenTo (places + 1) then (q / 10, e + 1) else (q, e)

/-- A magnitude with an exponent. -/
def exponentText (alternate : Bool) (n d places : Nat) : List Char :=
  let (q, e) := exponentDigits n d places
  let ds := paddedDigits (places + 1) q
  let mantissa := if places == 0 then (if alternate then ds ++ ['.'] else ds)
    else ds.take 1 ++ '.' :: ds.drop 1
  mantissa ++ ['e', if e < 0 then '-' else '+'] ++ paddedDigits 2 e.natAbs

/-- Characters without the zeros at their end that stand behind a point. -/
def withoutZeros (cs : List Char) : List Char :=
  if cs.contains '.' then
    match cs.reverse.dropWhile (· == '0') with
    | '.' :: rest => rest.reverse
    | rest => rest.reverse
  else cs

/-- A magnitude with a count of digits that mean something. -/
def generalText (alternate : Bool) (n d precision : Nat) : List Char :=
  let p := max precision 1
  let (_, e) := exponentDigits n d (p - 1)
  if -4 ≤ e && e < p then
    let text := fixedText alternate n d ((p : Int) - 1 - e).toNat
    if alternate then text else withoutZeros text
  else
    let text := exponentText alternate n d (p - 1)
    let mantissa := text.takeWhile (· != 'e')
    (if alternate then mantissa else withoutZeros mantissa) ++ text.drop mantissa.length

/-- A floating-point number. -/
def Conversion.writeFloat (c : Conversion) (negative : Bool) (m : Magnitude) : List UInt8 :=
  let places := c.precision.getD 6
  let body := match m with
    | .infinite => ['i', 'n', 'f']
    | .undefined => ['n', 'a', 'n']
    | .quotient n d => match c.letter.toLower with
      | 'f' => fixedText c.alternate n d places
      | 'e' => exponentText c.alternate n d places
      | _ => generalText c.alternate n d places
  let finite := match m with | .quotient .. => true | _ => false
  let body := if c.letter.isUpper then body.map Char.toUpper else body
  c.pad (c.sign negative) (charBytes body) (c.zeros && finite)

/-! ### Formats -/

/-- How far the writing has come. -/
structure State where
  /-- What was written. -/
  out : List UInt8 := []
  /-- The texts of faults. -/
  faults : List String := []
  /-- The arguments that are left. -/
  args : List String := []
  /-- Whether an argument was no number. -/
  failed : Bool := false
  /-- Whether nothing more is written. -/
  stopped : Bool := false
  /-- The exit code of a fault in the format. -/
  broken : Option Nat := none

namespace State

/-- The state with more bytes written. -/
def write (s : State) (bs : List UInt8) : State := { s with out := s.out ++ bs }

/-- The next argument, and the state without it. -/
def next (s : State) : String × State := (s.args.head?.getD "", { s with args := s.args.drop 1 })

/-- The state with the fault of an argument told. -/
def tell (s : State) (kind : Kind) (arg : String) (fit : Fit) : State :=
  match fit.message? kind arg with
  | some text => { s with faults := s.faults ++ [text], failed := true }
  | none => s

/-- The end at a fault in the format. -/
def fail (s : State) (code : Nat) (text : String) : State :=
  { s with faults := s.faults ++ [text], broken := some code, stopped := true }

/-- The state with a remark on what follows the character of an argument. -/
def remark (s : State) (kind : Kind) (arg : String) : State :=
  match kind, characterCode? kind arg with
  | .program, some _ =>
    let behind := String.ofList (arg.toList.drop 2)
    if behind.isEmpty then s
    else { s with faults := s.faults ++
      ["warning: " ++ behind ++ ": character(s) following character constant have been ignored"] }
  | _, _ => s

/-- The next argument as an integer. -/
def nextInteger (s : State) (kind : Kind) (low high : Int) : Int × State :=
  let (arg, s) := s.next
  let (i, fit) := readInteger kind low high arg
  (i, (s.tell kind arg fit).remark kind arg)

end State

/-- The flags at the front of a conversion, and the rest. -/
def readFlags (c : Conversion) : List Char → Conversion × List Char
  | '-' :: rest => readFlags { c with left := true } rest
  | '0' :: rest => readFlags { c with zeros := true } rest
  | '+' :: rest => readFlags { c with plus := true } rest
  | ' ' :: rest => readFlags { c with blank := true } rest
  | '#' :: rest => readFlags { c with alternate := true } rest
  | rest => (c, rest)

/-- The width of a conversion, which an argument may give. -/
def readWidth (kind : Kind) (s : State) (c : Conversion) : List Char → State × Conversion × List Char
  | '*' :: rest =>
    let (i, s) := s.nextInteger kind (-(twoTo 31)) (twoTo 31 - 1)
    (s, { c with width := i.natAbs, left := c.left || i < 0 }, rest)
  | cs =>
    let ds := cs.takeWhile Char.isDigit
    (s, { c with width := valueOfDigits 10 ds }, cs.drop ds.length)

/-- The precision of a conversion, which an argument may give. -/
def readPrecision (kind : Kind) (s : State) (c : Conversion) : List Char → State × Conversion × List Char
  | '.' :: '*' :: rest =>
    let (i, s) := s.nextInteger kind (-(twoTo 31)) (twoTo 31 - 1)
    (s, { c with precision := if i < 0 then none else some i.natAbs }, rest)
  | '.' :: rest =>
    let ds := rest.takeWhile Char.isDigit
    (s, { c with precision := some (valueOfDigits 10 ds) }, rest.drop ds.length)
  | cs => (s, c, cs)

/-- Whether the flags of a conversion may go with its letter, in the program. -/
def Conversion.isFit (c : Conversion) : Bool :=
  match c.letter with
  | 'c' => !c.zeros && !c.alternate && c.precision.isNone
  | 's' => !c.zeros && !c.alternate
  | 'b' | 'q' => !c.left && !c.zeros && !c.plus && !c.blank && !c.alternate && c.width == 0 && c.precision.isNone
  | 'd' | 'i' | 'u' => !c.alternate
  | _ => true

/-- A text as a shell would have to be given it. -/
def shellText (text : String) : String :=
  let plain (c : Char) : Bool := c.isAlphanum || "_-./:=@%+,".toList.contains c || 0x80 ≤ c.toNat
  if !text.isEmpty && text.toList.all plain then text
  else if !text.toList.contains '\'' then "'" ++ text ++ "'"
  else if !text.toList.any (fun c => "\"\\$\x60!".toList.contains c) then "\"" ++ text ++ "\""
  else "'" ++ text.replace "'" "'\\''" ++ "'"

def writeArgument (kind : Kind) (s : State) (c : Conversion) : State :=
  match c.letter with
  | 'd' | 'i' =>
    let (i, s) := s.nextInteger kind (-(twoTo 63)) (twoTo 63 - 1)
    s.write (c.writeSigned i)
  | 'o' | 'u' | 'x' | 'X' =>
    let (i, s) := s.nextInteger kind (-(twoTo 64) + 1) (twoTo 64 - 1)
    s.write (c.writeUnsigned (i % twoTo 64).toNat)
  | 'c' =>
    let (arg, s) := s.next
    s.write (c.pad [] [(bytesOf arg).head?.getD 0] false)
  | 's' =>
    let (arg, s) := s.next
    let bs := bytesOf arg
    s.write (c.pad [] (bs.take (c.precision.getD bs.length)) false)
  | 'b' =>
    let (arg, s) := s.next
    let (bs, stops) := unescape kind (arg.length + 1) arg.toList
    { s.write (c.pad [] (bs.take (c.precision.getD bs.length)) false) with stopped := stops }
  | 'q' =>
    let (arg, s) := s.next
    s.write (bytesOf (shellText arg))
  | _ =>
    let (arg, s) := s.next
    let ((negative, m), fit) := readFloat kind arg
    ((s.tell kind arg fit).remark kind arg).write (c.writeFloat negative m)

/-- The letters of conversions. -/
def letters : Kind → List Char
  | .program => "diouxXcsbqeEfFgG".toList
  | .builtin => "diouxXcsbeEfFgG".toList

/-- The conversion behind a percent sign, carried out, and the rest. -/
def convert (kind : Kind) (s : State) (cs : List Char) : State × List Char :=
  let (c, rest) := readFlags {} cs
  let (s, c, rest) := readWidth kind s c rest
  let (s, c, rest) := readPrecision kind s c rest
  let rest := if kind == .program then rest.dropWhile (fun c => "hlLjtz".toList.contains c) else rest
  let written := String.ofList ('%' :: cs.take (cs.length - rest.length))
  match rest with
  | [] => (match kind with
    | .program => s.fail 1 (written ++ ": invalid conversion specification")
    | .builtin => s.fail 2 "missing format character", [])
  | letter :: rest =>
    let c := { c with letter := letter }
    if !(letters kind).contains letter || (kind == .program && !c.isFit) then
      let written := written ++ String.singleton letter
      (match kind with
        | .program => s.fail 1 (written ++ ": invalid conversion specification")
        | .builtin => s.fail 2 (written ++ ": invalid directive"), [])
    else (writeArgument kind s c, rest)

/-- One use of a format. -/
def formatOnce (kind : Kind) : (fuel : Nat) → State → List Char → State
  | 0, s, _ => s
  | _, s, [] => s
  | fuel + 1, s, c :: rest =>
    if s.stopped then s
    else match c, rest with
      | '\\', rest =>
        match escape kind false rest with
        | (.bytes bs, rest) => formatOnce kind fuel (s.write bs) rest
        | (.stop, _) => { s with stopped := true }
        | (.missingDigits, _) => s.fail 1 "missing hexadecimal number in escape"
      | '%', '%' :: rest => formatOnce kind fuel (s.write [37]) rest
      | '%', rest =>
        let (s, rest) := convert kind s rest
        formatOnce kind fuel s rest
      | c, rest => formatOnce kind fuel (s.write (bytesOf (String.singleton c))) rest

/-- The uses of a format, as long as one takes arguments and arguments are left. -/
def formatAll (kind : Kind) (format : List Char) : (fuel : Nat) → State → State
  | 0, s => s
  | fuel + 1, s =>
    let after := formatOnce kind (format.length + 1) s format
    if after.stopped || after.args.isEmpty then after
    else if after.args.length == s.args.length then
      match kind with
      | .program => { after with faults := after.faults ++
          ["warning: ignoring excess arguments, starting with " ++ inQuotes (after.args.head?.getD "")] }
      | .builtin => after
    else formatAll kind format fuel after

/-- Arguments written by a format: the state in which the writing ends. -/
def run (kind : Kind) (format : String) (args : List String) : State :=
  formatAll kind format.toList (args.length + 1) { args := args }

/-- The exit code of a state in which the writing ended. -/
def State.code (s : State) : Nat := s.broken.getD (if s.failed then 1 else 0)

end ScriptYard.Shell.Printf
