import ScriptYard.Shell.Arithmetic
import ScriptYard.Shell.Machine

/-!
# Conditions

Tests of texts, integers and files, as the command `test` evaluates them. The program of that name
(`Condition.evaluate`) decides by the number of its arguments what they mean, and reads longer ones as
an expression; the command that is part of a shell (`Condition.evaluateBuiltin`) reads all but the
shortest ones as an expression, and words its faults differently.
-/

namespace ScriptYard.Shell.Condition

/-! ### Single tests -/

/-- The size of a file. -/
def size (m : Machine) (path : String) : Nat :=
  match m.files.find path with
  | .ok (.file bytes) => bytes.length
  | .ok .directory => 4096
  | _ => 0

/-- Whether a path leads to a program or a directory. -/
def isExecutable (m : Machine) (path : String) : Bool :=
  match m.files.locate path with
  | .ok (_, .directory) => true
  | .ok (place, _) => (FileTree.program? place).isSome
  | .error _ => false

/-- The test of a letter on a text or a file. -/
def unary? (m : Machine) (letter : Char) (arg : String) : Option Bool :=
  match letter with
  | 'z' => some arg.isEmpty
  | 'n' => some (!arg.isEmpty)
  | 'e' => some (m.files.holds arg)
  | 'f' => some (m.isFile arg)
  | 'd' => some (m.files.isDirectory arg)
  | 's' => some (0 < size m arg)
  | 'r' | 'O' | 'G' => some (m.files.holds arg)
  | 'w' => some (m.files.holds arg)
  | 'x' => some (isExecutable m arg)
  | 'c' => some (match m.files.find arg with | .ok (.device _) => true | _ => false)
  | 't' | 'h' | 'L' | 'b' | 'p' | 'S' | 'u' | 'g' | 'k' => some false
  | _ => none

/-- The comparison of two integers that an operator asks for. -/
def compareIntegers? : String → Option (Int → Int → Bool)
  | "-eq" => some (fun x y => x == y)
  | "-ne" => some (fun x y => x != y)
  | "-lt" => some (fun x y => decide (x < y))
  | "-le" => some (fun x y => decide (x ≤ y))
  | "-gt" => some (fun x y => decide (y < x))
  | "-ge" => some (fun x y => decide (y ≤ x))
  | _ => none

/-- The comparison of two texts that an operator asks for. -/
def compareTexts? : String → Option (String → String → Bool)
  | "=" => some (fun a b => a == b)
  | "!=" => some (fun a b => a != b)
  | "<" => some (fun a b => decide (a < b))
  | ">" => some (fun a b => decide (b < a))
  | _ => none

/-- The comparison of two files that an operator asks for. -/
def compareFiles? (m : Machine) (op a b : String) : Option Bool :=
  let place (path : String) := (m.files.locate path).toOption.map (·.1)
  match op with
  | "-ef" => some ((place a).isSome && place a == place b)
  | "-nt" => some ((place a).isSome && (place b).isNone)
  | "-ot" => some ((place b).isSome && (place a).isNone)
  | _ => none

/-- The integer of an argument: blanks, a sign, digits and blanks. -/
def integer? (text : String) : Option Int :=
  let isGap (c : Char) : Bool := c == ' ' || ('\x09' ≤ c && c ≤ '\x0d')
  let (sign, cs) := match text.toList.dropWhile isGap with
    | '-' :: cs => (-1, cs)
    | '+' :: cs => (1, cs)
    | cs => ((1 : Int), cs)
  let ds := cs.takeWhile Char.isDigit
  if ds.isEmpty || !(cs.drop ds.length).all isGap then none
  else some (sign * (valueOfDigits 10 ds : Int))

/-! ### The program -/

/-- The answer of a test with the arguments behind it, or the text of a fault. -/
abbrev Step : Type := Except String (Bool × List String)

/-- Whether a text is an operator between two arguments of the program. -/
def isBinary (op : String) : Bool :=
  op == "==" || (compareTexts? op).isSome || (compareIntegers? op).isSome || ["-ef", "-nt", "-ot"].contains op

/-- The test of two arguments with an operator between them. -/
def binary (m : Machine) (a op b : String) : Except String Bool :=
  match compareIntegers? op with
  | some compare =>
    let value (text : String) : Except String Int :=
      match integer? text with
      | some i => .ok i
      | none => .error ("invalid integer " ++ inQuotes text)
    do return compare (← value a) (← value b)
  | none => match compareTexts? (if op == "==" then "=" else op) with
    | some compare => .ok (compare a b)
    | none => .ok ((compareFiles? m op a b).getD false)

/-- The letter of an operator in front of an argument. -/
def unaryLetter? (text : String) : Option Char :=
  match text.toList with
  | ['-', c] => some c
  | _ => none

/-- The test of an operator in front of an argument. -/
def unary (m : Machine) (op : String) (rest : List String) : Step :=
  match unaryLetter? op, rest with
  | some c, a :: rest => match unary? m c a with
    | some b => .ok (b, rest)
    | none => .error (inQuotes op ++ ": unary operator expected")
  | _, _ => .error ("missing argument after " ++ inQuotes op)

/-- The test of two arguments. -/
def evaluateTwo (m : Machine) (a b : String) : Except String Bool :=
  if a == "!" then .ok b.isEmpty
  else if (unaryLetter? a).isSome then (unary m a [b]).map (·.1)
  else .error ("missing argument after " ++ inQuotes b)

mutual

/-- Reads a test with what negates it. -/
def readTerm (m : Machine) : (fuel : Nat) → List String → Step
  | 0, _ => .error "expression too long"
  | fuel + 1, args =>
    match args with
    | [] => .error "missing argument"
    | "!" :: rest =>
      if rest.isEmpty then .error ("missing argument after " ++ inQuotes "!")
      else (readTerm m fuel rest).map (fun (b, rest) => (!b, rest))
    | "(" :: rest => do
      match ← readOr m fuel rest with
      | (b, ")" :: rest) => return (b, rest)
      | (_, x :: _) => throw (inQuotes ")" ++ " expected, found " ++ x)
      | (_, []) => throw (inQuotes ")" ++ " expected")
    | a :: op :: b :: rest =>
      if isBinary op then do return (← binary m a op b, rest)
      else if (unaryLetter? a).isSome then unary m a (op :: b :: rest)
      else .ok (!a.isEmpty, op :: b :: rest)
    | [a, b] => if (unaryLetter? a).isSome then unary m a [b] else .ok (!a.isEmpty, [b])
    | [a] => .ok (!a.isEmpty, [])

/-- Reads tests that all have to hold. -/
def readAnd (m : Machine) : (fuel : Nat) → List String → Step
  | 0, _ => .error "expression too long"
  | fuel + 1, args => do
    match ← readTerm m fuel args with
    | (b, "-a" :: rest) => do
      let (c, rest) ← readAnd m fuel rest
      return (b && c, rest)
    | step => return step

/-- Reads tests of which one has to hold. -/
def readOr (m : Machine) : (fuel : Nat) → List String → Step
  | 0, _ => .error "expression too long"
  | fuel + 1, args => do
    match ← readAnd m fuel args with
    | (b, "-o" :: rest) => do
      let (c, rest) ← readOr m fuel rest
      return (b || c, rest)
    | step => return step

end

/-- Reads an expression to its end. -/
def evaluateAll (m : Machine) (args : List String) : Except String Bool := do
  match ← readOr m (4 * args.length + 8) args with
  | (b, []) => return b
  | (_, x :: _) => throw ("extra argument " ++ inQuotes x)

/-- The test of three arguments. -/
def evaluateThree (m : Machine) (a op b : String) : Except String Bool :=
  if isBinary op then binary m a op b
  else if a == "!" then (evaluateTwo m op b).map (!·)
  else if a == "(" && b == ")" then .ok (!op.isEmpty)
  else if op == "-a" || op == "-o" then evaluateAll m [a, op, b]
  else .error (inQuotes op ++ ": binary operator expected")

/-- Whether the arguments of the program hold, or the text of a fault. -/
def evaluate (m : Machine) (args : List String) : Except String Bool :=
  match args with
  | [] => .ok false
  | [a] => .ok (!a.isEmpty)
  | [a, b] => evaluateTwo m a b
  | [a, op, b] => evaluateThree m a op b
  | ["!", a, op, b] => (evaluateThree m a op b).map (!·)
  | ["(", a, b, ")"] => evaluateTwo m a b
  | args => evaluateAll m args

/-! ### The command of a shell -/

/-- What an argument is in an expression. -/
inductive ArgumentKind where
  | ending | operand | unary | binary | not | and | or | opening | closing
deriving DecidableEq

/-- What an argument is by itself. -/
def kindOf (arg : String) : ArgumentKind :=
  if arg == "!" then .not
  else if arg == "-a" then .and
  else if arg == "-o" then .or
  else if arg == "(" then .opening
  else if arg == ")" then .closing
  else if (compareTexts? arg).isSome || (compareIntegers? arg).isSome ||
      ["-ef", "-nt", "-ot"].contains arg then .binary
  else match unaryLetter? arg with
    | some c => if "rwxefdcbpugkstznhOGLS".toList.contains c then .unary else .operand
    | none => .operand

/-- What the first of some arguments is where it stands. An operator in front of an argument is an
operand if no argument follows, or if it stands in front of an operator between two. -/
def lex : List String → ArgumentKind
  | [] => .ending
  | arg :: rest =>
    match kindOf arg, rest with
    | .unary, [] => .operand
    | .unary, [_] => .unary
    | .unary, next :: _ :: _ => if kindOf next == .binary then .operand else .unary
    | .opening, [] => .operand
    | kind, _ => kind

/-- The integer of an argument of the command. -/
def integerOrFault (text : String) : Except String Int :=
  match integer? text with
  | some i => if i == clamp i then .ok i else .error ("Illegal number: " ++ text)
  | none => .error ("Illegal number: " ++ text)

/-- The test of two arguments with an operator between them, in the command. -/
def binaryBuiltin (m : Machine) (a op b : String) : Except String Bool :=
  match compareIntegers? op with
  | some compare => do return compare (← integerOrFault a) (← integerOrFault b)
  | none => match compareTexts? op with
    | some compare => .ok (compare a b)
    | none => .ok ((compareFiles? m op a b).getD false)

mutual

/-- Reads a test; the answer keeps its last argument at the front. -/
def readPrimary (m : Machine) : (fuel : Nat) → ArgumentKind → List String → Step
  | 0, _, args => .ok (false, args)
  | fuel + 1, kind, args =>
    match kind, args with
    | .ending, args => .ok (false, args)
    | .opening, _ :: rest =>
      if lex rest == .closing then .ok (false, rest)
      else do
        let (b, args) ← readEither m fuel (lex rest) rest
        if lex (args.drop 1) != .closing then throw "closing paren expected"
        return (b, args.drop 1)
    | .unary, op :: rest =>
      match rest with
      | [] => .error (op ++ ": argument expected")
      | a :: _ => .ok ((unaryLetter? op).bind (fun c => unary? m c a) |>.getD false, rest)
    | _, a :: op :: rest =>
      if lex (op :: rest) == .binary then
        match rest with
        | [] => .error (op ++ ": argument expected")
        | b :: _ => do return (← binaryBuiltin m a op b, rest)
      else .ok (!a.isEmpty, args)
    | _, [a] => .ok (!a.isEmpty, args)
    | _, [] => .ok (false, args)

/-- Reads a test with what negates it. -/
def readNegated (m : Machine) : (fuel : Nat) → ArgumentKind → List String → Step
  | 0, _, args => .ok (false, args)
  | fuel + 1, kind, args =>
    if kind != .not then readPrimary m fuel kind args
    else
      let next := lex (args.drop 1)
      (readNegated m fuel next (if next == .ending then args else args.drop 1)).map fun (b, args) => (!b, args)

/-- Reads tests that all have to hold. -/
def readBoth (m : Machine) : (fuel : Nat) → ArgumentKind → List String → Step
  | 0, _, args => .ok (false, args)
  | fuel + 1, kind, args => do
    let (b, args) ← readNegated m fuel kind args
    if lex (args.drop 1) == .and then
      let args := args.drop 2
      let (c, args) ← readBoth m fuel (lex args) args
      return (b && c, args)
    else return (b, args)

/-- Reads tests of which one has to hold. -/
def readEither (m : Machine) : (fuel : Nat) → ArgumentKind → List String → Step
  | 0, _, args => .ok (false, args)
  | fuel + 1, kind, args => do
    let (b, args) ← readBoth m fuel kind args
    if lex (args.drop 1) == .or then
      let args := args.drop 2
      let (c, args) ← readEither m fuel (lex args) args
      return (b || c, args)
    else return (b, args)

end

/-- Whether the arguments of the command hold, or the text of a fault; `fuel` bounds the negations. -/
def evaluateBuiltin (m : Machine) : (fuel : Nat) → List String → Except String Bool
  | 0, _ => .ok false
  | fuel + 1, args =>
    let all (kind : ArgumentKind) (args : List String) : Except String Bool := do
      match ← readEither m (4 * args.length + 8) kind args with
      | (_, x :: _ :: _) => throw (if x.isEmpty then "unexpected operator" else x ++ ": unexpected operator")
      | (b, _) => return b
    match args with
    | [] => .ok false
    | [_, op, _] =>
      if kindOf op == .binary then all .operand args else grouped fuel all args
    | [_, _, _, _] => grouped fuel all args
    | args => all (lex args) args
where
  /-- Arguments that may be in parentheses or negated as a whole. -/
  grouped (fuel : Nat) (all : ArgumentKind → List String → Except String Bool) (args : List String) :
      Except String Bool :=
    if args.head? == some "(" && args.getLast? == some ")" then
      let inner := (args.drop 1).dropLast
      all (lex inner) inner
    else if args.head? == some "!" then (evaluateBuiltin m fuel (args.drop 1)).map (!·)
    else all (lex args) args

end ScriptYard.Shell.Condition
