import ScriptYard.Shell.Grammar

/-!
# Expressions of a shell

`Expression.read` reads the text of an expression, and `Expression.evaluate` computes its value among
integers of 64 bits that wrap around. The operators and their ranks are those of the language C; a
variable stands for the integer that its value writes, and may be assigned to.
-/

namespace ScriptYard.Shell

/-- The operators between two integers. -/
inductive BinaryOperator where
  | multiply | divide | remainder | add | subtract | shiftLeft | shiftRight | less | lessEqual | greater
  | greaterEqual | equal | notEqual | bitAnd | bitXor | bitOr
deriving DecidableEq, Repr

inductive Expression where
  | number (i : Int)
  | variable (name : String)
  | minus (e : Expression)
  | not (e : Expression)
  | complement (e : Expression)
  | binary (op : BinaryOperator) (a b : Expression)
  | and (a b : Expression)
  | or (a b : Expression)
  | conditional (c a b : Expression)
  /-- The assignment of a value, or of the old value changed by it. -/
  | assign (name : String) (op : Option BinaryOperator) (e : Expression)
deriving Repr

/-- Why an expression has no value. -/
inductive ExpressionFault where
  /-- A value is missing. -/
  | expectsPrimary
  /-- Something follows the end. -/
  | expectsEnd
  /-- A parenthesis is not closed. -/
  | expectsParenthesis
  /-- The second half of a conditional is missing. -/
  | expectsColon
  /-- A character that belongs to no expression. -/
  | badToken
  | divisionByZero
  /-- The value of a variable is no integer. -/
  | notANumber (text : String)
deriving DecidableEq, Repr

/-- The text of the fault in an expression. -/
def ExpressionFault.message (expression : String) : ExpressionFault → String
  | .expectsPrimary => "arithmetic expression: expecting primary: \"" ++ expression ++ "\""
  | .expectsEnd => "arithmetic expression: expecting EOF: \"" ++ expression ++ "\""
  | .expectsParenthesis => "arithmetic expression: expecting ')': \"" ++ expression ++ "\""
  | .expectsColon => "arithmetic expression: expecting ':': \"" ++ expression ++ "\""
  | .badToken => "arithmetic expression: expecting EOF: \"" ++ expression ++ "\""
  | .divisionByZero => "arithmetic expression: division by zero: \"" ++ expression ++ "\""
  | .notANumber text => "Illegal number: " ++ text

/-! ### Integers -/

/-- An integer brought into the range of 64 bits. -/
def wrap (i : Int) : Int := Int.bmod i (twoTo 64)

/-- An integer brought to the nearest one in the range of 64 bits. -/
def clamp (i : Int) : Int := max (-(twoTo 63 : Int)) (min (twoTo 63 - 1) i)

/-- The value of a character as a digit. -/
def digitValue (c : Char) : Nat :=
  if c.isDigit then c.toNat - 48
  else if 'a' ≤ c.toLower && c.toLower ≤ 'z' then c.toLower.toNat - 87
  else 36

def valueOfDigits (base : Nat) (cs : List Char) : Nat := cs.foldl (fun n c => n * base + digitValue c) 0

/-- The natural number at the start of a text, in decimal, octal behind a zero, or hexadecimal behind
`0x`, and how many characters it has. -/
def naturalAhead (cs : List Char) : Nat × Nat :=
  match cs with
  | '0' :: x :: rest =>
    let ds := rest.takeWhile (fun c => digitValue c < 16)
    if (x == 'x' || x == 'X') && !ds.isEmpty then (valueOfDigits 16 ds, ds.length + 2)
    else
      let ds := cs.takeWhile (fun c => digitValue c < 8)
      (valueOfDigits 8 ds, ds.length)
  | cs =>
    let ds := cs.takeWhile Char.isDigit
    (valueOfDigits 10 ds, ds.length)

/-- The integer that the value of a variable writes; a blank one is zero. -/
def integerOfValue? (text : String) : Option Int :=
  let isGap (c : Char) : Bool := c == ' ' || ('\x09' ≤ c && c ≤ '\x0d')
  let cs := text.toList.dropWhile isGap
  if cs.isEmpty then some 0
  else
    let (negative, cs) := match cs with
      | '-' :: cs => (true, cs)
      | '+' :: cs => (false, cs)
      | cs => (false, cs)
    let (n, length) := naturalAhead cs
    if length == 0 || !(cs.drop length).all isGap then none
    else some (clamp (if negative then -(n : Int) else n))

/-- The value of an operation. -/
def BinaryOperator.apply (op : BinaryOperator) (a b : Int) : Except ExpressionFault Int :=
  let truth (b : Bool) : Except ExpressionFault Int := .ok (if b then 1 else 0)
  let bits (i : Int) : Nat := (i % twoTo 64).toNat
  match op with
  | .multiply => .ok (wrap (a * b))
  | .divide => if b == 0 then .error .divisionByZero else .ok (wrap (Int.tdiv a b))
  | .remainder => if b == 0 then .error .divisionByZero else .ok (Int.tmod a b)
  | .add => .ok (wrap (a + b))
  | .subtract => .ok (wrap (a - b))
  | .shiftLeft => .ok (wrap (a * twoTo (bits b % 64)))
  | .shiftRight => .ok (a / twoTo (bits b % 64))
  | .less => truth (a < b)
  | .lessEqual => truth (a ≤ b)
  | .greater => truth (b < a)
  | .greaterEqual => truth (b ≤ a)
  | .equal => truth (a == b)
  | .notEqual => truth (a != b)
  | .bitAnd => .ok (wrap (bits a &&& bits b : Nat))
  | .bitXor => .ok (wrap (bits a ^^^ bits b : Nat))
  | .bitOr => .ok (wrap (bits a ||| bits b : Nat))

namespace Expression

/-! ### Reading -/

/-- A token of an expression. -/
inductive Token where
  | number (n : Nat)
  | name (s : String)
  | operator (s : String)
deriving DecidableEq, Repr

/-- The operators, longer ones first. -/
def operators : List String :=
  ["<<=", ">>=", "<<", ">>", "<=", ">=", "==", "!=", "&&", "||", "*=", "/=", "%=", "+=", "-=", "&=",
    "\x5e=", "|=", "<", ">", "*", "/", "%", "+", "-", "&", "\x5e", "|", "!", "~", "(", ")", "?", ":", "="]

/-- The tokens of a text; none where a character belongs to none. -/
def tokens? : (fuel : Nat) → List Char → Option (List Token)
  | 0, _ => some []
  | _, [] => some []
  | fuel + 1, c :: rest =>
    if c == ' ' || c == '\t' || c == '\n' then tokens? fuel rest
    else if c.isDigit then
      let (n, length) := naturalAhead (c :: rest)
      (tokens? fuel ((c :: rest).drop length)).map (.number n :: ·)
    else if isNameStart c then
      let name := (c :: rest).takeWhile isNameChar
      (tokens? fuel ((c :: rest).drop name.length)).map (.name (String.ofList name) :: ·)
    else match operators.find? (fun op => op.toList.isPrefixOf (c :: rest)) with
      | some op => (tokens? fuel ((c :: rest).drop op.length)).map (.operator op :: ·)
      | none => none

/-- The operator between two integers of a text, and its rank. -/
def binary? : String → Option (BinaryOperator × Nat)
  | "*" => some (.multiply, 10)
  | "/" => some (.divide, 10)
  | "%" => some (.remainder, 10)
  | "+" => some (.add, 9)
  | "-" => some (.subtract, 9)
  | "<<" => some (.shiftLeft, 8)
  | ">>" => some (.shiftRight, 8)
  | "<" => some (.less, 7)
  | "<=" => some (.lessEqual, 7)
  | ">" => some (.greater, 7)
  | ">=" => some (.greaterEqual, 7)
  | "==" => some (.equal, 6)
  | "!=" => some (.notEqual, 6)
  | "&" => some (.bitAnd, 5)
  | "\x5e" => some (.bitXor, 4)
  | "|" => some (.bitOr, 3)
  | _ => none

/-- The operator of an assignment; the inner answer is missing for a plain one. -/
def assignment? (text : String) : Option (Option BinaryOperator) :=
  if text == "=" then some none
  else match text.toList.reverse with
    | '=' :: op => if text == "==" || text == "<=" || text == ">=" || text == "!=" then none
        else (binary? (String.ofList op.reverse)).map (fun op => some op.1)
    | _ => none

/-- An expression and the tokens behind it. -/
abbrev Step : Type := Except ExpressionFault (Expression × List Token)

mutual

/-- Reads a value with the operators in front of it. -/
def readPrimary : (fuel : Nat) → List Token → Step
  | 0, _ => .error .expectsPrimary
  | _ + 1, .number n :: rest => .ok (.number (clamp n), rest)
  | _ + 1, .name s :: rest => .ok (.variable s, rest)
  | fuel + 1, .operator op :: rest =>
    match op with
    | "(" => do
      match ← readAssignment fuel rest with
      | (e, .operator ")" :: rest) => return (e, rest)
      | _ => throw .expectsParenthesis
    | "-" => do let (e, rest) ← readPrimary fuel rest; return (.minus e, rest)
    | "+" => readPrimary fuel rest
    | "!" => do let (e, rest) ← readPrimary fuel rest; return (.not e, rest)
    | "~" => do let (e, rest) ← readPrimary fuel rest; return (.complement e, rest)
    | _ => .error .expectsPrimary
  | _ + 1, [] => .error .expectsPrimary

/-- Reads operations of at least a rank behind their first operand. -/
def readBinary (rank : Nat) : (fuel : Nat) → Expression → List Token → Step
  | 0, a, rest => .ok (a, rest)
  | fuel + 1, a, .operator text :: rest =>
    match binary? text with
    | some (op, r) =>
      if r < rank then .ok (a, .operator text :: rest)
      else do
        let (b, rest) ← readPrimary fuel rest
        let (b, rest) ← readBinary (r + 1) fuel b rest
        readBinary rank fuel (.binary op a b) rest
    | none => .ok (a, .operator text :: rest)
  | _ + 1, a, rest => .ok (a, rest)

/-- Reads a conjunction. -/
def readAnd : (fuel : Nat) → List Token → Step
  | 0, _ => .error .expectsPrimary
  | fuel + 1, ts => do
    let (a, rest) ← readPrimary fuel ts
    let (a, rest) ← readBinary 0 fuel a rest
    match rest with
    | .operator "&&" :: rest => do
      let (b, rest) ← readAnd fuel rest
      return (.and a b, rest)
    | rest => return (a, rest)

/-- Reads a disjunction. -/
def readOr : (fuel : Nat) → List Token → Step
  | 0, _ => .error .expectsPrimary
  | fuel + 1, ts => do
    match ← readAnd fuel ts with
    | (a, .operator "||" :: rest) => do
      let (b, rest) ← readOr fuel rest
      return (.or a b, rest)
    | step => return step

def readConditional : (fuel : Nat) → List Token → Step
  | 0, _ => .error .expectsPrimary
  | fuel + 1, ts => do
    match ← readOr fuel ts with
    | (c, .operator "?" :: rest) => do
      match ← readAssignment fuel rest with
      | (a, .operator ":" :: rest) => do
        let (b, rest) ← readConditional fuel rest
        return (.conditional c a b, rest)
      | _ => throw .expectsColon
    | step => return step

/-- Reads an assignment or an expression without one. -/
def readAssignment : (fuel : Nat) → List Token → Step
  | 0, _ => .error .expectsPrimary
  | fuel + 1, ts =>
    match ts with
    | .name s :: .operator text :: rest =>
      match assignment? text with
      | some op => do
        let (e, rest) ← readAssignment fuel rest
        return (.assign s op e, rest)
      | none => readConditional fuel ts
    | ts => readConditional fuel ts

end

/-- The expression of a text. An empty one is zero. -/
def read (text : String) : Except ExpressionFault Expression :=
  match tokens? (text.length + 1) text.toList with
  | none => .error .badToken
  | some [] => .ok (.number 0)
  | some ts => do
    match ← readAssignment (8 * ts.length + 8) ts with
    | (e, []) => return e
    | _ => throw .expectsEnd

/-! ### Values -/

/-- The value of a variable, which may have been assigned. -/
def variableValue (lookup : String → Option String) (assigned : List (String × Int)) (name : String) :
    Except ExpressionFault Int :=
  match assigned.lookup name with
  | some i => .ok i
  | none => match lookup name with
    | none => .ok 0
    | some text => match integerOfValue? text with
      | some i => .ok i
      | none => .error (.notANumber text)

/-- The value of an expression. The state is what variables are worth, and what has been assigned,
the last assignment first. -/
def evaluate (lookup : String → Option String) :
    Expression → List (String × Int) → Except ExpressionFault (Int × List (String × Int))
  | .number i, assigned => .ok (i, assigned)
  | .variable name, assigned => do return (← variableValue lookup assigned name, assigned)
  | .minus e, assigned => do
    let (i, assigned) ← e.evaluate lookup assigned
    return (wrap (-i), assigned)
  | .not e, assigned => do
    let (i, assigned) ← e.evaluate lookup assigned
    return (if i == 0 then 1 else 0, assigned)
  | .complement e, assigned => do
    let (i, assigned) ← e.evaluate lookup assigned
    return (-i - 1, assigned)
  | .binary op a b, assigned => do
    let (i, assigned) ← a.evaluate lookup assigned
    let (j, assigned) ← b.evaluate lookup assigned
    return (← op.apply i j, assigned)
  | .and a b, assigned => do
    let (i, assigned) ← a.evaluate lookup assigned
    if i == 0 then return (0, assigned)
    let (j, assigned) ← b.evaluate lookup assigned
    return (if j == 0 then 0 else 1, assigned)
  | .or a b, assigned => do
    let (i, assigned) ← a.evaluate lookup assigned
    if i != 0 then return (1, assigned)
    let (j, assigned) ← b.evaluate lookup assigned
    return (if j == 0 then 0 else 1, assigned)
  | .conditional c a b, assigned => do
    let (i, assigned) ← c.evaluate lookup assigned
    if i != 0 then a.evaluate lookup assigned else b.evaluate lookup assigned
  | .assign name op e, assigned => do
    let (j, assigned) ← e.evaluate lookup assigned
    match op with
    | none => return (j, (name, j) :: assigned)
    | some op =>
      let value ← op.apply (← variableValue lookup assigned name) j
      return (value, (name, value) :: assigned)

end Expression

end ScriptYard.Shell
