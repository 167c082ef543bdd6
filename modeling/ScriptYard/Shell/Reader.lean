import ScriptYard.Shell.Grammar

/-!
# Reading the language of a shell

`readLine?` reads the statements of the next line of a program, and of the lines behind it that belong
to it. A shell runs each line before it reads the next one, so a fault in a later line does not keep the
earlier ones from running.

The readers work on a `Source`, the rest of the text with the token that has been looked at last. A text
given in the lines below (`<<`) is cut out of the source when its redirection is read.
-/

namespace ScriptYard.Shell

inductive Token where
  /-- The end of the text. -/
  | ending
  /-- The end of a line. -/
  | newline
  /-- An operator between commands. -/
  | operator (text : String)
  /-- An operator of redirection, of output or input of a number. -/
  | redirect (number : Option Nat) (text : String)
  | word (w : Word)

/-- A text that is being read. -/
structure Source where
  /-- The characters still to be read. -/
  rest : List Char
  /-- The number of the line. -/
  line : Nat := 1
  /-- How many lines have been cut out behind this one. -/
  cutLines : Nat := 0
  /-- A token that has been read and put back. -/
  pushed : Option Token := none

/-- What cannot be read. -/
inductive SyntaxFault where
  /-- A quote is never closed. -/
  | openQuote
  /-- A brace behind a dollar sign is never closed. -/
  | openBrace
  /-- An expression is never closed. -/
  | openExpression
  /-- Statements in backquotes are never closed. -/
  | openBackquote
  /-- A token stands where none of its kind can; another one may be needed there. -/
  | unexpected (token : String) (expected : Option String)
  /-- The variable of a loop is no name. -/
  | badLoopVariable
  /-- The name of a function is no name. -/
  | badFunctionName
deriving DecidableEq, Repr

/-- The text of the fault. -/
def SyntaxFault.message : SyntaxFault → String
  | .openQuote => "Unterminated quoted string"
  | .openBrace => "Missing '\x7d'"
  | .openExpression => "Missing '))'"
  | .openBackquote => "EOF in backquote substitution"
  | .unexpected token none => token ++ " unexpected"
  | .unexpected token (some expected) => token ++ " unexpected (expecting " ++ expected ++ ")"
  | .badLoopVariable => "Bad for loop variable"
  | .badFunctionName => "Bad function name"

/-- A reader of something; a fault is told with its line. -/
abbrev Reader := StateT Source (Except (Nat × SyntaxFault))

namespace Reader

/-- Fails at the current line. -/
def fail {α : Type} (fault : SyntaxFault) : Reader α := do throw ((← get).line, fault)

/-- The characters ahead. -/
def ahead : Reader (List Char) := do return (← get).rest

/-- Passes over characters, which may hold line ends. -/
def pass (n : Nat) : Reader Unit := modify fun s =>
  let breaks := ((s.rest.take n).filter (· == '\n')).length
  if breaks == 0 then { s with rest := s.rest.drop n }
  else { s with rest := s.rest.drop n, line := s.line + breaks + s.cutLines, cutLines := 0 }

/-- Reads with another reader from a text of its own, to its end. -/
def within {α : Type} (text : List Char) (reader : Reader α) : Reader α := do
  let s ← get
  match reader.run { rest := text, line := s.line } with
  | .ok (a, _) => return a
  | .error e => throw e

/-- The characters that end a word. -/
def endsWord (c : Char) : Bool :=
  c == ' ' || c == '\t' || c == '\n' || c == ';' || c == '&' || c == '|' || c == '<' || c == '>' ||
    c == '(' || c == ')'

/-- Where a piece of a word stands. -/
inductive Place where
  /-- Outside quotes. -/
  | bare
  /-- In double quotes. -/
  | quoted
  /-- Behind the rule of a parameter, outside quotes or in them. -/
  | braces (quoted : Bool)
  | expression
  /-- In a text given in the lines below. -/
  | document
deriving DecidableEq, Repr

/-- Whether pieces at a place count as quoted. -/
def Place.isQuoted : Place → Bool
  | .bare | .braces false => false
  | _ => true

/-- Pieces with neighbouring characters joined. -/
def joined : List WordPart → List WordPart
  | .text a false :: rest =>
    match joined rest with
    | .text b false :: more => .text (a ++ b) false :: more
    | rest => .text a false :: rest
  | part :: rest => part :: joined rest
  | [] => []

/-- The characters in double quotes, and what they count as where they hold nothing. -/
def quotedParts (parts : List WordPart) : List WordPart :=
  match parts with
  | [.parameter "@" _] => parts
  | parts => .text [] true :: parts

/-- The characters of statements in backquotes, in which backslashes protect some characters, and
their count with the closing backquote. -/
def backquoted? (inQuotes : Bool) : List Char → Option (List Char × Nat)
  | [] => none
  | '\x60' :: _ => some ([], 1)
  | '\\' :: c :: rest => do
    let (cs, n) ← backquoted? inQuotes rest
    let protected_ := c == '\x60' || c == '\\' || c == '$' || (inQuotes && c == '"')
    return ((if protected_ then [c] else ['\\', c]) ++ cs, n + 2)
  | c :: rest => do
    let (cs, n) ← backquoted? inQuotes rest
    return (c :: cs, n + 1)

/-- The rule that follows the name of a parameter, with whether an empty value counts as none, and its
length. -/
def ruleAhead : List Char → Option (ValueRule × Bool × Nat)
  | ':' :: '-' :: _ => some (.default, true, 2)
  | ':' :: '=' :: _ => some (.assign, true, 2)
  | ':' :: '?' :: _ => some (.require, true, 2)
  | ':' :: '+' :: _ => some (.alternative, true, 2)
  | '-' :: _ => some (.default, false, 1)
  | '=' :: _ => some (.assign, false, 1)
  | '?' :: _ => some (.require, false, 1)
  | '+' :: _ => some (.alternative, false, 1)
  | '#' :: '#' :: _ => some (.withoutStart true, false, 2)
  | '#' :: _ => some (.withoutStart false, false, 1)
  | '%' :: '%' :: _ => some (.withoutEnd true, false, 2)
  | '%' :: _ => some (.withoutEnd false, false, 1)
  | _ => none

/-- The name of a parameter ahead in braces. -/
def nameAhead : List Char → List Char
  | c :: rest =>
    if isNameStart c then (c :: rest).takeWhile isNameChar
    else if c.isDigit then (c :: rest).takeWhile Char.isDigit
    else if "?$!#@*-".toList.contains c then [c]
    else []
  | [] => []

/-- Passes over blanks, comments and joined lines between tokens; `fuel` bounds their count. -/
def skipBlanks : (fuel : Nat) → Reader Unit
  | 0 => pure ()
  | fuel + 1 => do
    match ← ahead with
    | '\\' :: '\n' :: _ => do pass 2; skipBlanks fuel
    | '#' :: rest => do pass (1 + (rest.takeWhile (· != '\n')).length); skipBlanks fuel
    | c :: _ => if c == ' ' || c == '\t' then do pass 1; skipBlanks fuel else pure ()
    | [] => pure ()

def operatorAhead : List Char → Option String
  | '&' :: '&' :: _ => some "&&"
  | '|' :: '|' :: _ => some "||"
  | ';' :: ';' :: _ => some ";;"
  | c :: _ => if ";&|()".toList.contains c then some (String.singleton c) else none
  | [] => none

/-- The operator of redirection ahead. -/
def redirectAhead : List Char → Option String
  | '>' :: '>' :: _ => some ">>"
  | '>' :: '|' :: _ => some ">|"
  | '>' :: '&' :: _ => some ">&"
  | '>' :: _ => some ">"
  | '<' :: '<' :: '-' :: _ => some "<<-"
  | '<' :: '<' :: _ => some "<<"
  | '<' :: '&' :: _ => some "<&"
  | '<' :: '>' :: _ => some "<>"
  | '<' :: _ => some "<"
  | _ => none

/-- The words that have a meaning where a command starts. -/
def keywords : List String :=
  ["!", "case", "do", "done", "elif", "else", "esac", "fi", "for", "if", "in", "then", "until", "while",
    "\x7b", "\x7d"]

/-- The word with a meaning that a token is. -/
def keyword? : Token → Option String
  | .word w => (plainText? w).filter keywords.contains
  | _ => none

/-- The name of a token in the text of a fault. -/
def tokenName (withKeywords : Bool) (t : Token) : String :=
  match t with
  | .ending => "end of file"
  | .newline => "newline"
  | .operator text => "\"" ++ text ++ "\""
  | .redirect .. => "redirection"
  | .word _ => match (if withKeywords then keyword? t else none) with
    | some k => "\"" ++ k ++ "\""
    | none => "word"

/-- Fails at a token. -/
def unexpected {α : Type} (t : Token) (expected : Option String) (withKeywords : Bool := true) :
    Reader α :=
  fail (.unexpected (tokenName withKeywords t) expected)

def putBack (t : Token) : Reader Unit := modify fun s => { s with pushed := some t }

/-- Cuts the lines of a text out behind the current line, up to one that is the delimiter. -/
def cutDocument (withoutTabs : Bool) (delimiter : String) : Reader (List Char) := do
  let s ← get
  let here := s.rest.takeWhile (· != '\n')
  let lines := (String.ofList (s.rest.drop (here.length + 1))).splitOn "\n"
  let trim (line : String) : String :=
    if withoutTabs then String.ofList (line.toList.dropWhile (· == '\t')) else line
  let body := lines.takeWhile (fun l => trim l != delimiter)
  let closed := body.length < lines.length
  let behind := if closed then lines.drop (body.length + 1) else []
  set { s with
    rest := here ++ (if here.length == s.rest.length then [] else '\n' :: ("\n".intercalate behind).toList)
    cutLines := s.cutLines + body.length + 1 }
  let texts := body.map fun l => (trim l).toList ++ ['\n']
  -- without a delimiter the last line is what stands behind the last line end
  let text := texts.flatten
  return if closed then text else text.dropLast

mutual

/-- Reads the pieces of a word at a place; `level` counts parentheses in an expression. -/
def readParts (place : Place) : (fuel level : Nat) → Reader (List WordPart)
  | 0, _ => return []
  | fuel + 1, level => do
    let quoted := place.isQuoted
    let keep (n : Nat) (part : WordPart) (level : Nat) : Reader (List WordPart) := do
      pass n
      return part :: (← readParts place fuel level)
    match ← ahead with
    | [] => match place with
      | .bare | .document => return []
      | .quoted => fail .openQuote
      | .braces _ => fail .openBrace
      | .expression => fail .openExpression
    | '\\' :: '\n' :: _ => do pass 2; readParts place fuel level
    | '\\' :: c :: _ =>
      if !quoted then keep 2 (.text [c] true) level
      else if c == '$' || c == '\x60' || c == '\\' || (c == '"' && place != .document) ||
          (c == '\x7d' && place == .braces true) then
        keep 2 (.text [c] true) level
      else keep 1 (.text ['\\'] true) level
    | '\'' :: rest =>
      if quoted then keep 1 (.text ['\''] true) level
      else do
        let cs := rest.takeWhile (· != '\'')
        if cs.length == rest.length then fail .openQuote
        keep (cs.length + 2) (.text cs true) level
    | '"' :: _ =>
      if place == .document then keep 1 (.text ['"'] true) level
      else if place == .quoted then return []
      else if place == .expression then do pass 1; readParts place fuel level
      else do
        pass 1
        let inner ← readParts .quoted fuel 0
        pass 1
        return quotedParts inner ++ (← readParts place fuel level)
    | '$' :: _ => do
      pass 1
      match ← readDollar fuel quoted with
      | some part => return part :: (← readParts place fuel level)
      | none => return .text ['$'] quoted :: (← readParts place fuel level)
    | '\x60' :: rest => do
      match backquoted? quoted rest with
      | none => fail .openBackquote
      | some (cs, n) =>
        let body ← within cs (readList fuel false true)
        keep (n + 1) (.output body quoted) level
    | c :: rest => match place with
      | .bare => if endsWord c then return [] else keep 1 (.text [c] false) level
      | .braces _ => if c == '\x7d' then return [] else keep 1 (.text [c] quoted) level
      | .expression =>
        if c == '(' then keep 1 (.text [c] true) (level + 1)
        else if c == ')' then
          if level == 0 then (if rest.head? == some ')' then return [] else fail .openExpression)
          else keep 1 (.text [c] true) (level - 1)
        else keep 1 (.text [c] true) level
      | _ => keep 1 (.text [c] true) level

/-- Reads what follows a dollar sign; there is nothing if it stands for itself. -/
def readDollar : (fuel : Nat) → (quoted : Bool) → Reader (Option WordPart)
  | 0, _ => return none
  | fuel + 1, quoted => do
    match ← ahead with
    | '(' :: '(' :: _ => do
      pass 2
      let expression ← readParts .expression fuel 0
      pass 2
      return some (.arithmetic expression quoted)
    | '(' :: _ => do
      pass 1
      let body ← readList fuel false true
      let t ← nextToken fuel
      match t with
      | .operator ")" => return some (.output body quoted)
      | t => unexpected t (some "\")\"")
    | '\x7b' :: '#' :: rest =>
      let name := nameAhead rest
      if !name.isEmpty && (rest.drop name.length).head? == some '\x7d' then do
        pass (name.length + 3)
        return some (.length (String.ofList name) quoted)
      else do
        pass 1
        some <$> readBraces fuel quoted
    | '\x7b' :: _ => do
      pass 1
      some <$> readBraces fuel quoted
    | c :: rest =>
      if isNameStart c then do
        let name := (c :: rest).takeWhile isNameChar
        pass name.length
        return some (.parameter (String.ofList name) quoted)
      else if c.isDigit || "?$!#@*-".toList.contains c then do
        pass 1
        return some (.parameter (String.singleton c) quoted)
      else return none
    | [] => return none

/-- Reads a parameter in braces, behind the opening one. -/
def readBraces : (fuel : Nat) → (quoted : Bool) → Reader WordPart
  | 0, _ => return .faulty
  | fuel + 1, quoted => do
    let name := nameAhead (← ahead)
    pass name.length
    match ruleAhead (← ahead) with
    | some (rule, emptyToo, n) =>
      if name.isEmpty then skipBraces fuel
      else do
        pass n
        let patterns := match rule with
          | .withoutStart _ | .withoutEnd _ => true
          | _ => false
        let word ← readParts (.braces (quoted && !patterns)) fuel 0
        pass 1
        return .ruled (String.ofList name) emptyToo rule (joined word) quoted
    | none =>
      if (← ahead).head? == some '\x7d' && !name.isEmpty then do
        pass 1
        return .parameter (String.ofList name) quoted
      else skipBraces fuel

/-- Passes over a use of a parameter that nobody understands, to its closing brace. -/
def skipBraces : (fuel : Nat) → Reader WordPart
  | 0 => return .faulty
  | fuel + 1 => do
    let _ ← readParts (.braces false) fuel 0
    pass 1
    return .faulty

/-- Reads the next token. -/
def nextToken : (fuel : Nat) → Reader Token
  | 0 => return .ending
  | fuel + 1 => do
    match (← get).pushed with
    | some t => do
      modify fun s => { s with pushed := none }
      return t
    | none =>
      skipBlanks ((← ahead).length + 1)
      let cs ← ahead
      match cs with
      | [] => return .ending
      | '\n' :: _ => do
        pass 1
        return .newline
      | c :: rest =>
        match operatorAhead cs with
        | some text => do
          pass text.length
          return .operator text
        | none => match redirectAhead cs with
          | some text => do
            pass text.length
            return .redirect none text
          | none => match (if c.isDigit then redirectAhead rest else none) with
            | some text => do
              pass (text.length + 1)
              return .redirect (some (c.toNat - 48)) text
            | none => return .word (joined (← readParts .bare fuel 0))

/-- Reads the target of a redirection. -/
def readRedirect : (fuel : Nat) → Option Nat → String → Reader Redirect
  | 0, _, _ => return .toFile 1 false []
  | fuel + 1, number, operator => do
    let t ← nextToken fuel
    match t with
    | .word w =>
      let output := number.getD 1
      let input := number.getD 0
      match operator with
      | ">" | ">|" => return .toFile output false w
      | ">>" => return .toFile output true w
      | ">&" => return .duplicate output w
      | "<&" => return .duplicate input w
      | "<>" => return .toFile input true w
      | "<" => return .fromFile input w
      | operator => do
        let (delimiter, quoted) := writtenText w
        let text ← cutDocument (operator == "<<-") delimiter
        if quoted then return .document input [.text text true]
        else return .document input (← within text (readParts .document fuel 0))
    | t => unexpected t none false

/-- Reads redirections as long as there are some. -/
def readRedirects : (fuel : Nat) → Reader (List Redirect)
  | 0 => return []
  | fuel + 1 => do
    match ← nextToken fuel with
    | .redirect number operator => do
      let r ← readRedirect fuel number operator
      return r :: (← readRedirects fuel)
    | t => do
      putBack t
      return []

/-- Reads a token, passing over line ends. -/
def nextBeyondLines : (fuel : Nat) → Reader Token
  | 0 => return .ending
  | fuel + 1 => do
    match ← nextToken fuel with
    | .newline => nextBeyondLines fuel
    | t => return t

/-- Reads the rest of a simple command. -/
def readSimple (line : Nat) : (fuel : Nat) → List (String × Word) → List Word → List Redirect →
    Reader Command
  | 0, assignments, words, redirects => return .simple line assignments words redirects
  | fuel + 1, assignments, words, redirects => do
    match ← nextToken fuel with
    | .word w =>
      match (if words.isEmpty then assignment? w else none) with
      | some a => readSimple line fuel (assignments ++ [a]) words redirects
      | none => readSimple line fuel assignments (words ++ [w]) redirects
    | .redirect number operator => do
      let r ← readRedirect fuel number operator
      readSimple line fuel assignments words (redirects ++ [r])
    | .operator "(" =>
      match assignments, words, redirects with
      | [], [w], [] => do
        match ← nextToken fuel with
        | .operator ")" => do
          let (name, quoted) := writtenText w
          if quoted || !isName name || specialNames.contains name then fail .badFunctionName
          let line := (← get).line
          putBack (← nextBeyondLines fuel)
          return .define line name (← readCommand fuel)
        | t => unexpected t (some "\")\"") false
      | _, _, _ => do
        putBack (.operator "(")
        return .simple line assignments words redirects
    | t => do
      putBack t
      return .simple line assignments words redirects
where
  /-- The names that no function can have. -/
  specialNames : List String :=
    [".", ":", "break", "continue", "eval", "exec", "exit", "export", "readonly", "return", "set", "shift",
      "times", "trap", "unset"]

/-- Makes sure that a word with a meaning comes next. -/
def expectKeyword : (fuel : Nat) → String → Reader Unit
  | 0, _ => return ()
  | fuel + 1, k => do
    let t ← nextToken fuel
    if keyword? t != some k then unexpected t (some ("\"" ++ k ++ "\""))

/-- Reads a choice behind its first word. -/
def readChoice : (fuel : Nat) → Reader (List Statement × List Statement × List Statement)
  | 0 => return ([], [], [])
  | fuel + 1 => do
    let condition ← readList fuel false false
    expectKeyword fuel "then"
    let yes ← readList fuel false false
    let t ← nextToken fuel
    match keyword? t with
    | some "elif" => do
      let (c, y, n) ← readChoice fuel
      return (condition, yes, [.chain [(.always, false, [.choice c y n []])] false])
    | some "else" => do
      let no ← readList fuel false false
      return (condition, yes, no)
    | _ => do
      putBack t
      return (condition, yes, [])

/-- Reads words up to the end of a list of them. -/
def readWords : (fuel : Nat) → Reader (List Word)
  | 0 => return []
  | fuel + 1 => do
    match ← nextToken fuel with
    | .word w => return w :: (← readWords fuel)
    | .newline | .operator ";" => return []
    | t => unexpected t none false

/-- Reads the patterns of a branch. -/
def readPatterns : (fuel : Nat) → Token → Reader (List Word)
  | 0, _ => return []
  | fuel + 1, t => do
    let pattern : Word := match t with
      | .word w => w
      | .operator text => [.text text.toList false]
      | _ => []
    match ← nextToken fuel with
    | .operator "|" => return pattern :: (← readPatterns fuel (← nextToken fuel))
    | .operator ")" => return [pattern]
    | t => unexpected t (some "\")\"")

/-- Reads the branches of a choice by patterns, to its last word. -/
def readBranches : (fuel : Nat) → Reader (List (List Word × List Statement))
  | 0 => return []
  | fuel + 1 => do
    let t ← nextBeyondLines fuel
    if keyword? t == some "esac" then return []
    let t ← match t with
      | .operator "(" => nextToken fuel
      | t => pure t
    let patterns ← readPatterns fuel t
    let body ← readList fuel false true
    let t ← nextBeyondLines fuel
    if keyword? t == some "esac" then return [(patterns, body)]
    match t with
    | .operator ";;" => return (patterns, body) :: (← readBranches fuel)
    | t => unexpected t (some "\";;\"")

def readCommand : (fuel : Nat) → Reader Command
  | 0 => return .simple 0 [] [] []
  | fuel + 1 => do
    let line := (← get).line
    let t ← nextToken fuel
    match keyword? t with
    | some "if" => do
      let (condition, yes, no) ← readChoice fuel
      expectKeyword fuel "fi"
      return .choice condition yes no (← readRedirects fuel)
    | some "while" => do
      let (condition, body) ← readLoop fuel
      return .loop false condition body (← readRedirects fuel)
    | some "until" => do
      let (condition, body) ← readLoop fuel
      return .loop true condition body (← readRedirects fuel)
    | some "for" => do
      let name ← match ← nextToken fuel with
        | .word w => match plainText? w with
          | some name => if isName name then pure name else fail .badLoopVariable
          | none => fail .badLoopVariable
        | _ => fail .badLoopVariable
      let t ← nextBeyondLines fuel
      let words ← if keyword? t == some "in" then some <$> readWords fuel
        else do
          match t with
          | .operator ";" => pure ()
          | t => putBack t
          pure none
      let t ← nextBeyondLines fuel
      if keyword? t != some "do" then unexpected t (some "\"do\"")
      let body ← readList fuel false false
      expectKeyword fuel "done"
      return .each line name words body (← readRedirects fuel)
    | some "case" => do
      let t ← nextToken fuel
      match t with
      | .word w => do
        let t ← nextBeyondLines fuel
        if keyword? t != some "in" then unexpected t (some "\"in\"")
        let branches ← readBranches fuel
        return .cases line w branches (← readRedirects fuel)
      | t => unexpected t (some "word") false
    | some "\x7b" => do
      let body ← readList fuel false false
      expectKeyword fuel "\x7d"
      return .group body (← readRedirects fuel)
    | some _ => unexpected t none
    | none => match t with
      | .operator "(" => do
        let body ← readList fuel false false
        match ← nextToken fuel with
        | .operator ")" => return .subshell body (← readRedirects fuel)
        | t => unexpected t (some "\")\"")
      | .word _ | .redirect .. => do
        putBack t
        readSimple line fuel [] [] []
      | t => unexpected t none

/-- Reads the condition and the body of a loop. -/
def readLoop : (fuel : Nat) → Reader (List Statement × List Statement)
  | 0 => return ([], [])
  | fuel + 1 => do
    let condition ← readList fuel false false
    expectKeyword fuel "do"
    let body ← readList fuel false false
    expectKeyword fuel "done"
    return (condition, body)

/-- Reads the commands of a pipeline. -/
def readCommands : (fuel : Nat) → Reader (List Command)
  | 0 => return []
  | fuel + 1 => do
    let c ← readCommand fuel
    match ← nextToken fuel with
    | .operator "|" => do
      putBack (← nextBeyondLines fuel)
      return c :: (← readCommands fuel)
    | t => do
      putBack t
      return [c]

/-- Reads a chain of pipelines, of which the first has the joint. -/
def readChain : (fuel : Nat) → Joint → Reader (List (Joint × Bool × List Command))
  | 0, _ => return []
  | fuel + 1, joint => do
    let t ← nextToken fuel
    let negated := keyword? t == some "!"
    if !negated then putBack t
    let commands ← readCommands fuel
    match ← nextToken fuel with
    | .operator "&&" => do
      putBack (← nextBeyondLines fuel)
      return (joint, negated, commands) :: (← readChain fuel .andThen)
    | .operator "||" => do
      putBack (← nextBeyondLines fuel)
      return (joint, negated, commands) :: (← readChain fuel .orElse)
    | t => do
      putBack t
      return [(joint, negated, commands)]

/-- Reads statements: those of one line (`oneLine`), or all up to a token that ends them, of which
there may be none at all (`mayEnd`). -/
def readList : (fuel : Nat) → (oneLine mayEnd : Bool) → Reader (List Statement)
  | 0, _, _ => return []
  | fuel + 1, oneLine, mayEnd => do
    let t ← if oneLine then nextToken fuel else nextBeyondLines fuel
    match t with
    | .newline => return []
    | .ending => do
      putBack t
      return []
    | t => do
      if mayEnd && endsList t then
        if oneLine then unexpected t none
        putBack t
        return []
      putBack t
      let pipelines ← readChain fuel .always
      let t ← nextToken fuel
      let (background, t) ← match t with
        | .operator "&" => do pure (true, Token.operator ";")
        | t => pure (false, t)
      let statement := Statement.chain pipelines background
      match t with
      | .operator ";" => return statement :: (← readList fuel oneLine true)
      | .newline | .ending => do
        putBack t
        return statement :: (← readList fuel oneLine true)
      | t => do
        if oneLine then unexpected t none
        putBack t
        return [statement]
where
  /-- Whether a token ends a list of statements. -/
  endsList (t : Token) : Bool :=
    match t with
    | .ending | .operator ")" | .operator ";;" => true
    | t => match keyword? t with
      | some k => ["do", "done", "elif", "else", "esac", "fi", "then", "\x7d"].contains k
      | none => false

end

end Reader

/-- Reads the statements of the next line, and answers with the source behind it. There are none at the
end of the text. -/
def readLine? (s : Source) : Except (Nat × SyntaxFault) (Option (List Statement × Source)) :=
  match (Reader.skipBlanks (s.rest.length + 1)).run s with
  | .error e => .error e
  | .ok (_, s) =>
    if s.rest.isEmpty && s.pushed.isNone then .ok none
    else match (Reader.readList (4 * s.rest.length + 16) true false).run s with
      | .error e => .error e
      | .ok (statements, s) => .ok (some (statements, { s with pushed := match s.pushed with
          | some .ending => none
          | t => t }))

end ScriptYard.Shell
