import ScriptYard.Number.Power

/-!
# The language of a shell

A shell reads statements. A `Statement` is a chain of pipelines, each of which may depend on how the
one before it ended; a pipeline is a row of commands of which each reads what the one before it writes;
a `Command` is a program with its arguments, a group, a choice, a loop or the definition of a function.
Words are lists of pieces (`WordPart`), and what they stand for is decided when a command runs.
-/

namespace ScriptYard.Shell

/-- What stands for the value of a parameter instead. -/
inductive ValueRule where
  /-- A word, where there is no value. -/
  | default
  /-- A word that becomes the value, where there is none. -/
  | assign
  /-- Nothing: without a value the shell ends, and the word says why. -/
  | require
  /-- A word, where there is a value. -/
  | alternative
  /-- The value without what a pattern matches at its start. -/
  | withoutStart (longest : Bool)
  /-- The value without what a pattern matches at its end. -/
  | withoutEnd (longest : Bool)
deriving DecidableEq, Repr

/-- How a pipeline depends on what ran before. -/
inductive Joint where
  /-- Not at all. -/
  | always
  /-- It runs after a success. -/
  | andThen
  /-- It runs after a failure. -/
  | orElse
deriving DecidableEq, Repr

mutual

/-- A piece of a word. What stands in quotes is not split into words and holds no patterns. -/
inductive WordPart where
  /-- Characters that stand for themselves. -/
  | text (cs : List Char) (quoted : Bool)
  /-- The value of a parameter. -/
  | parameter (name : String) (quoted : Bool)
  /-- The length of the value of a parameter. -/
  | length (name : String) (quoted : Bool)
  /-- What a rule puts in the place of a value; an empty value may count as none. -/
  | ruled (name : String) (emptyToo : Bool) (rule : ValueRule) (word : List WordPart) (quoted : Bool)
  /-- What statements write. -/
  | output (body : List Statement) (quoted : Bool)
  /-- The value of an expression. -/
  | arithmetic (expression : List WordPart) (quoted : Bool)
  /-- A parameter whose use nobody understands. -/
  | faulty

/-- Where output of a number goes, or input comes from, instead. -/
inductive Redirect where
  /-- To a file, which is emptied before unless the output goes behind what it holds. -/
  | toFile (number : Nat) (append : Bool) (path : List WordPart)
  | fromFile (number : Nat) (path : List WordPart)
  /-- Where that of another number goes; a dash closes it. -/
  | duplicate (number : Nat) (source : List WordPart)
  | document (number : Nat) (text : List WordPart)

inductive Command where
  /-- Variables that are set, and words of which the first names a program. -/
  | simple (line : Nat) (assignments : List (String × List WordPart)) (words : List (List WordPart))
    (redirects : List Redirect)
  /-- Statements that run together. -/
  | group (body : List Statement) (redirects : List Redirect)
  /-- Statements that run in a shell of their own. -/
  | subshell (body : List Statement) (redirects : List Redirect)
  /-- A choice between statements by how a condition ends. -/
  | choice (condition yes no : List Statement) (redirects : List Redirect)
  /-- Statements that are repeated as long as a condition succeeds, or fails. -/
  | loop (untilSuccess : Bool) (condition body : List Statement) (redirects : List Redirect)
  /-- Statements that are repeated for each of some words, or of the arguments. -/
  | each (line : Nat) (name : String) (words : Option (List (List WordPart))) (body : List Statement)
    (redirects : List Redirect)
  /-- A choice between statements by which patterns a word matches. -/
  | cases (line : Nat) (word : List WordPart) (branches : List (List (List WordPart) × List Statement))
    (redirects : List Redirect)
  /-- The definition of a function. -/
  | define (line : Nat) (name : String) (body : Command)

/-- Pipelines, each with its joint and whether success and failure change places, and whether the shell
goes on before they end. -/
inductive Statement where
  | chain (pipelines : List (Joint × Bool × List Command)) (background : Bool)

end

abbrev Word : Type := List WordPart

/-- The text of a word without quotes, in which all characters stand for themselves. -/
def plainText? (w : Word) : Option String :=
  let texts := w.map fun part => match part with
    | .text cs false => some cs
    | _ => none
  if w.isEmpty || texts.contains none then none
  else some (String.ofList (texts.filterMap id).flatten)

/-- The text of a word whose characters stand for themselves, and whether quotes are in it. -/
def writtenText (w : Word) : String × Bool :=
  w.foldl (fun (text, quoted) part => match part with
    | .text cs q => (text ++ String.ofList cs, quoted || q)
    | .parameter name q => (text ++ "$" ++ name, quoted || q)
    | _ => (text, quoted)) ("", false)

/-- The characters of names. -/
def isNameChar (c : Char) : Bool := c.isAlphanum || c == '_'

/-- The characters that names start with. -/
def isNameStart (c : Char) : Bool := c.isAlpha || c == '_'

def isName (text : String) : Bool :=
  match text.toList with
  | c :: cs => isNameStart c && cs.all isNameChar
  | [] => false

/-- The name and the value of a word that sets a variable. -/
def assignment? : Word → Option (String × Word)
  | .text cs false :: rest =>
    let name := cs.takeWhile (· != '=')
    let value := cs.drop (name.length + 1)
    if name.length < cs.length && isName (String.ofList name) then
      some (String.ofList name, if value.isEmpty then rest else .text value false :: rest)
    else none
  | _ => none

end ScriptYard.Shell
