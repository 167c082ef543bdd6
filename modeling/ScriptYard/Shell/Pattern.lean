import ScriptYard.Files.Tree

/-!
# Patterns for texts and names of files

A pattern is a text in which a star stands for any characters, a question mark for any one, and
brackets for one of a set. Its characters come with a mark that tells which of them stand for
themselves in any case (`Marked`).
-/

namespace ScriptYard.Shell

/-- Characters, each with whether it stands for itself in any case. -/
abbrev Marked : Type := List (Char × Bool)

/-- The characters without their marks. -/
def unmarked (cs : Marked) : String := String.ofList (cs.map (·.1))

inductive PatternPart where
  /-- A character. -/
  | one (c : Char)
  /-- Any character. -/
  | any
  /-- Any characters. -/
  | many
  /-- A character of some ranges and classes, or one that is of none. -/
  | set (negated : Bool) (ranges : List (Char × Char)) (classes : List String)
deriving DecidableEq, Repr

abbrev Pattern : Type := List PatternPart

namespace Pattern

/-- Whether a character is of the class of a name. -/
def isOfClass (name : String) (c : Char) : Bool :=
  match name with
  | "alpha" => c.isAlpha
  | "digit" => c.isDigit
  | "alnum" => c.isAlphanum
  | "upper" => c.isUpper
  | "lower" => c.isLower
  | "space" => c == ' ' || ('\x09' ≤ c && c ≤ '\x0d')
  | "blank" => c == ' ' || c == '\t'
  | "punct" => '!' ≤ c && c ≤ '~' && !c.isAlphanum
  | "xdigit" => c.isDigit || ('a' ≤ c.toLower && c.toLower ≤ 'f')
  | "cntrl" => c < ' ' || c == '\x7f'
  | "graph" => '!' ≤ c && c ≤ '~'
  | "print" => ' ' ≤ c && c ≤ '~'
  | _ => false

/-- The contents of brackets behind the opening one, and what follows the closing one; none if they are
not closed. A closing bracket in the first place belongs to the set. -/
def readSet? : (fuel : Nat) → (first : Bool) → Marked →
    Option (List (Char × Char) × List String × Marked)
  | 0, _, _ => none
  | _, _, [] => none
  | fuel + 1, first, (c, literal) :: rest =>
    if c == ']' && !literal && !first then some ([], [], rest)
    else match c, rest with
      | '[', (':', false) :: more =>
        let name := more.takeWhile (fun m => m.1 != ':')
        match more.drop name.length with
        | _ :: (']', _) :: behind => do
          let (ranges, classes, left) ← readSet? fuel false behind
          return (ranges, unmarked name :: classes, left)
        | _ => do
          let (ranges, classes, left) ← readSet? fuel false rest
          return ((c, c) :: ranges, classes, left)
      | _, ('-', false) :: (d, dLiteral) :: more =>
        if d == ']' && !dLiteral then do
          let (ranges, classes, left) ← readSet? fuel false rest
          return ((c, c) :: ranges, classes, left)
        else do
          let (ranges, classes, left) ← readSet? fuel false more
          return ((c, d) :: ranges, classes, left)
      | _, _ => do
        let (ranges, classes, left) ← readSet? fuel false rest
        return ((c, c) :: ranges, classes, left)

/-- The pattern that characters write; `fuel` bounds their count. -/
def read : (fuel : Nat) → Marked → Pattern
  | 0, _ => []
  | _, [] => []
  | fuel + 1, (c, literal) :: rest =>
    if literal then .one c :: read fuel rest
    else match c with
      | '*' => .many :: read fuel rest
      | '?' => .any :: read fuel rest
      | '\\' => match rest with
        | (d, _) :: more => .one d :: read fuel more
        | [] => [.one c]
      | '[' =>
        let (negated, inside) := match rest with
          | ('!', false) :: more => (true, more)
          | ('^', false) :: more => (true, more)
          | _ => (false, rest)
        match readSet? (inside.length + 1) true inside with
        | some (ranges, classes, left) => .set negated ranges classes :: read fuel left
        | none => .one c :: read fuel rest
      | c => .one c :: read fuel rest

/-- The pattern of marked characters. -/
def ofMarked (cs : Marked) : Pattern := read (cs.length + 1) cs

/-- Whether a part matches a character. -/
def accepts (p : PatternPart) (c : Char) : Bool :=
  match p with
  | .one d => c == d
  | .any | .many => true
  | .set negated ranges classes =>
    (ranges.any (fun r => r.1 ≤ c && c ≤ r.2) || classes.any (fun name => isOfClass name c)) != negated

/-- Whether a pattern matches a whole text. -/
def isMatch : Pattern → List Char → Bool
  | [], cs => cs.isEmpty
  | .many :: ps, [] => isMatch ps []
  | .many :: ps, c :: cs => isMatch ps (c :: cs) || isMatch (.many :: ps) cs
  | _ :: _, [] => false
  | p :: ps, c :: cs => accepts p c && isMatch ps cs
termination_by ps cs => ps.length + cs.length

/-- A text without the shortest or the longest start that a pattern matches. -/
def removeStart (p : Pattern) (longest : Bool) (cs : List Char) : List Char :=
  let cuts := List.range (cs.length + 1)
  let cuts := if longest then cuts.reverse else cuts
  match cuts.find? (fun n => p.isMatch (cs.take n)) with
  | some n => cs.drop n
  | none => cs

/-- A text without the shortest or the longest end that a pattern matches. -/
def removeEnd (p : Pattern) (longest : Bool) (cs : List Char) : List Char :=
  let cuts := List.range (cs.length + 1)
  let cuts := if longest then cuts else cuts.reverse
  match cuts.find? (fun n => p.isMatch (cs.drop n)) with
  | some n => cs.take n
  | none => cs

/-! ### Names of files -/

/-- Whether marked characters hold one that does not stand for itself. -/
def hasWildcards (cs : Marked) : Bool :=
  cs.any fun (c, literal) => !literal && (c == '*' || c == '?' || c == '[')

/-- The parts of marked characters between slashes. -/
def splitPath (cs : Marked) : List Marked :=
  cs.foldr (fun m parts =>
    if m.1 == '/' then [] :: parts
    else match parts with
      | part :: rest => (m :: part) :: rest
      | [] => [[m]]) [[]]

/-- The paths that the parts of a pattern match from a path on. A leading dot is only matched by itself. -/
def expandParts (files : FileTree) : (before : String) → List Marked → List String
  | before, [] => [before]
  | before, [part] => step before part
  | before, part :: rest => (step before part).flatMap fun path =>
      if hasWildcards part && !files.isDirectory path then [] else expandParts files (path ++ "/") rest
where
  /-- The paths that one part of a pattern matches behind a path. -/
  step (before : String) (part : Marked) : List String :=
    if !hasWildcards part then [before ++ unmarked part]
    else match files.locate (if before.isEmpty then "." else before) with
      | .ok (place, .directory) =>
        let pattern := ofMarked part
        let names := files.namesIn place
        let names := if (part.head?.map (·.1)) == some '.' then [".", ".."] ++ names
          else names.filter (fun n => !n.startsWith ".")
        (names.filter (fun n => pattern.isMatch n.toList)).map (before ++ ·)
      | _ => []

/-- The paths of files that marked characters match; they stand for themselves if there are none. -/
def paths (files : FileTree) (cs : Marked) : List String :=
  if !hasWildcards cs then [unmarked cs]
  else match (expandParts files "" (splitPath cs)).filter files.holds with
    | [] => [unmarked cs]
    | found => found

end Pattern

end ScriptYard.Shell
