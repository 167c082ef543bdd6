import ScriptYard.Shell.Arithmetic
import ScriptYard.Shell.Pattern

/-!
# Regular expressions

Regular expressions as tools for text write them, in the basic and in the extended form. `Regex.read`
reads one, and `Regex.find?` finds the first place in a text that it matches. Among the matches that
start there the one is taken that repeats as often as it can, from left to right.
-/

namespace ScriptYard.Shell

/-- A regular expression. -/
inductive Regex where
  /-- Nothing. -/
  | empty
  /-- One character. -/
  | one (p : PatternPart)
  /-- The start of the text. -/
  | start
  /-- The end of the text. -/
  | finish
  /-- One behind the other. -/
  | seq (a b : Regex)
  /-- One or the other. -/
  | either (a b : Regex)
  /-- One repeated as often as bounds allow. -/
  | many (low : Nat) (high : Option Nat) (r : Regex)
  /-- One whose match is remembered by a number. -/
  | group (n : Nat) (r : Regex)
  /-- What the group of a number has matched. -/
  | same (n : Nat)
deriving Repr

namespace Regex

/-! ### Reading -/

/-- A token of a regular expression. -/
inductive Token where
  | one (p : PatternPart)
  | start | finish | opening | closing | bar
  | many (low : Nat) (high : Option Nat)
  | same (n : Nat)
deriving DecidableEq

/-- Why a text is no regular expression. -/
inductive Fault where
  | openBracket | openGroup | closedGroup | openBounds | badBounds | badReference | badClass | badRange
  | lastBackslash
deriving DecidableEq, Repr

/-- The text of the fault. -/
def Fault.message : Fault → String
  | .openBracket => "Unmatched [, [^, [:, [., or [="
  | .openGroup => "Unmatched ( or \\("
  | .closedGroup => "Unmatched ) or \\)"
  | .openBounds => "Unmatched \\\x7b"
  | .badBounds => "Invalid content of \\\x7b\\\x7d"
  | .badReference => "Invalid back reference"
  | .badClass => "Invalid character class name"
  | .badRange => "Invalid range end"
  | .lastBackslash => "Trailing backslash"

/-- The bounds of a repetition behind the opening brace, and the rest behind the closing one. -/
def bounds (extended : Bool) (cs : List Char) : Except Fault ((Nat × Option Nat) × List Char) :=
  let low := cs.takeWhile Char.isDigit
  let rest := cs.drop low.length
  let (comma, rest) := match rest with
    | ',' :: rest => (true, rest)
    | rest => (false, rest)
  let high := if comma then rest.takeWhile Char.isDigit else []
  let n := valueOfDigits 10 low
  let most := if !comma then some n else if high.isEmpty then none else some (valueOfDigits 10 high)
  let close? : Option (List Char) := match extended, rest.drop high.length with
    | true, '\x7d' :: rest => some rest
    | false, '\\' :: '\x7d' :: rest => some rest
    | _, _ => none
  match close? with
  | none => .error (if cs.contains '\x7d' then .badBounds else .openBounds)
  | some rest =>
    if (low.isEmpty && !comma) || most.any (· < n) then .error .badBounds else .ok ((n, most), rest)

/-- The set of characters that a letter behind a backslash stands for. -/
def letterSet? : Char → Option PatternPart
  | 'w' => some (.set false [('_', '_')] ["alnum"])
  | 'W' => some (.set true [('_', '_')] ["alnum"])
  | 's' => some (.set false [] ["space"])
  | 'S' => some (.set true [] ["space"])
  | _ => none

/-- The names of classes of characters. -/
def classNames : List String :=
  ["alnum", "alpha", "blank", "cntrl", "digit", "graph", "lower", "print", "punct", "space", "upper", "xdigit"]

/-- The set of characters behind an opening bracket, and the rest behind the closing one. -/
def readBrackets (fold : Bool) (cs : List Char) : Except Fault (PatternPart × List Char) :=
  let (negated, inside) := match cs with
    | '^' :: more => (true, more)
    | cs => (false, cs)
  match Pattern.readSet? (inside.length + 1) true (inside.map (·, false)) with
  | none => .error .openBracket
  | some (ranges, classes, left) =>
    if ranges.any (fun r => r.2 < r.1) then .error .badRange
    else if classes.any (fun name => !classNames.contains name) then .error .badClass
    else
      let ranges := if fold then ranges ++ ranges.map (fun r => (r.1.toLower, r.2.toLower)) ++
        ranges.map (fun r => (r.1.toUpper, r.2.toUpper)) else ranges
      .ok (.set negated ranges classes, left.map (·.1))

/-- The part that matches a character, or both cases of a letter. -/
def letter (fold : Bool) (c : Char) : PatternPart :=
  if fold && c.isAlpha then .set false [(c.toLower, c.toLower), (c.toUpper, c.toUpper)] [] else .one c

/-- The operator that a character is behind a backslash in the basic form, and without one in the
extended form. -/
def operator? : Char → Option Token
  | '(' => some .opening
  | ')' => some .closing
  | '|' => some .bar
  | '+' => some (.many 1 none)
  | '?' => some (.many 0 (some 1))
  | _ => none

/-- The tokens of a text; `first` tells whether nothing stands in front that could be repeated. -/
def tokens (extended fold : Bool) : (fuel : Nat) → (first : Bool) → List Char → Except Fault (List Token)
  | 0, _, _ => .ok []
  | _, _, [] => .ok []
  | fuel + 1, first, c :: rest =>
    let go (t : Token) (rest : List Char) : Except Fault (List Token) := do
      return t :: (← tokens extended fold fuel (t == .opening || t == .bar || t == .start) rest)
    let interval (rest : List Char) : Except Fault (List Token) := do
      let ((low, high), rest) ← bounds extended rest
      go (.many low high) rest
    match c, rest with
    | '[', rest => do
      let (part, rest) ← readBrackets fold rest
      go (.one part) rest
    | '.', rest => go (.one .any) rest
    | '\\', [] => .error .lastBackslash
    | '\\', d :: rest =>
      if d.isDigit && d != '0' then go (.same (d.toNat - 48)) rest
      else match letterSet? d, (if extended then none else operator? d) with
        | some p, _ => go (.one p) rest
        | none, some t => go t rest
        | none, none =>
          if d == '\x7b' && !extended then interval rest
          else if d == 'n' then go (.one (.one '\n')) rest
          else go (.one (letter fold d)) rest
    | '*', rest => if first then go (.one (.one '*')) rest else go (.many 0 none) rest
    | '^', rest => go (if extended || first then .start else .one (.one '^')) rest
    | '$', rest =>
      let last := rest.isEmpty || rest.take 2 == ['\\', ')'] || rest.take 2 == ['\\', '|']
      go (if extended || last then .finish else .one (.one '$')) rest
    | c, rest =>
      match (if extended then operator? c else none) with
      | some t => go t rest
      | none =>
        if c == '\x7b' && extended then
          match bounds true rest with
          | .ok _ => interval rest
          | .error .badBounds =>
            if rest.head?.any Char.isDigit then .error .badBounds else go (.one (.one c)) rest
          | .error _ => go (.one (.one c)) rest
        else go (.one (letter fold c)) rest

/-- The repetitions that follow an expression, and the rest. -/
def repeated : Regex → List Token → Regex × List Token
  | r, .many low high :: rest => repeated (.many low high r) rest
  | r, rest => (r, rest)

/-- An expression, the number of the next group, and the tokens behind it. -/
abbrev Step : Type := Except Fault (Regex × Nat × List Token)

mutual

/-- Reads alternatives; the number is that of the next group. -/
def readEither (loose : Bool) : (fuel : Nat) → (next : Nat) → List Token → Step
  | 0, next, ts => .ok (.empty, next, ts)
  | fuel + 1, next, ts => do
    let (a, next, rest) ← readSequence loose fuel next ts
    match rest with
    | .bar :: rest => do
      let (b, next, rest) ← readEither loose fuel next rest
      return (.either a b, next, rest)
    | rest => return (a, next, rest)

/-- Reads a sequence. Where `loose` holds a parenthesis that closes nothing stands for itself. -/
def readSequence (loose : Bool) : (fuel : Nat) → (next : Nat) → List Token → Step
  | 0, next, ts => .ok (.empty, next, ts)
  | fuel + 1, next, ts => do
    let behind (r : Regex) (next : Nat) (rest : List Token) : Step := do
      let (r, rest) := repeated r rest
      let (s, next, rest) ← readSequence loose fuel next rest
      return (.seq r s, next, rest)
    match ts with
    | [] | .bar :: _ => return (.empty, next, ts)
    | .closing :: rest => if loose then behind (.one (.one ')')) next rest else return (.empty, next, ts)
    | .one p :: rest => behind (.one p) next rest
    | .start :: rest => behind .start next rest
    | .finish :: rest => behind .finish next rest
    | .many _ _ :: rest => behind .empty next rest
    | .same n :: rest => if n < next then behind (.same n) next rest else throw .badReference
    | .opening :: rest => do
      match ← readEither false fuel (next + 1) rest with
      | (r, after, .closing :: rest) => behind (.group next r) after rest
      | _ => throw .openGroup

end

/-- The regular expression of a text, whose letters may count as the same in both cases, and how many
groups it has. -/
def read (extended fold loose : Bool) (text : String) : Except Fault (Regex × Nat) := do
  let ts ← tokens extended fold (text.length + 1) true text.toList
  match ← readEither (loose && extended) (2 * ts.length + 4) 1 ts with
  | (r, next, []) => return (r, next - 1)
  | _ => throw .closedGroup

/-! ### Matching -/

/-- How far a match has come. -/
structure Progress where
  /-- Whether nothing of the text is in front. -/
  atStart : Bool
  /-- What is left of the text. -/
  rest : List Char
  /-- The matches of groups, the last one first. -/
  groups : List (Nat × List Char) := []

/-- The progress behind some characters. -/
def Progress.pass (p : Progress) (n : Nat) : Progress :=
  if n == 0 then p else { p with atStart := false, rest := p.rest.drop n }

/-- A match continued until it is complete. -/
abbrev Continuation : Type := Progress → Option Progress

/-- Repeats a step as often as bounds allow, but not where it gets no further. -/
def repeatStep (step : Progress → Continuation → Option Progress) :
    (fuel low : Nat) → Option Nat → Progress → Continuation → Option Progress
  | 0, _, _, p, k => k p
  | fuel + 1, low, high, p, k =>
    let again : Option Progress :=
      if high == some 0 then none
      else step p fun q =>
        if q.rest.length == p.rest.length && low == 0 then none
        else repeatStep step fuel (low - 1) (high.map (· - 1)) q k
    again.or (if low == 0 then k p else none)

/-- Matches an expression, and then what follows it. -/
def advance : Regex → Progress → Continuation → Option Progress
  | .empty, p, k => k p
  | .one part, p, k => match p.rest with
    | c :: _ => if Pattern.accepts part c then k (p.pass 1) else none
    | [] => none
  | .start, p, k => if p.atStart then k p else none
  | .finish, p, k => if p.rest.isEmpty then k p else none
  | .seq a b, p, k => advance a p fun q => advance b q k
  | .either a b, p, k => (advance a p k).or (advance b p k)
  | .many low high r, p, k =>
    repeatStep (fun p k => advance r p k) (p.rest.length + low + 1) low high p k
  | .group n r, p, k => advance r p fun q =>
      k { q with groups := (n, p.rest.take (p.rest.length - q.rest.length)) :: q.groups }
  | .same n, p, k => match p.groups.lookup n with
    | some cs => if cs.isPrefixOf p.rest then k (p.pass cs.length) else none
    | none => none

/-- The match at the start of characters: its length, and the matches of groups. -/
def matchHere? (r : Regex) (atStart : Bool) (cs : List Char) : Option (Nat × List (Nat × List Char)) :=
  (r.advance { atStart := atStart, rest := cs } some).map fun p => (cs.length - p.rest.length, p.groups)

/-- The first match in characters: what stands in front of it, its length, and the matches of groups. -/
def find? (r : Regex) (atStart : Bool) : List Char → Option (List Char × Nat × List (Nat × List Char))
  | [] => (r.matchHere? atStart []).map fun (n, groups) => ([], n, groups)
  | c :: rest =>
    match r.matchHere? atStart (c :: rest) with
    | some (n, groups) => some ([], n, groups)
    | none => (find? r false rest).map fun (before, found) => (c :: before, found)

end Regex

end ScriptYard.Shell
