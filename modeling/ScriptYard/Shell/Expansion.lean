import ScriptYard.Shell.Arithmetic
import ScriptYard.Shell.Pattern
import ScriptYard.Shell.Session

/-!
# What words stand for

A word becomes a row of `Glyph`s: characters that know whether they were written plainly, stood in
quotes or came out of a value, with marks for empty quotes and for the gaps between arguments. From them
`fieldsOf` makes the arguments of a command, which values may be split into; `expandText` makes a text
where nothing is split.

What stands for the output of statements needs them to be run, so everything here takes the runner of
statements as an argument.
-/

namespace ScriptYard.Shell

/-- Where a character comes from. -/
inductive Origin where
  /-- It was written without quotes. -/
  | plain
  /-- It stands in quotes. -/
  | quoted
  /-- It comes out of a value. -/
  | value
deriving DecidableEq, Repr

/-- A part of what a word stands for. -/
inductive Glyph where
  /-- A character. -/
  | char (c : Char) (origin : Origin)
  /-- Quotes with nothing in them. -/
  | nothing
  /-- The gap between two arguments. -/
  | gap
deriving DecidableEq, Repr

def valueGlyphs (text : String) (quoted : Bool) : List Glyph :=
  text.toList.map fun c => .char c (if quoted then .quoted else .value)

/-- The text of glyphs, with blanks for gaps. -/
def glyphText (glyphs : List Glyph) : String :=
  String.ofList (glyphs.filterMap fun g => match g with
    | .char c _ => some c
    | .nothing => none
    | .gap => some ' ')

/-- The characters of glyphs, of which those in quotes stand for themselves in a pattern. -/
def glyphPattern (glyphs : List Glyph) : Marked :=
  glyphs.filterMap fun g => match g with
    | .char c origin => some (c, origin == .quoted)
    | .nothing => none
    | .gap => some (' ', false)

/-! ### Splitting -/

/-- A row of fields that is being made. -/
structure FieldRow where
  /-- The fields that are complete, the last one first. -/
  done : List Marked := []
  /-- The characters of the field that is open, the last one first. -/
  current : Marked := []
  /-- Whether a field is open, be it an empty one. -/
  isOpen : Bool := false
  /-- Whether a separator that is no blank only belongs to the blanks before it. -/
  absorbs : Bool := false

namespace FieldRow

/-- The row with the open field closed. -/
def close (r : FieldRow) (absorbs : Bool) : FieldRow :=
  if r.isOpen then { done := r.current.reverse :: r.done, absorbs := absorbs } else { r with absorbs := absorbs }

/-- The row with a character more. -/
def add (r : FieldRow) (c : Char) (literal : Bool) : FieldRow :=
  { r with current := (c, literal) :: r.current, isOpen := true, absorbs := false }

/-- The row behind one more glyph. -/
def step (separators : List Char) (r : FieldRow) : Glyph → FieldRow
  | .nothing => { r with isOpen := true, absorbs := false }
  | .gap => r.close false
  | .char c .plain => r.add c false
  | .char c .quoted => r.add c true
  | .char c .value =>
    if !separators.contains c then r.add c false
    else if c == ' ' || c == '\t' || c == '\n' then
      if r.isOpen then r.close true else r
    else if r.isOpen then r.close false
    else if r.absorbs then { r with absorbs := false }
    else { r with done := [] :: r.done }

end FieldRow

/-- The fields that glyphs are split into. -/
def fieldsOf (separators : List Char) (glyphs : List Glyph) : List Marked :=
  ((glyphs.foldl (FieldRow.step separators) {}).close false).done.reverse

/-! ### Parts of words -/

/-- The glyphs of arguments, with gaps between them. -/
def argumentGlyphs (args : List String) (quoted : Bool) : List Glyph :=
  (args.map fun a => (if quoted then [Glyph.nothing] else []) ++ valueGlyphs a quoted).intersperse [.gap]
    |>.flatten

/-- The glyphs of a parameter, which has to have a value if the shell asks for that. -/
def parameterGlyphs (name : String) (quoted : Bool) : Work (List Glyph) := do
  let s ← get
  if name == "@" || (name == "*" && !quoted) then return argumentGlyphs s.arguments quoted
  else match s.parameter? name with
    | some value => return valueGlyphs value quoted
    | none =>
      if s.options.contains 'u' && name != "*" then Work.fault (name ++ ": parameter not set")
      else return []

/-- Bytes as the text they stand for in a word: without line ends at the end. -/
def substitutedText (bytes : List UInt8) : String :=
  let bytes := (bytes.reverse.dropWhile (· == 10)).reverse
  decodeUtf8 (bytes.filter (· != 0))

/-- Computes an expression, and sets the variables that it assigns to. -/
def compute (text : String) : Work Int := do
  let s ← get
  let lookup (name : String) : Option String := s.parameter? name
  match (do (← Expression.read text).evaluate lookup []) with
  | .error f => Work.fault (f.message text)
  | .ok (i, assigned) => do
    for (name, value) in assigned.reverse do
      Work.assign name (toString value)
    return i

def expandPart (run : List Statement → Work Unit) (nested : Word → Work (List Glyph)) :
    WordPart → Work (List Glyph)
  | .text cs quoted =>
    return if cs.isEmpty then (if quoted then [.nothing] else [])
      else cs.map fun c => .char c (if quoted then .quoted else .plain)
  | .parameter name quoted => parameterGlyphs name quoted
  | .length name quoted => do
    let s ← get
    match s.parameter? name with
    | some value => return valueGlyphs (naturalText value.utf8ByteSize) quoted
    | none =>
      if s.options.contains 'u' && name != "@" && name != "*" then
        Work.fault (name ++ ": parameter not set")
      else return valueGlyphs "0" quoted
  | .ruled name emptyToo rule word quoted => do
    let s ← get
    let value? := s.parameter? name
    let present := value?.isSome && !(emptyToo && value? == some "")
    let split (glyphs : List Glyph) : List Glyph := glyphs.map fun g => match g with
      | .char c .plain => .char c .value
      | g => g
    match rule with
    | .default => if present then parameterGlyphs name quoted else split <$> nested word
    | .alternative => if present then split <$> nested word else return []
    | .assign =>
      if present then parameterGlyphs name quoted
      else do
        let text := glyphText (← nested word)
        if !isName name then Work.fault (name ++ ": bad variable name")
        Work.assign name text
        return valueGlyphs text quoted
    | .require =>
      if present then parameterGlyphs name quoted
      else do
        let text := glyphText (← nested word)
        let text := if word.isEmpty then "parameter not set" ++ (if emptyToo then " or null" else "") else text
        Work.fault (name ++ ": " ++ text)
    | .withoutStart longest => do
      let pattern := Pattern.ofMarked (glyphPattern (← nested word))
      let glyphs ← parameterGlyphs name quoted
      return valueGlyphs (String.ofList (Pattern.removeStart pattern longest (glyphText glyphs).toList)) quoted
    | .withoutEnd longest => do
      let pattern := Pattern.ofMarked (glyphPattern (← nested word))
      let glyphs ← parameterGlyphs name quoted
      return valueGlyphs (String.ofList (Pattern.removeEnd pattern longest (glyphText glyphs).toList)) quoted
  | .output body quoted => do
    let before := (← get).status
    let bytes ← Work.collect (Work.apart (run body))
    modify fun s => { s with substituted := some s.status, status := before }
    return valueGlyphs (substitutedText bytes) quoted
  | .arithmetic expression quoted => do
    let i ← compute (glyphText (← nested expression))
    return valueGlyphs (toString i) quoted
  | .faulty => Work.fault "Bad substitution"

/-- The glyphs of a word; `depth` bounds how far words stand in words. -/
def expandGlyphs (run : List Statement → Work Unit) : (depth : Nat) → Word → Work (List Glyph)
  | 0, _ => return []
  | depth + 1, w => do return (← w.mapM (expandPart run (expandGlyphs run depth))).flatten

/-- How far words may stand in words. -/
def wordDepth : Nat := 200

/-- The home directory that a tilde with a name behind it stands for. -/
def homeOf? (s : ShellState) (name : List Char) : Option String :=
  if name.isEmpty then s.nameValue? "HOME"
  else if name == "root".toList then some "/root"
  else none

/-- Characters with home directories in the place of tildes at the start of paths, which colons separate
if there are more of them (`many`); `last` tells whether nothing follows the characters. -/
def withHomes (s : ShellState) (many last : Bool) : (fuel : Nat) → List Char → List WordPart
  | 0, _ => []
  | fuel + 1, cs =>
    let path := if many then cs.takeWhile (· != ':') else cs
    let behind := cs.drop path.length
    let further := if behind.isEmpty then [] else .text (behind.take 1) false :: withHomes s many last fuel (behind.drop 1)
    let parts : List WordPart := match path with
      | '~' :: rest =>
        let name := rest.takeWhile (· != '/')
        let left := rest.drop name.length
        match (if left.isEmpty && behind.isEmpty && !last then none else homeOf? s name) with
        | some home => [.text home.toList true, .text left false]
        | none => [.text path false]
      | path => [.text path false]
    parts ++ further

/-- A word with home directories in the place of tildes. -/
def withHome (many : Bool) (w : Word) : Work Word := do
  match w with
  | .text cs false :: rest =>
    if cs.contains '~' then return withHomes (← get) many rest.isEmpty (cs.length + 1) cs ++ rest else return w
  | w => return w

/-- The text that a word stands for where it is not split. -/
def expandText (run : List Statement → Work Unit) (w : Word) : Work String := do
  return glyphText (← expandGlyphs run wordDepth (← withHome false w))

/-- The value that a word gives a variable. -/
def expandValue (run : List Statement → Work Unit) (w : Word) : Work String := do
  return glyphText (← expandGlyphs run wordDepth (← withHome true w))

/-- The pattern that a word stands for. -/
def expandPattern (run : List Statement → Work Unit) (w : Word) : Work Pattern := do
  return Pattern.ofMarked (glyphPattern (← expandGlyphs run wordDepth (← withHome false w)))

/-- The arguments that words stand for. -/
def expandWords (run : List Statement → Work Unit) (words : List Word) : Work (List String) := do
  let fields ← words.mapM fun w => do
    let glyphs ← expandGlyphs run wordDepth (← withHome false w)
    let s ← get
    let fields := fieldsOf s.separators glyphs
    return if s.options.contains 'f' then fields.map unmarked
      else fields.flatMap (Pattern.paths s.machine.files)
  return fields.flatten

end ScriptYard.Shell
