import ScriptYard.Number.Shortest
import ScriptYard.Text

/-!
# Lengths of time

A `Span` is a length of time in whole nanoseconds, at most `Span.limit`: 64 bits of seconds and
the nanoseconds within one. Scripts write lengths of time as floating-point seconds, which
`Span.ofSeconds` takes to the nearest nanosecond; a number that is negative or beyond the limit
stands for no time at all.

Documents write them as number-unit pairs such as `1h 30m`. `Span.read?` accepts the units and
abbreviations of `Unit.ofName?`, blanks anywhere around the digits, and fractions that come to whole
nanoseconds, or to whole seconds from the hour on; `Span.format` writes the non-zero parts from years
down to nanoseconds, each part as large as it can be.
-/

namespace ScriptYard

/-- A length of time, in nanoseconds. -/
structure Span where
  /-- The count of nanoseconds. -/
  nanos : Nat
deriving DecidableEq, Repr, Inhabited

namespace Span

/-- No time at all. -/
def zero : Span := ⟨0⟩

/-- The longest span: 64 bits of whole seconds and all but one nanosecond of another. -/
def limit : Span := ⟨twoTo 64 * 1000000000 - 1⟩

/-- The span of so many seconds. -/
def ofSecs (n : Nat) : Span := ⟨n * 1000000000⟩

/-- The span of so many milliseconds. -/
def ofMillis (n : Nat) : Span := ⟨n * 1000000⟩

/-- The whole seconds of a span. -/
def secs (s : Span) : Nat := s.nanos / 1000000000

/-- The nanoseconds beyond the whole seconds. -/
def subsec (s : Span) : Nat := s.nanos % 1000000000

/-- The whole milliseconds of a span. -/
def millis (s : Span) : Nat := s.nanos / 1000000

/-- The milliseconds of a span, a begun one counting as whole. -/
def millisUp (s : Span) : Nat := (s.nanos + 999999) / 1000000

instance : LT Span := ⟨fun a b => a.nanos < b.nanos⟩
instance : LE Span := ⟨fun a b => a.nanos ≤ b.nanos⟩
instance (a b : Span) : Decidable (a < b) := inferInstanceAs (Decidable (a.nanos < b.nanos))
instance (a b : Span) : Decidable (a ≤ b) := inferInstanceAs (Decidable (a.nanos ≤ b.nanos))

/-- The shorter of two spans. -/
def shorter (a b : Span) : Span := if a ≤ b then a else b

/-- The longer of two spans. -/
def longer (a b : Span) : Span := if a ≤ b then b else a

/-! ### Seconds as a floating-point number -/

/-- The span nearest to a number of seconds, a tie going to the even nanosecond. A negative number
and one of 2 ^ 64 seconds or more stand for no time. -/
def ofSeconds (x : Finite64) : Span :=
  if x.negative then zero
  else
    let (n, d) := x.quotient
    if twoTo 64 * d ≤ n then zero else ⟨Binary64.divNearestEven (n * 1000000000) d⟩

/-- The seconds of a span as a floating-point number: whole seconds and the fraction are rounded
one by one and added. -/
def toSeconds (s : Span) : Finite64 :=
  let fraction := (Binary64.ofNat s.subsec).div (Binary64.ofNat 1000000000)
  (((Binary64.ofNat s.secs).add fraction).toFinite?).getD default

/-! ### Units -/

/-- The units of time that documents use. -/
inductive Unit where
  | nano | micro | milli | second | minute | hour | day | week | month | year
deriving DecidableEq, Repr

/-- The unit of a written name. Months and years are mean ones. -/
def Unit.ofName? (name : List Char) : Option Unit :=
  match String.ofList name with
  | "nanos" | "nsec" | "ns" => some .nano
  | "usec" | "us" | "µs" => some .micro
  | "millis" | "msec" | "ms" => some .milli
  | "seconds" | "second" | "secs" | "sec" | "s" => some .second
  | "minutes" | "minute" | "min" | "mins" | "m" => some .minute
  | "hours" | "hour" | "hr" | "hrs" | "h" => some .hour
  | "days" | "day" | "d" => some .day
  | "weeks" | "week" | "wk" | "wks" | "w" => some .week
  | "months" | "month" | "M" => some .month
  | "years" | "year" | "yr" | "yrs" | "y" => some .year
  | _ => none

/-- How a unit is counted: in nanoseconds, so many to the unit, or in whole seconds. -/
inductive Unit.Scale where
  /-- So many nanoseconds. -/
  | nanos (n : Nat)
  /-- So many whole seconds. -/
  | secs (n : Nat)
deriving DecidableEq, Repr

/-- The scale in which whole counts of a unit are added up. -/
def Unit.scale : Unit → Unit.Scale
  | .nano => .nanos 1
  | .micro => .nanos 1000
  | .milli => .nanos 1000000
  | .second => .secs 1
  | .minute => .secs 60
  | .hour => .secs 3600
  | .day => .secs 86400
  | .week => .secs 604800
  | .month => .secs 2630016
  | .year => .secs 31557600

/-- The scale in which a fraction of a unit is added up: nanoseconds up to the minute, whole
seconds from the hour on, and none for the nanosecond, which has no fractions. -/
def Unit.fractionScale? : Unit → Option Unit.Scale
  | .nano => none
  | .second => some (.nanos 1000000000)
  | .minute => some (.nanos 60000000000)
  | u => some u.scale

/-! ### Reading -/

/-- A number with a unit, as a document writes it: a whole part and an optional fraction, given
as numerator and denominator. -/
structure Amount where
  /-- The whole part. -/
  whole : Nat
  /-- The fraction, as numerator and denominator. -/
  fraction : Option (Nat × Nat)
deriving DecidableEq, Repr

/-- What fits in 64 bits. -/
private def word? (n : Nat) : Option Nat := if n < twoTo 64 then some n else none

/-- The quotient of a division without remainder. -/
private def exactly? (n d : Nat) : Option Nat := if n % d == 0 then some (n / d) else none

/-- The sum of a span and `n` counts of a scale, divided by `d`. The division has to leave nothing
over, and every intermediate count has to fit in 64 bits. -/
def addScaled? (s : Span) (n d : Nat) : Unit.Scale → Option Span
  | .nanos k => do
    let added ← exactly? (← word? (n * k)) d
    let nanos ← word? (s.subsec + added)
    let secs ← word? (s.secs + nanos / 1000000000)
    return ⟨secs * 1000000000 + nanos % 1000000000⟩
  | .secs k => do
    let added ← exactly? (← word? (n * k)) d
    let secs ← word? (s.secs + added)
    return ⟨secs * 1000000000 + s.subsec⟩

/-- The sum of a span and an amount of a unit. -/
def addAmount? (s : Span) (amount : Amount) (unit : Unit) : Option Span := do
  let s ← addScaled? s amount.whole 1 unit.scale
  match amount.fraction with
  | none => return s
  | some (n, d) => addScaled? s n d (← unit.fractionScale?)

/-- The letters of unit names. -/
def isUnitLetter (c : Char) : Bool := c.isAlpha || c == 'µ'

/-- The digits up to a unit name, with blanks anywhere among them: the number continued from `n`,
and the rest, which is empty or starts with a letter or a point. -/
def readWhole? (n : Nat) : List Char → Option (Nat × List Char)
  | [] => some (n, [])
  | c :: rest =>
    if c.isDigit then do readWhole? (← word? (n * 10 + (c.toNat - 48))) rest
    else if isBlank c then readWhole? n rest
    else if isUnitLetter c || c == '.' then some (n, c :: rest)
    else none

/-- The digits of a fraction up to a unit name, blanks among them: numerator and denominator
continued from `n` and `d`, and the rest. -/
def readFraction? (n d : Nat) : List Char → Option (Nat × Nat × List Char)
  | [] => if d == 1 then none else some (n, d, [])
  | c :: rest =>
    if c.isDigit then do readFraction? (← word? (n * 10 + (c.toNat - 48))) (← word? (d * 10)) rest
    else if isBlank c then readFraction? n d rest
    else if isUnitLetter c then (if d == 1 then none else some (n, d, c :: rest))
    else none

/-- A number up to its unit name. -/
def readAmount? (text : List Char) : Option (Amount × List Char) := do
  let (whole, rest) ← readWhole? 0 text
  match rest with
  | '.' :: rest =>
    let (n, d, rest) ← readFraction? 0 1 rest
    return (⟨whole, some (n, d)⟩, rest)
  | rest => return (⟨whole, none⟩, rest)

/-- The rest of the pairs, read onto `s`; `fuel` bounds their count. A unit name ends at a blank
or at the first digit of the next pair. -/
def readPairs? : (fuel : Nat) → Span → List Char → Option Span
  | 0, _, _ => none
  | fuel + 1, s, text => do
    let (amount, rest) ← readAmount? text
    let unit ← Unit.ofName? (rest.takeWhile isUnitLetter)
    let s ← s.addAmount? amount unit
    let rest := rest.dropWhile isUnitLetter
    match rest with
    | [] => return s
    | c :: _ =>
      if c.isDigit || isBlank c then
        match rest.dropWhile isBlank with
        | [] => return s
        | d :: more => if d.isDigit then readPairs? fuel s (d :: more) else none
      else none

/-- The span that a text of number-unit pairs stands for; a lone `0` is no time. -/
def read? (text : String) : Option Span :=
  if text == "0" then some zero
  else
    match text.toList.dropWhile isBlank with
    | [] => none
    | c :: rest => if c.isDigit then readPairs? (rest.length + 1) zero (c :: rest) else none

/-! ### Writing -/

/-- A part with a spelled-out unit, which takes an `s` above one; nothing for a zero count. -/
def wordPart (unit : String) (n : Nat) : List String :=
  if n == 0 then []
  else [toString n ++ unit ++ (if n == 1 then "" else "s")]

/-- A part with an abbreviated unit; nothing for a zero count. -/
def letterPart (unit : String) (n : Nat) : List String :=
  if n == 0 then [] else [toString n ++ unit]

/-- The non-zero parts of a span, from years down to nanoseconds. -/
def parts (s : Span) : List String :=
  let years := s.secs / 31557600
  let inYear := s.secs % 31557600
  let inMonth := inYear % 2630016
  let inDay := inMonth % 86400
  wordPart "year" years ++ wordPart "month" (inYear / 2630016) ++ wordPart "day" (inMonth / 86400) ++
  letterPart "h" (inDay / 3600) ++ letterPart "m" (inDay % 3600 / 60) ++ letterPart "s" (inDay % 60) ++
  letterPart "ms" (s.subsec / 1000000) ++ letterPart "us" (s.subsec / 1000 % 1000) ++
  letterPart "ns" (s.subsec % 1000)

/-- The written form of a span. -/
def format (s : Span) : String :=
  if s.nanos == 0 then "0s" else " ".intercalate s.parts

/-! ### Other texts -/

/-- Seconds and nine digits of nanoseconds. -/
def clockText (s : Span) : String :=
  toString s.secs ++ "." ++ String.ofList (paddedDigits 9 s.subsec)

/-- A count of units and its fraction, `places` digits wide, without trailing zeros. -/
private def trimmedCount (whole fraction places : Nat) : String :=
  let ds := (paddedDigits places fraction).reverse.dropWhile (· == '0')
  toString whole ++ (if ds.isEmpty || places == 0 then "" else "." ++ String.ofList ds.reverse)

/-- A span in the largest unit from seconds to nanoseconds of which it holds a whole one. -/
def briefText (s : Span) : String :=
  if 1000000000 ≤ s.nanos then trimmedCount s.secs s.subsec 9 ++ "s"
  else if 1000000 ≤ s.nanos then trimmedCount (s.nanos / 1000000) (s.nanos % 1000000) 6 ++ "ms"
  else if 1000 ≤ s.nanos then trimmedCount (s.nanos / 1000) (s.nanos % 1000) 3 ++ "µs"
  else toString s.nanos ++ "ns"

end Span

end ScriptYard
