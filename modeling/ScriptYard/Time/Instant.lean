import ScriptYard.Time.Span

/-!
# Points in time

An `Instant` is a point in time on the UTC scale, counted from the start of 1970. Reports hold
instants as RFC 3339 text: `Instant.format` writes it with a `Z` and 0, 3, 6 or 9 digits of the
second's fraction, as few as hold the value, and `Instant.read?` accepts any offset, blanks around
the parts and a blank or a `t` between date and time.

The nanoseconds of an instant run to two full seconds, because a leap second is held as the 59th
second of its minute with the fraction carried beyond one. Instants are in the order of their seconds
first, so that a leap second lies before the minute that follows it.
-/

namespace ScriptYard

/-- A point in time on the UTC scale. -/
structure Instant where
  /-- Whole seconds since the start of 1970. -/
  secs : Int
  /-- Nanoseconds of the second, a second full or more inside a leap second. -/
  nanos : Nat
deriving DecidableEq, Repr, Inhabited

namespace Instant

/-- The instant so many milliseconds after the start of 1970. -/
def ofMillis (ms : Int) : Instant := ⟨ms / 1000, (ms % 1000).toNat * 1000000⟩

/-- Nanoseconds since the start of 1970. -/
def toNanos (t : Instant) : Int := t.secs * 1000000000 + t.nanos

/-- The instant so many nanoseconds after the start of 1970. -/
def ofNanos (n : Int) : Instant := ⟨n / 1000000000, (n % 1000000000).toNat⟩

instance : LE Instant := ⟨fun a b => a.secs < b.secs ∨ a.secs = b.secs ∧ a.nanos ≤ b.nanos⟩
instance (a b : Instant) : Decidable (a ≤ b) := inferInstanceAs (Decidable (_ ∨ _))

/-- The instant a span later. A leap second counts only where the instant stays within it. -/
def after (t : Instant) (s : Span) : Instant :=
  if t.nanos < 1000000000 then ofNanos (t.toNanos + s.nanos)
  else if t.nanos + s.nanos < 2000000000 then ⟨t.secs, t.nanos + s.nanos⟩
  else ofNanos (t.toNanos + s.nanos - 1000000000)

def daySecond (t : Instant) : Int := t.secs % 86400

/-- The nanoseconds from `s` to `t`. A leap second that lies between them by the clock of the day
counts once. -/
def nanosSince (t s : Instant) : Int :=
  let adjust : Int :=
    if s.daySecond < t.daySecond then (if 1000000000 ≤ s.nanos then 1 else 0)
    else if t.daySecond < s.daySecond then (if 1000000000 ≤ t.nanos then -1 else 0)
    else 0
  (t.secs - s.secs + adjust) * 1000000000 + ((t.nanos : Int) - s.nanos)

/-! ### The calendar -/

/-- The days from the start of 1970 to a date of the Gregorian calendar, by eras of 400 years that
start in March. -/
def daysFromCivil (year : Int) (month day : Nat) : Int :=
  let y := if month ≤ 2 then year - 1 else year
  let era := y / 400
  let yearOfEra := y % 400
  let shifted : Int := (month + 9) % 12
  let dayOfYear := (153 * shifted + 2) / 5 + day - 1
  era * 146097 + (yearOfEra * 365 + yearOfEra / 4 - yearOfEra / 100 + dayOfYear) - 719468

/-- The date of a day counted from the start of 1970, as year, month and day. -/
def civilFromDays (days : Int) : Int × Nat × Nat :=
  -- years begin in March here, so that leap days come last; an era is 400 of them
  let z := days + 719468
  let era := z / 146097
  let dayOfEra := z % 146097
  let yearOfEra := (dayOfEra - dayOfEra / 1460 + dayOfEra / 36524 - dayOfEra / 146096) / 365
  let dayOfYear := dayOfEra - (365 * yearOfEra + yearOfEra / 4 - yearOfEra / 100)
  let shifted := (5 * dayOfYear + 2) / 153
  let day := dayOfYear - (153 * shifted + 2) / 5 + 1
  let month := if shifted < 10 then shifted + 3 else shifted - 9
  -- January and February are in the next year by the usual count
  let year := yearOfEra + era * 400 + (if month ≤ 2 then 1 else 0)
  (year, month.toNat, day.toNat)

/-- Whether a year has a 29th of February. -/
def isLeapYear (year : Int) : Bool := year % 4 == 0 && (year % 100 != 0 || year % 400 == 0)

def daysInMonth (year : Int) (month : Nat) : Nat :=
  if month == 2 then (if isLeapYear year then 29 else 28)
  else if month == 4 || month == 6 || month == 9 || month == 11 then 30
  else 31

/-! ### Writing -/

private def two (n : Nat) : List Char := paddedDigits 2 n

/-- A year: four digits, or a sign and at least four digits outside 0 to 9999. -/
def yearText (year : Int) : List Char :=
  if 0 ≤ year && year ≤ 9999 then paddedDigits 4 year.toNat
  else (if year < 0 then '-' else '+') :: paddedDigits 4 year.natAbs

/-- The fraction of a second in 0, 3, 6 or 9 digits, as few as hold it. -/
def fractionText (nanos : Nat) : List Char :=
  if nanos == 0 then []
  else if nanos % 1000000 == 0 then '.' :: paddedDigits 3 (nanos / 1000000)
  else if nanos % 1000 == 0 then '.' :: paddedDigits 6 (nanos / 1000)
  else '.' :: paddedDigits 9 nanos

/-- The RFC 3339 text of an instant. -/
def format (t : Instant) : String :=
  let (year, month, day) := civilFromDays (t.secs / 86400)
  let s := t.daySecond.toNat
  let leap := 1000000000 ≤ t.nanos
  let second := s % 60 + (if leap then 1 else 0)
  let nanos := if leap then t.nanos - 1000000000 else t.nanos
  String.ofList (yearText year ++ '-' :: two month ++ '-' :: two day ++ 'T' :: two (s / 3600) ++
    ':' :: two (s / 60 % 60) ++ ':' :: two second ++ fractionText nanos ++ ['Z'])

/-! ### Reading -/

def digitsValue (ds : List Char) : Nat := ds.foldl (fun n c => n * 10 + (c.toNat - 48)) 0

/-- A number of at least one and at most `width` digits, after any blanks. -/
def readNumber? (width : Nat) (text : List Char) : Option (Nat × List Char) :=
  let text := text.dropWhile isBlank
  let ds := (text.take width).takeWhile Char.isDigit
  if ds.isEmpty then none else some (digitsValue ds, text.drop ds.length)

/-- A year: up to four digits, or a sign and any number of digits. -/
def readYear? (text : List Char) : Option (Int × List Char) :=
  match text.dropWhile isBlank with
  | '-' :: rest =>
    let ds := rest.takeWhile Char.isDigit
    if ds.isEmpty then none else some (-(digitsValue ds : Int), rest.dropWhile Char.isDigit)
  | '+' :: rest =>
    let ds := rest.takeWhile Char.isDigit
    if ds.isEmpty then none else some ((digitsValue ds : Int), rest.dropWhile Char.isDigit)
  | rest => (readNumber? 4 rest).map fun (n, rest) => ((n : Int), rest)

/-- The given character after any blanks. -/
def readMark? (c : Char) (text : List Char) : Option (List Char) :=
  match text.dropWhile isBlank with
  | d :: rest => if c == d then some rest else none
  | [] => none

/-- An optional fraction of a second, in nanoseconds; digits beyond the ninth are dropped. -/
def readFraction? (text : List Char) : Option (Nat × List Char) :=
  match text with
  | '.' :: rest =>
    let ds := rest.takeWhile Char.isDigit
    if ds.isEmpty then none
    else
      let kept := ds.take 9
      some (digitsValue kept * tenTo (9 - kept.length), rest.dropWhile Char.isDigit)
  | rest => some (0, rest)

/-- An offset from UTC in seconds: `Z`, `UTC`, or a sign, two digits of hours and two of minutes
with any colons or blanks between them. -/
def readOffset? (text : List Char) : Option (Int × List Char) :=
  let text := text.dropWhile isBlank
  let isUtc := match text with
    | a :: b :: c :: _ => a.toUpper == 'U' && b.toUpper == 'T' && c.toUpper == 'C'
    | _ => false
  if isUtc then some (0, text.drop 3)
  else match text with
    | [] => none
    | sign :: rest =>
      if sign == 'Z' || sign == 'z' then some (0, rest)
      else if sign == '+' || sign == '-' || sign == '−' then
        match rest with
        | h1 :: h2 :: rest =>
          match rest.dropWhile (fun c => c == ':' || isBlank c) with
          | m1 :: m2 :: rest =>
            if h1.isDigit && h2.isDigit && m1.isDigit && m2.isDigit && m1 < '6' then
              let s : Int := digitsValue [h1, h2] * 3600 + digitsValue [m1, m2] * 60
              if s < 86400 then some (if sign == '+' then s else -s, rest) else none
            else none
          | _ => none
        | _ => none
      else none

/-- The first year of the calendar. -/
def firstYear : Int := -262143

/-- The last year of the calendar. -/
def lastYear : Int := 262142

/-- The days on which instants can lie: those of the years of the calendar, counted from the start
of 1970. -/
def isInCalendar (day : Int) : Bool :=
  daysFromCivil firstYear 1 1 ≤ day && day ≤ daysFromCivil lastYear 12 31

/-- Whether an instant lies on one of these days. -/
def isOnCalendar (t : Instant) : Bool := isInCalendar (t.secs / 86400)

/-- The instant that a text stands for. Both its own date and the date in UTC have to be in the
calendar. -/
def read? (text : String) : Option Instant := do
  let (year, rest) ← readYear? text.toList
  let (month, rest) ← readNumber? 2 (← readMark? '-' rest)
  let (day, rest) ← readNumber? 2 (← readMark? '-' rest)
  let rest ← match rest with
    | c :: rest => if c == 'T' || c == 't' || c == ' ' then some rest else none
    | [] => none
  let (hour, rest) ← readNumber? 2 rest
  let (minute, rest) ← readNumber? 2 (← readMark? ':' rest)
  let (second, rest) ← readNumber? 2 (← readMark? ':' rest)
  let (nanos, rest) ← readFraction? rest
  let (offset, rest) ← readOffset? rest
  if !(rest.all isBlank) then none
  else if firstYear ≤ year && year ≤ lastYear && 1 ≤ month && month ≤ 12 && 1 ≤ day && day ≤ daysInMonth year month &&
      hour ≤ 23 && minute ≤ 59 && second ≤ 60 then
    let (second, nanos) := if second == 60 then (59, nanos + 1000000000) else (second, nanos)
    let secs := daysFromCivil year month day * 86400 + hour * 3600 + minute * 60 + second - offset
    if isInCalendar (secs / 86400) then some ⟨secs, nanos⟩ else none
  else none

end Instant

end ScriptYard
