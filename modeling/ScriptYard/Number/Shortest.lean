import ScriptYard.Number.Binary64

/-!
# The shortest decimal of a floating-point number

A finite number is written with the fewest decimal digits that still read back as the same
number. `Finite64.shortest` finds those digits: the reals that round to the number form an
interval around it (`Finite64.interval`), and for one digit, two digits, … seventeen digits the
two neighbours of the number on that decimal grid are tested against the interval. The first grid
with a hit wins; of two hits the one nearer to the number is taken.

How the digits are laid out is a second question, answered by a `FloatStyle`: where positional
notation ends and how an exponent is written. `Finite64.fixed` is the other way of writing a
number, with a given count of places after the point.
-/

namespace ScriptYard

/-! ### Decimal numerals -/

/-- The decimal digits of a natural. -/
def decimalDigits (n : Nat) : List Char := Nat.toDigits 10 n

/-- The numeral of a natural, with zeros in front up to the given width. -/
def paddedDigits (width n : Nat) : List Char :=
  let ds := decimalDigits n
  List.replicate (width - ds.length) '0' ++ ds

/-- The numeral of an integer. -/
def integerText (i : Int) : String :=
  if i < 0 then String.ofList ('-' :: decimalDigits i.natAbs) else String.ofList (decimalDigits i.natAbs)

/-! ### The digits -/

/-- A positive decimal `digits · 10 ^ scale`. -/
structure Decimal where
  /-- The digits read as one number. -/
  digits : Nat
  /-- The power of ten that scales them. -/
  scale : Int
deriving DecidableEq, Repr

namespace Finite64

/-- The exponent of the leading decimal digit of `n / d`, for positive `n` and `d`. -/
def leadingExponent (n d : Nat) : Int :=
  if d ≤ n then (decimalDigits (n / d)).length - 1
  else
    let k := (decimalDigits (d / n)).length
    if n * tenTo (k - 1) == d then 1 - (k : Int) else -(k : Int)

/-- The reals that round to a positive number, as `(low, value, high, unit)`: the first three over
the common denominator `unit`. Below a power of two the gap is half as wide. -/
def interval (x : Finite64) : Nat × Nat × Nat × Nat :=
  let below := if x.mant == twoTo 52 && x.exp != -1074 then 1 else 2
  let e := x.exp - 2
  if 0 ≤ e then
    let s := twoTo e.toNat
    ((4 * x.mant - below) * s, 4 * x.mant * s, (4 * x.mant + 2) * s, 1)
  else
    (4 * x.mant - below, 4 * x.mant, 4 * x.mant + 2, twoTo (-e).toNat)

/-- The decimal nearest to the number among its two neighbours with `count` digits, if one of them
lies in the interval. The ends of the interval belong to it iff the mantissa is even. -/
def onGrid? (x : Finite64) (count : Nat) : Option Decimal :=
  let (lo, v, hi, unit) := x.interval
  let scale := leadingExponent v unit - count + 1
  let (num, den) :=
    if 0 ≤ scale then (v, unit * tenTo scale.toNat) else (v * tenTo (-scale).toNat, unit)
  let inside (q : Nat) : Bool :=
    let (a, b) := if 0 ≤ scale then (q * unit * tenTo scale.toNat, 1) else (q * unit, tenTo (-scale).toNat)
    if x.mant % 2 == 0 then lo * b ≤ a && a ≤ hi * b else lo * b < a && a < hi * b
  -- the neighbours are `q` and `q + 1` units of this grid
  let q := num / den
  let low := inside q
  let high := inside (q + 1)
  if low && high then
    let twice := 2 * (num % den)
    -- both lie inside: the nearer one, and of two equally near the even one
    if twice < den || (twice == den && q % 2 == 0) then some ⟨q, scale⟩ else some ⟨q + 1, scale⟩
  else if low then some ⟨q, scale⟩
  else if high then some ⟨q + 1, scale⟩
  else none

/-- The hit on the coarsest grid from `count` digits on, looking at `fuel` grids. -/
def searchGrids (x : Finite64) : (fuel count : Nat) → Option Decimal
  | 0, _ => none
  | fuel + 1, count =>
    match x.onGrid? count with
    | some d => some d
    | none => searchGrids x fuel (count + 1)

/-- The shortest decimal that reads back as the positive number, the nearest of those; seventeen
digits always suffice. Trailing zeros are moved into the scale. -/
def shortest (x : Finite64) : Decimal :=
  match x.searchGrids 17 1 with
  | some d => if d.digits % 10 == 0 then ⟨d.digits / 10, d.scale + 1⟩ else d
  | none => ⟨0, 0⟩

end Finite64

/-! ### Layout -/

/-- How the digits of a floating-point number are laid out. -/
structure FloatStyle where
  /-- Exponents of the leading digit from which the exponent form is used, if any. -/
  exponentFrom : Option Int
  /-- The exponent of the leading digit below which the exponent form is used, if any. -/
  exponentBelow : Option Int
  /-- Whether a whole number in positional notation keeps a zero after the point. -/
  pointZero : Bool
  /-- Whether a positive exponent carries its sign. -/
  exponentPlus : Bool
deriving DecidableEq, Repr

namespace FloatStyle

/-- A number inside a data document: positional from 0.00001 up to below 10 ^ 16, and a whole
number keeps its point. -/
def document : FloatStyle := ⟨some 16, some (-5), true, true⟩

/-- As `document`, with no sign on a positive exponent. -/
def plainExponent : FloatStyle := ⟨some 16, some (-5), true, false⟩

/-- A number inside a message: always positional, a whole number without a point. -/
def message : FloatStyle := ⟨none, none, false, false⟩

/-- The exponent form: one digit, the others after a point, and the exponent. -/
def exponentForm (style : FloatStyle) (ds : List Char) (lead : Int) : List Char :=
  let mantissa := match ds with
    | [] => []
    | [c] => [c]
    | c :: rest => c :: '.' :: rest
  let sign := if lead < 0 then ['-'] else if style.exponentPlus then ['+'] else []
  mantissa ++ 'e' :: sign ++ decimalDigits lead.natAbs

/-- Positional notation of the digits with leading exponent `lead`. -/
def positional (style : FloatStyle) (ds : List Char) (lead : Int) : List Char :=
  if lead < 0 then
    '0' :: '.' :: (List.replicate (lead.natAbs - 1) '0' ++ ds)
  else
    let whole := lead.toNat + 1
    let zeros := List.replicate (whole - ds.length) '0'
    let tail := ds.drop whole
    ds.take whole ++ zeros ++
      (if tail.isEmpty then (if style.pointZero then ['.', '0'] else []) else '.' :: tail)

/-- The text of a finite number. -/
def format (style : FloatStyle) (x : Finite64) : String :=
  let sign := if x.negative then ['-'] else []
  if x.isZero then String.ofList (sign ++ positional style ['0'] 0)
  else
    let d := x.shortest
    let ds := decimalDigits d.digits
    let lead := d.scale + ds.length - 1
    let byExponent :=
      (match style.exponentFrom with | some k => decide (k ≤ lead) | none => false) ||
      (match style.exponentBelow with | some k => decide (lead < k) | none => false)
    String.ofList (sign ++ if byExponent then exponentForm style ds lead else positional style ds lead)

end FloatStyle

namespace Finite64

/-- The number with exactly `places` digits after the point, rounded from its exact value, a tie
going to the even digit. -/
def fixed (x : Finite64) (places : Nat) : String :=
  let (n, d) := x.quotient
  let ds := paddedDigits (places + 1) (Binary64.divNearestEven (n * tenTo places) d)
  let whole := ds.take (ds.length - places)
  let tail := ds.drop (ds.length - places)
  String.ofList ((if x.negative then ['-'] else []) ++ whole ++
    (if places == 0 then [] else '.' :: tail))

end Finite64

end ScriptYard
