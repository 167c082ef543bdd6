import ScriptYard.Number.Power

/-!
# Binary floating point of 64 bits

`Finite64` is a finite number `±mant · 2 ^ exp` in the one form that the 64-bit format gives it
(`Finite64.Canonical`), so that equality of values of the type is equality of bit patterns: the
two zeros differ, and no number is held twice. `Binary64` adds the two infinities and the value
that is not a number.

All arithmetic is exact arithmetic on natural numbers followed by one rounding,
`Binary64.ofQuotient`, which takes a quotient of two naturals to the nearest number of the
format, a tie going to the even mantissa. Sums, products and quotients, the value of a decimal
and the value of an integer are all instances of it.

Two comparisons are provided. `Finite64.compare` is the order of the exact values, in which the
two zeros are equal; the decidable equality of the type tells the zeros apart.
-/

namespace ScriptYard

/-! ### Finite numbers -/

/-- The mantissa and exponent pairs that the format uses: 53 bits, exponents from -1074 to 971,
and the top bit set wherever the exponent could still be lowered. -/
def Finite64.Canonical (mant : Nat) (exp : Int) : Prop :=
  mant < twoTo 53 ∧ -1074 ≤ exp ∧ exp ≤ 971 ∧ (twoTo 52 ≤ mant ∨ exp = -1074)

instance (mant : Nat) (exp : Int) : Decidable (Finite64.Canonical mant exp) :=
  inferInstanceAs (Decidable (_ ∧ _ ∧ _ ∧ _))

/-- The finite number `±mant · 2 ^ exp`, in canonical form. -/
structure Finite64 where
  /-- Whether the sign bit is set. -/
  negative : Bool
  /-- The integer mantissa. -/
  mant : Nat
  /-- The exponent of two that scales the mantissa. -/
  exp : Int
  /-- The pair is the one that the format uses for this number. -/
  canonical : Finite64.Canonical mant exp
deriving DecidableEq, Repr

namespace Finite64

/-- The zero of the given sign. -/
def zero (negative : Bool) : Finite64 := ⟨negative, 0, -1074, by decide⟩

instance : Inhabited Finite64 := ⟨zero false⟩

/-- The number one. -/
def one : Finite64 := ⟨false, twoTo 52, -52, by decide⟩

/-- Whether the number is one of the two zeros. -/
def isZero (x : Finite64) : Bool := x.mant == 0

/-- The same magnitude with the other sign. -/
def neg (x : Finite64) : Finite64 := { x with negative := !x.negative }

/-- The magnitude as a quotient of naturals, the second of them positive. -/
def quotient (x : Finite64) : Nat × Nat :=
  if 0 ≤ x.exp then (x.mant * twoTo x.exp.toNat, 1) else (x.mant, twoTo (-x.exp).toNat)

/-- The numerator of the exact value over `x.quotient.2`. -/
def numerator (x : Finite64) : Int :=
  if x.negative then -(x.quotient.1 : Int) else x.quotient.1

/-- The order of the exact values, in which the two zeros are equal. -/
def compare (x y : Finite64) : Ordering :=
  Ord.compare (x.numerator * y.quotient.2) (y.numerator * x.quotient.2)

/-- Whether the exact values are equal. -/
def sameValue (x y : Finite64) : Bool := x.compare y == .eq

end Finite64

/-! ### The whole format and its rounding -/

/-- A value of the 64-bit binary format. -/
inductive Binary64 where
  /-- A finite number. -/
  | finite (x : Finite64)
  /-- An infinity of the given sign. -/
  | infinite (negative : Bool)
  /-- The value that is not a number. -/
  | nan
deriving DecidableEq, Repr

namespace Binary64

instance : Inhabited Binary64 := ⟨.finite default⟩

/-- The quotient `n / d` rounded to an integer, a tie going to the even neighbour. -/
def divNearestEven (n d : Nat) : Nat :=
  let q := n / d
  let twice := 2 * (n % d)
  if twice < d then q
  else if d < twice then q + 1
  else if q % 2 == 0 then q else q + 1

/-- The largest `k` with `2 ^ k ≤ n / d`, for positive `n` and `d`. -/
def floorLog2 (n d : Nat) : Int :=
  let k : Int := (n.log2 : Int) - (d.log2 : Int)
  let reached : Bool := if 0 ≤ k then d * twoTo k.toNat ≤ n else d ≤ n * twoTo (-k).toNat
  if reached then k else k - 1

/-- The number with this sign, mantissa and exponent, or the infinity of that sign where the
pair is not one of the format. -/
def ofParts (negative : Bool) (mant : Nat) (exp : Int) : Binary64 :=
  if h : Finite64.Canonical mant exp then .finite ⟨negative, mant, exp, h⟩ else .infinite negative

/-- **Rounding.** The number of the format nearest to `±n / d`, a tie going to the even mantissa;
what rounds beyond the largest finite number is infinite. -/
def ofQuotient (negative : Bool) (n d : Nat) : Binary64 :=
  if n == 0 then .finite (Finite64.zero negative) else
  let exp := max (floorLog2 n d - 52) (-1074)
  let mant :=
    if 0 ≤ exp then divNearestEven n (d * twoTo exp.toNat) else divNearestEven (n * twoTo (-exp).toNat) d
  if mant == twoTo 53 then ofParts negative (twoTo 52) (exp + 1) else ofParts negative mant exp

/-- The number nearest to a natural. -/
def ofNat (n : Nat) : Binary64 := ofQuotient false n 1

/-- The number nearest to an integer. -/
def ofInt (i : Int) : Binary64 := ofQuotient (i < 0) i.natAbs 1

/-- The number nearest to `±digits · 10 ^ scale`. Scales far outside the format are cut short:
beyond them the answer is an infinity or a zero whatever the digits. -/
def ofDecimal (negative : Bool) (digits : Nat) (scale : Int) : Binary64 :=
  if digits == 0 then .finite (Finite64.zero negative)
  else if 400 < scale then .infinite negative
  else if 0 ≤ scale then ofQuotient negative (digits * tenTo scale.toNat) 1
  else if scale + (digits.log2 : Int) < -1200 then .finite (Finite64.zero negative)
  else ofQuotient negative digits (tenTo (-scale).toNat)

/-! ### Arithmetic -/

/-- The sign bit; the value that is not a number counts as positive. -/
def isNegative : Binary64 → Bool
  | .finite x => x.negative
  | .infinite s => s
  | .nan => false

/-- The rounded product. -/
def mul : Binary64 → Binary64 → Binary64
  | .nan, _ | _, .nan => .nan
  | .infinite s, .infinite t => .infinite (s != t)
  | .infinite s, .finite y => if y.isZero then .nan else .infinite (s != y.negative)
  | .finite x, .infinite t => if x.isZero then .nan else .infinite (x.negative != t)
  | .finite x, .finite y =>
    let (a, b) := x.quotient
    let (c, d) := y.quotient
    ofQuotient (x.negative != y.negative) (a * c) (b * d)

/-- The rounded quotient. -/
def div : Binary64 → Binary64 → Binary64
  | .nan, _ | _, .nan => .nan
  | .infinite _, .infinite _ => .nan
  | .infinite s, .finite y => .infinite (s != y.negative)
  | .finite x, .infinite t => .finite (Finite64.zero (x.negative != t))
  | .finite x, .finite y =>
    if y.isZero then (if x.isZero then .nan else .infinite (x.negative != y.negative))
    else
      let (a, b) := x.quotient
      let (c, d) := y.quotient
      ofQuotient (x.negative != y.negative) (a * d) (b * c)

/-- The rounded sum of two finite numbers; an exact zero keeps a sign that both share. -/
def addFinite (x y : Finite64) : Binary64 :=
  let d := x.quotient.2 * y.quotient.2
  let n : Int := x.numerator * y.quotient.2 + y.numerator * x.quotient.2
  if n == 0 then .finite (Finite64.zero (x.negative && y.negative))
  else ofQuotient (n < 0) n.natAbs d

/-- The rounded sum. -/
def add : Binary64 → Binary64 → Binary64
  | .nan, _ | _, .nan => .nan
  | .infinite s, .infinite t => if s == t then .infinite s else .nan
  | .infinite s, .finite _ => .infinite s
  | .finite _, .infinite t => .infinite t
  | .finite x, .finite y => addFinite x y

/-- The power `x ^ n` by repeated squaring, every product rounded. The bits of `n` are used from
the lowest up, which fixes the order of the roundings; `acc` is the product so far. -/
def powLoop (x : Binary64) (acc : Binary64) (n : Nat) : Binary64 :=
  let acc' := if n % 2 == 1 then acc.mul x else acc
  if h : n / 2 = 0 then acc' else powLoop (x.mul x) acc' (n / 2)
termination_by n
decreasing_by exact Nat.div_lt_self (Nat.pos_of_ne_zero (fun h0 => h (by simp [h0]))) (by decide)

/-- The power `x ^ n`, rounded product by product. -/
def pow (x : Binary64) (n : Nat) : Binary64 := powLoop x (.finite Finite64.one) n

/-! ### Back to exact values -/

/-- The natural number below or at the value, no larger than `limit`; the negative values and the
value that is not a number give zero. -/
def toNatClamped (limit : Nat) : Binary64 → Nat
  | .finite x => if x.negative then 0 else min (x.quotient.1 / x.quotient.2) limit
  | .infinite s => if s then 0 else limit
  | .nan => 0

/-- The finite number, if it is one. -/
def toFinite? : Binary64 → Option Finite64
  | .finite x => some x
  | _ => none

end Binary64

end ScriptYard
