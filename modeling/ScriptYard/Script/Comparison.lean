import ScriptYard.Value.Basic

/-!
# Comparing values

A script compares a variable with a value by one of six operators. Equality of two numbers is
equality of the floating-point numbers nearest to them, so that `3` equals `3.0`; all other pairs
of values are equal when they are the same value (`Value.same`), and a number inside an array or
an object keeps its kind there. The four ordering operators answer for two numbers and for two
strings, the latter by code points, and are false for every other pair.
-/

namespace ScriptYard

/-- The operators by which a script compares. -/
inductive CompareOperator where
  | eq | ne | gt | lt | ge | le
deriving DecidableEq, Repr, Inhabited

namespace CompareOperator

/-- The written form of an operator. -/
def symbol : CompareOperator → String
  | .eq => "=="
  | .ne => "!="
  | .gt => ">"
  | .lt => "<"
  | .ge => ">="
  | .le => "<="

/-- The operator of a written form. -/
def ofSymbol? : String → Option CompareOperator
  | "==" => some .eq
  | "!=" => some .ne
  | ">" => some .gt
  | "<" => some .lt
  | ">=" => some .ge
  | "<=" => some .le
  | _ => none

theorem ofSymbol?_symbol (op : CompareOperator) : ofSymbol? op.symbol = some op := by
  cases op <;> rfl

/-- Whether an ordering operator holds of two things that compare in this way. -/
def accepts : CompareOperator → Ordering → Bool
  | .eq, o => o == .eq
  | .ne, o => o != .eq
  | .gt, o => o == .gt
  | .lt, o => o == .lt
  | .ge, o => o != .lt
  | .le, o => o != .gt

end CompareOperator

namespace Value

/-- Equality as scripts see it. -/
def equals : Value → Value → Bool
  | .number a, .number b => a.toFloat.sameValue b.toFloat
  | a, b => a.same b

/-- The order of two numbers or of two strings; other pairs have none. -/
def order? : Value → Value → Option Ordering
  | .number a, .number b => some (a.toFloat.compare b.toFloat)
  | .string a, .string b => some (Ord.compare a b)
  | _, _ => none

/-- The answer of a comparison. -/
def compare (left : Value) (op : CompareOperator) (right : Value) : Bool :=
  match op with
  | .eq => left.equals right
  | .ne => !left.equals right
  | _ => match left.order? right with
    | some o => op.accepts o
    | none => false

end Value

end ScriptYard
