import ScriptYard.Number.Shortest
import ScriptYard.Value.Fields

/-!
# Values

A `Value` is what data documents hold and what scripts compute with: null, a truth value, a
number, a string, an array or an object. A number is either an integer, held exactly, or a finite
floating-point number; `1` and `1.0` are different values, although they compare as equal
(`ScriptYard.CompareOperator`).

`Value.WellFormed` says what every reader of documents establishes and every operation keeps:
integers lie between -2 ^ 63 and 2 ^ 64 - 1, and the fields of objects are in key order.
`Value.same` is structural equality, except that the two zeros are the same number.
-/

namespace ScriptYard

/-- A number: an exact integer, or a finite floating-point number. -/
inductive Number where
  /-- An integer. -/
  | int (i : Int)
  /-- A floating-point number. -/
  | float (x : Finite64)
deriving DecidableEq, Repr, Inhabited

namespace Number

/-- Integers lie in the range of 64 bits, signed or unsigned. -/
def InRange : Number → Prop
  | .int i => -(twoTo 63) ≤ i ∧ i < twoTo 64
  | .float _ => True

/-- The nearest floating-point number. -/
def toFloat : Number → Finite64
  | .int i => ((Binary64.ofInt i).toFinite?).getD default
  | .float x => x

/-- Whether two numbers are of one kind and equal, the two zeros being equal. -/
def same : Number → Number → Bool
  | .int i, .int j => i == j
  | .float x, .float y => x.sameValue y
  | _, _ => false

end Number

/-- A value of a data document. -/
inductive Value where
  /-- The null value. -/
  | null
  /-- A truth value. -/
  | bool (b : Bool)
  | number (n : Number)
  | string (s : String)
  | array (items : List Value)
  | object (fields : List (String × Value))
deriving Repr, Inhabited

namespace Value

/-- The integer value. -/
def int (i : Int) : Value := .number (.int i)

/-- The integer value of a natural. -/
def nat (n : Nat) : Value := .number (.int n)

/-- The value of a finite floating-point number. -/
def float (x : Finite64) : Value := .number (.float x)

/-- The value of a floating-point number; null stands for the ones that are not finite. -/
def ofBinary64 : Binary64 → Value
  | .finite x => .float x
  | _ => .null

/-- A string or null. -/
def ofText? : Option String → Value
  | some s => .string s
  | none => .null

/-! ### Equality -/

mutual

/-- Structural equality, decided. -/
def decEq : (a b : Value) → Decidable (a = b)
  | .null, .null => .isTrue rfl
  | .bool a, .bool b => if h : a = b then .isTrue (h ▸ rfl) else .isFalse (by simp [h])
  | .number a, .number b => if h : a = b then .isTrue (h ▸ rfl) else .isFalse (by simp [h])
  | .string a, .string b => if h : a = b then .isTrue (h ▸ rfl) else .isFalse (by simp [h])
  | .array a, .array b =>
    match decEqItems a b with
    | .isTrue h => .isTrue (h ▸ rfl)
    | .isFalse h => .isFalse (by simp [h])
  | .object a, .object b =>
    match decEqFields a b with
    | .isTrue h => .isTrue (h ▸ rfl)
    | .isFalse h => .isFalse (by simp [h])
  | .null, .bool _ | .null, .number _ | .null, .string _ | .null, .array _ | .null, .object _
  | .bool _, .null | .bool _, .number _ | .bool _, .string _ | .bool _, .array _ | .bool _, .object _
  | .number _, .null | .number _, .bool _ | .number _, .string _ | .number _, .array _
  | .number _, .object _
  | .string _, .null | .string _, .bool _ | .string _, .number _ | .string _, .array _
  | .string _, .object _
  | .array _, .null | .array _, .bool _ | .array _, .number _ | .array _, .string _
  | .array _, .object _
  | .object _, .null | .object _, .bool _ | .object _, .number _ | .object _, .string _
  | .object _, .array _ => .isFalse (fun h => by cases h)

/-- Structural equality of arrays, decided. -/
def decEqItems : (a b : List Value) → Decidable (a = b)
  | [], [] => .isTrue rfl
  | [], _ :: _ | _ :: _, [] => .isFalse (fun h => by cases h)
  | x :: a, y :: b =>
    match decEq x y, decEqItems a b with
    | .isTrue h, .isTrue k => .isTrue (h ▸ k ▸ rfl)
    | .isFalse h, _ => .isFalse (by simp [h])
    | _, .isFalse k => .isFalse (by simp [k])

/-- Structural equality of objects, decided. -/
def decEqFields : (a b : List (String × Value)) → Decidable (a = b)
  | [], [] => .isTrue rfl
  | [], _ :: _ | _ :: _, [] => .isFalse (fun h => by cases h)
  | (m, x) :: a, (n, y) :: b =>
    if hn : m = n then
      match decEq x y, decEqFields a b with
      | .isTrue h, .isTrue k => .isTrue (hn ▸ h ▸ k ▸ rfl)
      | .isFalse h, _ => .isFalse (by simp [h])
      | _, .isFalse k => .isFalse (by simp [k])
    else .isFalse (by simp [hn])

end

instance : DecidableEq Value := decEq

mutual

/-- Structural equality that takes the two zeros for the same number. -/
def same : Value → Value → Bool
  | .null, .null => true
  | .bool a, .bool b => a == b
  | .number a, .number b => a.same b
  | .string a, .string b => a == b
  | .array a, .array b => sameItems a b
  | .object a, .object b => sameFields a b
  | _, _ => false

/-- `Value.same` item by item. -/
def sameItems : List Value → List Value → Bool
  | [], [] => true
  | x :: a, y :: b => x.same y && sameItems a b
  | _, _ => false

/-- `Value.same` field by field, the names being equal. -/
def sameFields : List (String × Value) → List (String × Value) → Bool
  | [], [] => true
  | (m, x) :: a, (n, y) :: b => m == n && x.same y && sameFields a b
  | _, _ => false

end

/-! ### Well-formed values -/

/-- Integers are in range and the fields of objects in key order, at every depth. -/
inductive WellFormed : Value → Prop where
  | null : WellFormed .null
  | bool (b : Bool) : WellFormed (.bool b)
  | number (n : Number) (h : n.InRange) : WellFormed (.number n)
  | string (s : String) : WellFormed (.string s)
  | array (items : List Value) (h : ∀ v ∈ items, WellFormed v) : WellFormed (.array items)
  | object (fields : List (String × Value)) (sorted : Fields.Sorted fields)
      (h : ∀ f ∈ fields, WellFormed f.2) : WellFormed (.object fields)

/-! ### Depth -/

mutual

/-- How many arrays and objects lie inside one another, the outermost included. -/
def depth : Value → Nat
  | .array items => depthOfItems items + 1
  | .object fields => depthOfFields fields + 1
  | .null | .bool _ | .number _ | .string _ => 0

/-- The greatest depth of some items. -/
def depthOfItems : List Value → Nat
  | [] => 0
  | v :: rest => max v.depth (depthOfItems rest)

/-- The greatest depth of some fields. -/
def depthOfFields : List (String × Value) → Nat
  | [] => 0
  | (_, v) :: rest => max v.depth (depthOfFields rest)

end

/-! ### Access -/

/-- The value under a name, if this is an object that has it. -/
def get? (v : Value) (name : String) : Option Value :=
  match v with
  | .object fields => Fields.get? fields name
  | _ => none

def text? : Value → Option String
  | .string s => some s
  | _ => none

/-- The integer of an integer value. -/
def int? : Value → Option Int
  | .number (.int i) => some i
  | _ => none

end Value

end ScriptYard
