import ScriptYard.Document.ReadError
import ScriptYard.Value.Basic

/-!
# Reading out of values

The contents of a `Value` as Lean data. A value of another type than the one asked for is a
`ReadError.wrongValue`; a floating-point place takes an integer, an integer place takes no
floating-point number.

`Value.sorted` brings the fields of all objects into key order. Writers list fields in the order
that reads best and sort them where order counts for nothing.
-/

namespace ScriptYard

namespace Value

def readText : Value → Except ReadError String
  | .string s => .ok s
  | _ => .error .wrongValue

/-- The text of a string, or nothing for null. -/
def readOptionalText : Value → Except ReadError (Option String)
  | .null => .ok none
  | v => do return some (← v.readText)

/-- The truth value. -/
def readBool : Value → Except ReadError Bool
  | .bool b => .ok b
  | _ => .error .wrongValue

/-- The number as a floating-point number. -/
def readFloat : Value → Except ReadError Finite64
  | .number n => .ok n.toFloat
  | _ => .error .wrongValue

/-- The integer, between `low` and `high`. -/
def readInt (low high : Int) : Value → Except ReadError Int
  | .number (.int i) => if low ≤ i && i ≤ high then .ok i else .error .wrongValue
  | _ => .error .wrongValue

/-- The natural number, below `2 ^ bits`. -/
def readNat (bits : Nat) (v : Value) : Except ReadError Nat := do
  return (← v.readInt 0 (twoTo bits - 1)).toNat

/-- The integer of 64 bits with sign. -/
def readInt64 (v : Value) : Except ReadError Int := v.readInt (-(twoTo 63)) (twoTo 63 - 1)

def readObject : Value → Except ReadError (Fields Value)
  | .object fields => .ok fields
  | _ => .error .wrongValue

/-- The items of an array. -/
def readArray : Value → Except ReadError (List Value)
  | .array items => .ok items
  | _ => .error .wrongValue

mutual

/-- The value with the fields of every object in key order; of two fields of one name the later
counts. -/
def sorted : Value → Value
  | .array items => .array (sortedItems items)
  | .object fields => .object (Fields.ofList (sortedFields fields))
  | v => v

/-- `Value.sorted` item by item. -/
def sortedItems : List Value → List Value
  | [] => []
  | v :: rest => sorted v :: sortedItems rest

/-- `Value.sorted` under every name. -/
def sortedFields : List (String × Value) → List (String × Value)
  | [] => []
  | (n, v) :: rest => (n, sorted v) :: sortedFields rest

end

end Value

namespace Fields

/-- The reading of the value under a name, if there is one. -/
def read? {α : Type} (fields : Fields Value) (name : String) (read : Value → Except ReadError α) :
    Except ReadError (Option α) :=
  match fields.get? name with
  | some v => do return some (← read v)
  | none => .ok none

/-- The reading of an optional text under a name; null counts as absent. -/
def readText? (fields : Fields Value) (name : String) : Except ReadError (Option String) :=
  match fields.get? name with
  | some v => v.readOptionalText
  | none => .ok none

/-- What was read under a name that has to be there. -/
def required {α : Type} (name : String) : Option α → Except ReadError α
  | some a => .ok a
  | none => .error (.missingField name)

end Fields

end ScriptYard
