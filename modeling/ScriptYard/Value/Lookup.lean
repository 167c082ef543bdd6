import ScriptYard.Value.Basic

/-!
# Looking into descriptions

A description is a value of which every part may be left out. The functions here look for the part
under a name and take one that is missing, or is not of the type asked for, for blank.
-/

namespace ScriptYard

namespace Value

/-- The value under a name; null where there is none. -/
def field (v : Value) (name : String) : Value := (v.get? name).getD .null

/-- The text under a name. -/
def textAt? (v : Value) (name : String) : Option String := (v.get? name).bind text?

/-- The text under a name; empty where there is none. -/
def textAt (v : Value) (name : String) : String := (v.textAt? name).getD ""

/-- The integer under a name. -/
def intAt? (v : Value) (name : String) : Option Int := (v.get? name).bind int?

/-- The integer under a name; zero where there is none. -/
def intAt (v : Value) (name : String) : Int := (v.intAt? name).getD 0

/-- The integer under a name as a natural number. -/
def natAt? (v : Value) (name : String) : Option Nat := (v.intAt? name).map Int.toNat

/-- The integer under a name as a natural number; zero where there is none. -/
def natAt (v : Value) (name : String) : Nat := (v.intAt name).toNat

/-- The floating-point number under a name; zero where there is none. -/
def floatAt (v : Value) (name : String) : Finite64 :=
  match v.get? name with
  | some (.number n) => n.toFloat
  | _ => .zero false

/-- Whether true stands under a name. -/
def isTrueAt (v : Value) (name : String) : Bool := v.get? name == some (.bool true)

/-- The items of the array under a name. -/
def itemsAt (v : Value) (name : String) : List Value :=
  match v.get? name with
  | some (.array items) => items
  | _ => []

/-- The texts in the array under a name. -/
def textsAt (v : Value) (name : String) : List String := (v.itemsAt name).filterMap text?

/-- The fields of the object under a name. -/
def fieldsAt (v : Value) (name : String) : Fields Value :=
  match v.get? name with
  | some (.object fields) => fields
  | _ => []

end Value

end ScriptYard
