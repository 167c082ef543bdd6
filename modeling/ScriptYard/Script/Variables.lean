import ScriptYard.Value.Basic

/-!
# Variables of a script

The variables of one run are named values (`Fields Value`). A string that consists of a dollar
sign and a non-empty name is a reference to the variable of that name (`reference?`).
`Variables.resolve` puts the bound value in the place of every reference inside a value, at any
depth, and leaves a reference to an unbound name as the string it is. It makes one pass: a bound
value is taken as it stands, references inside it included.
-/

namespace ScriptYard

/-- The variables of a run. -/
abbrev Variables := Fields Value

/-- The name that a string refers to, if it is a reference. -/
def reference? (text : String) : Option String :=
  match text.toList with
  | '$' :: c :: rest => some (String.ofList (c :: rest))
  | _ => none

/-- The text without a dollar sign in front, where it is a reference; else the text itself. -/
def referencedName (text : String) : String := (reference? text).getD text

namespace Variables

/-- The name under which the horizontal place of a match is kept. -/
def matchX : String := "match_x"

/-- The name under which the vertical place of a match is kept. -/
def matchY : String := "match_y"

/-- The name under which the confidence of a match is kept. -/
def matchConfidence : String := "match_confidence"

/-- The name under which the last screenshot is kept. -/
def screenshot : String := "screenshot"

/-- The value that replaces a string: the bound value of a reference, or the string. -/
def resolveText (vars : Variables) (text : String) : Value :=
  match (reference? text).bind (Fields.get? vars) with
  | some bound => bound
  | none => .string text

mutual

/-- A value with the bound value in the place of every reference. -/
def resolve (vars : Variables) : Value → Value
  | .string s => resolveText vars s
  | .array items => .array (resolveItems vars items)
  | .object fields => .object (resolveFields vars fields)
  | v => v

/-- `Variables.resolve` item by item. -/
def resolveItems (vars : Variables) : List Value → List Value
  | [] => []
  | v :: rest => resolve vars v :: resolveItems vars rest

/-- `Variables.resolve` under every name; the names stay. -/
def resolveFields (vars : Variables) : List (String × Value) → List (String × Value)
  | [] => []
  | (n, v) :: rest => (n, resolve vars v) :: resolveFields vars rest

end

/-- The value that a string stands for where a reference has to be bound: the bound value of a
reference, nothing for a reference to an unbound name, and any other string itself. -/
def lookup? (vars : Variables) (text : String) : Option Value :=
  match reference? text with
  | some name => Fields.get? vars name
  | none => some (.string text)

end Variables

end ScriptYard
