import ScriptYard.Script.Comparison

/-!
# Actions

A script is a tree of actions. Leaves call a capability, look for a template in an image, read
text from an image, wait, set a variable or ask for a restart; a condition holds two sequences of
actions and a loop holds one. A kind of action that is not known is kept by its name and fails
when it is reached.

The tree is walked in execution order: `Action.walk` lists an action and everything below it, the
branch for a true condition before the other one.
-/

namespace ScriptYard

/-- A rectangle of an image. -/
structure Region where
  /-- The left edge. -/
  x : Int
  /-- The upper edge. -/
  y : Int
  width : Int
  height : Int
deriving DecidableEq, Repr

/-- A call of an action of a capability. -/
structure CapabilityCall where
  capability : String
  /-- The action of the capability. -/
  action : String
  /-- The parameters, in which variables are replaced. -/
  params : Fields Value
  /-- The variable that takes the result. -/
  storeResult : Option String
deriving DecidableEq, Repr

/-- A search for a template in an image. -/
structure TemplateSearch where
  /-- The template to look for. -/
  templatePath : Option String
  /-- The image to look in. -/
  inputImage : Option String
  /-- The confidence from which the template counts as found. -/
  threshold : Finite64
  /-- The variable that takes the result. -/
  storeResult : Option String
deriving DecidableEq, Repr

/-- The reading of text from an image. -/
structure TextReading where
  /-- The image to read. -/
  inputImage : Option String
  /-- The part of the image to read. -/
  region : Option Region
  /-- The variable that takes the text. -/
  storeResult : Option String
deriving DecidableEq, Repr

/-- What a condition asks. -/
inductive Check where
  /-- Whether a template is found in an image. -/
  | templateMatch (templatePath : String) (threshold : Finite64) (inputImage : Option String)
  | variableCompare (name : String) (op : CompareOperator) (value : Value)
deriving DecidableEq, Repr

/-- An action of a script. -/
inductive Action where
  | call (call : CapabilityCall) (description : Option String)
  /-- Runs one of two sequences. A true condition directly inside a loop may end the loop. -/
  | condition (check : Check) (onTrue onFalse : List Action) (breakOnTrue : Bool)
      (description : Option String)
  /-- Repeats a sequence, pausing for `interval` seconds between two passes. -/
  | loop (interval : Finite64) (maxIterations : Nat) (body : List Action)
      (description : Option String)
  /-- Looks for a template. -/
  | templateMatch (search : TemplateSearch) (description : Option String)
  /-- Reads text from an image. -/
  | readText (reading : TextReading) (description : Option String)
  /-- Waits for so many seconds. -/
  | wait (duration : Finite64) (description : Option String)
  | setVariable (name : String) (value : Value) (description : Option String)
  /-- Ends the run by cancelling it. -/
  | restart (description : Option String)
  /-- An action of an unknown kind. -/
  | unsupported (kind : String)
deriving Repr, Inhabited

namespace Action

/-- The threshold of a search that names none: 0.8. -/
def defaultThreshold : Finite64 := ⟨false, 7205759403792794, -53, by decide⟩

/-- The canonical name of the kind of an action. -/
def kind : Action → String
  | .call .. => "plugin_call"
  | .condition .. => "condition"
  | .loop .. => "loop"
  | .templateMatch .. => "template_match"
  | .readText .. => "ocr"
  | .wait .. => "wait"
  | .setVariable .. => "set_variable"
  | .restart .. => "restart"
  | .unsupported kind => kind

def description? : Action → Option String
  | .call _ d | .condition _ _ _ _ d | .loop _ _ _ d | .templateMatch _ d | .readText _ d
  | .wait _ d | .setVariable _ _ d | .restart d => d
  | .unsupported _ => none

/-- Whether an action is of a kind that holds no sequences. -/
def isLeaf : Action → Bool
  | .condition .. | .loop .. => false
  | _ => true

/-- The actions directly below an action, in execution order. -/
def children : Action → List Action
  | .condition _ onTrue onFalse _ _ => onTrue ++ onFalse
  | .loop _ _ body _ => body
  | _ => []

mutual

/-- The height of the tree below an action; a leaf has one. -/
def depth : Action → Nat
  | .condition _ onTrue onFalse _ _ => 1 + max (depthOfList onTrue) (depthOfList onFalse)
  | .loop _ _ body _ => 1 + depthOfList body
  | _ => 1

/-- The greatest height in a sequence; nothing has none. -/
def depthOfList : List Action → Nat
  | [] => 0
  | a :: rest => max (depth a) (depthOfList rest)

end

mutual

/-- An action and everything below it, in execution order. -/
def walk : Action → List Action
  | .condition check onTrue onFalse brk d =>
    .condition check onTrue onFalse brk d :: (walkList onTrue ++ walkList onFalse)
  | .loop interval n body d => .loop interval n body d :: walkList body
  | a => [a]

/-- The actions of a sequence and everything below them, in execution order. -/
def walkList : List Action → List Action
  | [] => []
  | a :: rest => walk a ++ walkList rest

end

theorem mem_walk_self (a : Action) : a ∈ a.walk := by
  cases a <;> exact List.mem_cons_self

theorem mem_walkList {a b : Action} {actions : List Action} (h_a : a ∈ actions) (h_b : b ∈ a.walk) :
    b ∈ walkList actions := by
  induction actions with
  | nil => cases h_a
  | cons c rest ih =>
    rcases List.mem_cons.mp h_a with rfl | h_a
    · exact List.mem_append_left _ h_b
    · exact List.mem_append_right _ (ih h_a)

end Action

end ScriptYard
