import ScriptYard.Script.Action
import ScriptYard.Value.Read

/-!
# Actions in documents

A document writes an action as an object whose `type` names the kind. `Action.ofValue` reads it:
four kinds have a second, older name, a `plugin` field is another spelling of `capability`, fields
that no kind knows are passed over, and an object of an unknown type is an unsupported action. An
object is read field by field in key order, and only then is a missing field noticed; an error
inside an action of a known kind is wrapped in the kind as the document spells it.

`Action.toDocument` writes the object with the fields in a fixed order, always under the canonical
kind; `Action.toValue` is the same object with the fields in key order.
-/

namespace ScriptYard

/-! ### Regions -/

namespace Region

/-- The region of an array of four integers. -/
def ofValue : Value → Except ReadError Region
  | .array items => do
    match ← items.mapM Value.readInt64 with
    | [x, y, width, height] => return ⟨x, y, width, height⟩
    | _ => throw .wrongValue
  | _ => .error .wrongValue

/-- The array of the four integers. -/
def toValue (r : Region) : Value :=
  .array [.int r.x, .int r.y, .int r.width, .int r.height]

end Region

/-! ### Conditions -/

namespace CompareOperator

/-- Whether a value stands for nothing: null, or an object without fields. -/
def isVoid : Value → Bool
  | .null | .object [] => true
  | _ => false

/-- The operator of a text, or of an object whose one field has that name and stands for nothing. -/
def ofValue : Value → Except ReadError CompareOperator
  | .string s => match ofSymbol? s with
    | some op => .ok op
    | none => .error (.unknownVariant s)
  | .object [(s, v)] => match ofSymbol? s with
    | some op => if isVoid v then .ok op else .error .wrongValue
    | none => .error (.unknownVariant s)
  | _ => .error .wrongValue

end CompareOperator

namespace Check

/-- The two things that a condition can ask. -/
inductive Kind where
  | templateMatch
  | variableCompare
deriving DecidableEq

/-- The kind of a check by its name, or by its place in the list of the two. -/
def Kind.ofValue : Value → Except ReadError Kind
  | .string "template_match" => .ok .templateMatch
  | .string "variable_compare" => .ok .variableCompare
  | .string s => .error (.unknownVariant s)
  | .number (.int 0) => .ok .templateMatch
  | .number (.int 1) => .ok .variableCompare
  | _ => .error .wrongValue

/-- The check that the fields of a condition describe. -/
def ofFields (fields : Fields Value) : Except ReadError Check := do
  let kind ← Fields.required "condition_type" (← fields.read? "condition_type" Kind.ofValue)
  match kind with
  -- the fields are read in the order of their names, and one that is missing is told last
  | .templateMatch =>
    let image ← fields.readText? "input_image"
    let path ← fields.read? "template_path" Value.readText
    let threshold ← fields.read? "threshold" Value.readFloat
    let path ← Fields.required "template_path" path
    return .templateMatch path (threshold.getD Action.defaultThreshold) image
  | .variableCompare =>
    let op ← fields.read? "operator" CompareOperator.ofValue
    let value := (fields.get? "value").getD .null
    let name ← Fields.required "variable" (← fields.read? "variable" Value.readText)
    return .variableCompare name (op.getD .eq) value

end Check

namespace Action

/-! ### Reading -/

/-- The names of kinds that documents use; an older name stands behind its canonical one. -/
inductive KnownKind where
  | call | condition | loop | templateMatch | readText | wait | setVariable | restart
deriving DecidableEq, Repr

def KnownKind.ofName? : String → Option KnownKind
  | "plugin_call" | "plugin_action" => some .call
  | "condition" => some .condition
  | "loop" | "polling_loop" => some .loop
  | "template_match" => some .templateMatch
  | "ocr" | "ocr_text" => some .readText
  | "wait" => some .wait
  | "set_variable" => some .setVariable
  | "restart" | "restart_script" => some .restart
  | _ => none

/-- The readings of the fields of an object as sequences of actions, by name. -/
abbrev Sequences := List (String × Except ReadError (List Action))

/-- The sequence under a name; an absent one is empty. -/
def sequence (sequences : Sequences) (name : String) : Except ReadError (List Action) :=
  match sequences.find? (fun s => s.1 == name) with
  | some s => s.2
  | none => .ok []

/-- The action of a known kind that the fields of an object describe. -/
def ofFields (fields : Fields Value) (sequences : Sequences) :
    KnownKind → Except ReadError Action
  -- again in the order of the names, so that of several faults the first one is told
  | .call => do
    let action ← fields.read? "action" Value.readText
    let capability ← fields.read? "capability" Value.readText
    let description ← fields.readText? "description"
    let params ← fields.read? "params" Value.readObject
    -- `plugin` is an older name of the same field
    if capability.isSome && fields.contains "plugin" then throw (.duplicateField "capability")
    let plugin ← fields.read? "plugin" Value.readText
    let storeResult ← fields.readText? "store_result"
    let capability ← Fields.required "capability" (capability <|> plugin)
    let action ← Fields.required "action" action
    return .call ⟨capability, action, params.getD [], storeResult⟩ description
  | .condition => do
    let breakOnTrue ← fields.read? "break_on_true" Value.readBool
    let description ← fields.readText? "description"
    let onFalse ← sequence sequences "on_false"
    let onTrue ← sequence sequences "on_true"
    let check ← Check.ofFields fields
    return .condition check onTrue onFalse (breakOnTrue.getD false) description
  | .loop => do
    let body ← sequence sequences "actions"
    let description ← fields.readText? "description"
    let interval ← fields.read? "interval" Value.readFloat
    let maxIterations ← fields.read? "max_iterations" (Value.readNat 64)
    return .loop (interval.getD Finite64.one) (maxIterations.getD 100) body description
  | .templateMatch => do
    let description ← fields.readText? "description"
    let image ← fields.readText? "input_image"
    let storeResult ← fields.readText? "store_result"
    let path ← fields.readText? "template_path"
    let threshold ← fields.read? "threshold" Value.readFloat
    return .templateMatch ⟨path, image, threshold.getD defaultThreshold, storeResult⟩ description
  | .readText => do
    let description ← fields.readText? "description"
    let image ← fields.readText? "input_image"
    let region ← match fields.get? "region" with
      | none | some .null => pure none
      | some v => do pure (some (← Region.ofValue v))
    let storeResult ← fields.readText? "store_result"
    return .readText ⟨image, region, storeResult⟩ description
  | .wait => do
    let description ← fields.readText? "description"
    let duration ← fields.read? "duration" Value.readFloat
    return .wait (duration.getD Finite64.one) description
  | .setVariable => do
    let description ← fields.readText? "description"
    let name ← Fields.required "name" (← fields.read? "name" Value.readText)
    return .setVariable name ((fields.get? "value").getD .null) description
  | .restart => do return .restart (← fields.readText? "description")

/-- The names of the kinds that are known. Under any other name an object is an action of an unknown kind, whatever
else it holds. -/
def knownNames : List String :=
  ["plugin_call", "plugin_action", "condition", "loop", "polling_loop", "template_match", "ocr", "ocr_text", "wait",
    "set_variable", "restart", "restart_script"]

/-- The action that the fields of an object describe under a name. -/
def ofNamed (fields : Fields Value) (sequences : Sequences) (name : String) : Except ReadError Action :=
  match KnownKind.ofName? name with
  | some kind => ofFields fields sequences kind
  | none => .error (.unknownVariant name)

/-- The action that an object stands for. -/
def ofObject (fields : Fields Value) (sequences : Sequences) : Except ReadError Action :=
  match (fields.get? "type").bind Value.text? with
  | none => .error (.missingField "type")
  | some name =>
    if knownNames.contains name then
      match ofNamed fields sequences name with
      | .ok a => .ok a
      | .error e => .error (.inAction name e)
    else .ok (.unsupported name)

/-- The two lists of names are the same. -/
theorem KnownKind.isSome_ofName? (name : String) : (ofName? name).isSome = knownNames.contains name := by
  unfold ofName? knownNames
  split <;> simp_all

/-- What becomes of an object is decided by the kind of its name: one without a kind is unsupported. -/
theorem ofObject_eq (fields : Fields Value) (sequences : Sequences) :
    ofObject fields sequences =
      match (fields.get? "type").bind Value.text? with
      | none => .error (.missingField "type")
      | some name => match KnownKind.ofName? name with
        | none => .ok (.unsupported name)
        | some kind => match ofFields fields sequences kind with
          | .ok a => .ok a
          | .error e => .error (.inAction name e) := by
  unfold ofObject ofNamed
  cases (fields.get? "type").bind Value.text? with
  | none => rfl
  | some name =>
    simp only [← KnownKind.isSome_ofName?]
    cases KnownKind.ofName? name <;> rfl

mutual

/-- The action that a value stands for. -/
def ofValue : Value → Except ReadError Action
  | .object fields => ofObject fields (sequencesOfFields fields)
  | _ => .error (.missingField "type")

/-- The readings of fields as sequences of actions. -/
def sequencesOfFields : List (String × Value) → Sequences
  | [] => []
  | (n, v) :: rest => (n, listOfValue v) :: sequencesOfFields rest

/-- The actions that an array stands for. -/
def listOfValue : Value → Except ReadError (List Action)
  | .array items => listOfItems items
  | _ => .error .wrongValue

/-- The actions of the items of an array. -/
def listOfItems : List Value → Except ReadError (List Action)
  | [] => .ok []
  | v :: rest => do
    let a ← ofValue v
    return a :: (← listOfItems rest)

end

/-! ### Writing -/

/-- A field that is written only where it has a value. -/
def optionalField (name : String) : Option String → List (String × Value)
  | some s => [(name, .string s)]
  | none => []

def checkFields : Check → List (String × Value)
  | .templateMatch path threshold image =>
    [("condition_type", .string "template_match"), ("template_path", .string path),
      ("threshold", .float threshold)] ++ optionalField "input_image" image
  | .variableCompare name op value =>
    [("condition_type", .string "variable_compare"), ("variable", .string name),
      ("operator", .string op.symbol), ("value", value)]

mutual

/-- The object that a document writes for an action. -/
def toDocument : Action → Value
  | .call c d => .object ([("type", .string "plugin_call"), ("capability", .string c.capability),
      ("action", .string c.action), ("params", .object c.params)] ++
      optionalField "store_result" c.storeResult ++ optionalField "description" d)
  | .condition check onTrue onFalse breakOnTrue d => .object ([("type", .string "condition")] ++
      checkFields check ++ [("on_true", .array (listToDocument onTrue)),
      ("on_false", .array (listToDocument onFalse)), ("break_on_true", .bool breakOnTrue)] ++
      optionalField "description" d)
  | .loop interval n body d => .object ([("type", .string "loop"), ("interval", .float interval),
      ("max_iterations", .nat n), ("actions", .array (listToDocument body))] ++
      optionalField "description" d)
  | .templateMatch s d => .object ([("type", .string "template_match")] ++
      optionalField "template_path" s.templatePath ++ optionalField "input_image" s.inputImage ++
      [("threshold", .float s.threshold)] ++ optionalField "store_result" s.storeResult ++
      optionalField "description" d)
  | .readText r d => .object ([("type", .string "ocr")] ++ optionalField "input_image" r.inputImage ++
      (match r.region with
        | some region => [("region", region.toValue)]
        | none => []) ++
      optionalField "store_result" r.storeResult ++ optionalField "description" d)
  | .wait duration d => .object ([("type", .string "wait"), ("duration", .float duration)] ++
      optionalField "description" d)
  | .setVariable name value d => .object ([("type", .string "set_variable"), ("name", .string name),
      ("value", value)] ++ optionalField "description" d)
  | .restart d => .object ([("type", .string "restart")] ++ optionalField "description" d)
  | .unsupported kind => .object [("type", .string "unsupported"), ("kind", .string kind)]

/-- The objects that a document writes for a sequence of actions. -/
def listToDocument : List Action → List Value
  | [] => []
  | a :: rest => toDocument a :: listToDocument rest

end

/-- The value of an action, fields in key order. -/
def toValue (a : Action) : Value := a.toDocument.sorted

end Action

end ScriptYard
