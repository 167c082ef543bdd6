import ScriptYard.Document.Node

/-!
# Records of several kinds

Some records come in kinds that have different fields, and one field, the tag, names the kind. As
the tag may stand behind the fields it decides about, all fields are read with the type they have
by themselves (`Content`) before any of them is looked at. An array stands for such a record in
either notation: its first item is the tag, the others are the fields in order.
-/

namespace ScriptYard

/-- What is kept of a node whose place in a record is not known yet. -/
inductive Content where
  /-- A scalar with the type that it has by itself. -/
  | scalar (s : Scalar.Typed)
  /-- An array or an object. -/
  | nested
deriving Repr

namespace Content

def readText : Content → Except ReadError String
  | .scalar (.text s) => .ok s
  | _ => .error .wrongValue

/-- The truth value. -/
def readBool : Content → Except ReadError Bool
  | .scalar (.bool b) => .ok b
  | _ => .error .wrongValue

/-- The number, finite or not. -/
def readFloat : Content → Except ReadError Binary64
  | .scalar (.int i _) => .ok (Binary64.ofInt i)
  | .scalar (.float x) => .ok x
  | _ => .error .wrongValue

end Content

namespace Node

mutual

/-- The content of a node. A tag of the document's own has no place in it. -/
def readContent (src : Source) : Node → Reading Content
  | .scalar (.yaml _ _ (.own _)) => throw .malformed
  | .scalar s => do
    match ← s.typed with
    | .int i signed =>
      -- integers that fit neither signed nor unsigned 64 bits have no content
      if -(twoTo 63) ≤ i && i < twoTo 64 then return .scalar (.int i signed) else throw .wrongValue
    | t => return .scalar t
  | .seq tag items => do
    if tag.isSome then throw .malformed
    readContents (← src.inner) items
    return .nested
  | .map tag entries => do
    if tag.isSome then throw .malformed
    readEntryContents (← src.inner) entries
    return .nested
  | .reference target => do Reading.follow; readContent src target
  | .broken e => throw e

/-- Makes sure that the items of an array have contents. -/
def readContents (src : Source) : List Node → Reading Unit
  | [] => return ()
  | n :: rest => do
    let _ ← readContent src n
    readContents src rest

/-- Makes sure that the entries of an object have contents. -/
def readEntryContents (src : Source) : List (Node × Node) → Reading Unit
  | [] => return ()
  | (k, n) :: rest => do
    let _ ← readContent src k
    let _ ← readContent src n
    readEntryContents src rest

end

end Node

/-- A field of a kind of record: its name, whether the kind cannot do without it, and how its content
changes the record. -/
structure VariantField (σ : Type) where
  /-- The name of the field. -/
  name : String
  /-- Whether the field has to be given. -/
  required : Bool
  /-- The record with the field read. -/
  read : Content → σ → Except ReadError σ

/-- A kind of record. -/
structure Variant (σ : Type) where
  /-- The name that the tag gives. -/
  name : String
  /-- The record before any field is read. -/
  blank : σ
  /-- The fields in the order in which an array gives them. -/
  fields : List (VariantField σ)

namespace Variant

variable {σ : Type}

/-- The kind that a tag names. -/
def named (variants : List (Variant σ)) (n : Node) : Reading (Variant σ) := do
  let name ← n.readText
  match variants.find? (fun v => v.name == name) with
  | some v => return v
  | none => throw (.unknownVariant name)

/-- Reads the entries of an object: the kind, where the tag has been met, and the other fields. -/
def readEntries (tag : String) (variants : List (Variant σ)) (src : Source) :
    (kind : Option (Variant σ)) → List (Node × Node) →
      Reading (Option (Variant σ) × List (Content × Content))
  | kind, [] => return (kind, [])
  | kind, (k, n) :: rest => do
    let key ← k.readContent src
    match key with
    | .scalar (.text name) =>
      if name == tag then
        if kind.isSome then throw (.duplicateField tag)
        readEntries tag variants src (some (← named variants n)) rest
      else
        let c ← n.readContent src
        let (kind, others) ← readEntries tag variants src kind rest
        return (kind, (key, c) :: others)
    | _ =>
      let c ← n.readContent src
      let (kind, others) ← readEntries tag variants src kind rest
      return (kind, (key, c) :: others)

/-- The field that the key of an entry stands for, by its name or by its place in the order. -/
def field? (v : Variant σ) : Content → Except ReadError (Option (VariantField σ))
  | .scalar (.text name) => .ok (v.fields.find? (fun f => f.name == name))
  | .scalar (.int i false) => .ok v.fields[i.toNat]?
  | _ => .error .wrongValue

/-- Reads fields by their keys onto a record. Unknown keys are passed over; a field read before is
refused. -/
def readKeyed (v : Variant σ) : (seen : List String) → σ → List (Content × Content) → Except ReadError σ
  | seen, record, [] =>
    match v.fields.find? (fun f => f.required && !seen.contains f.name) with
    | some f => .error (.missingField f.name)
    | none => .ok record
  | seen, record, (key, c) :: rest => do
    match ← v.field? key with
    | some f =>
      if seen.contains f.name then throw (.duplicateField f.name)
      readKeyed v (f.name :: seen) (← f.read c record) rest
    | none => readKeyed v seen record rest

/-- Reads fields by order onto a record. -/
def readOrdered : List (VariantField σ) → σ → List Content → Except ReadError σ
  | [], record, [] => .ok record
  | [], _, _ :: _ => .error .wrongValue
  | f :: fields, record, [] => if f.required then .error .wrongValue else readOrdered fields record []
  | f :: fields, record, c :: rest => do readOrdered fields (← f.read c record) rest

/-- The record at a node, of the kind that its tag names. A kind without fields takes any keys. -/
def read (tag : String) (variants : List (Variant σ)) (src : Source) : Node → Reading σ
  | .map none entries => do
    let (kind, others) ← readEntries tag variants (← src.inner) none entries
    match kind with
    | none => throw (.missingField tag)
    -- what stands beside the tag of such a kind was read, but nobody asks for it
    | some v => if v.fields.isEmpty then return v.blank else readKeyed v [] v.blank others
  | .seq none items => do
    let src ← src.inner
    match items with
    | [] => throw (.missingField tag)
    | n :: rest =>
      let v ← named variants n
      readOrdered v.fields v.blank (← rest.mapM (Node.readContent src))
  | .reference target => do Reading.follow; read tag variants src target
  | .broken e => throw e
  | .scalar s => do
    let _ ← s.typed
    throw .wrongValue
  | _ => throw .wrongValue

end Variant

end ScriptYard
