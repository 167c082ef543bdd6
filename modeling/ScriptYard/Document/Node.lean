import ScriptYard.Document.Plain
import ScriptYard.Document.Reading

/-!
# Documents

A document of either notation, JSON or YAML, is read into a tree of `Node`s. The tree reaches as
far as the text could be read: where the notation is broken, the tree ends in a `Node.broken`.
Whoever reads contents out of a tree does so in the order of the document and fails at the first
broken node, so that of a fault in the contents and a later fault in the notation the former is
reported.

JSON gives a scalar its type by its notation, YAML leaves it to the reader: a scalar without
quotes has a text, and what the text stands for depends on the place (`Scalar`). A text field
takes `123` as the text it is; inside a `Value` it is a number.

What differs between notations in the reading of contents is in `Source`: how deep arrays and
objects may be nested, whether an array may stand for a record, its items being the fields in
order, and what it means when there are more items than fields.
-/

namespace ScriptYard

/-- The tag of a YAML node, as far as it matters to a reader. -/
inductive Tag where
  /-- No tag, or one that says nothing about the type. -/
  | none
  /-- The tag of a truth value. -/
  | bool
  /-- The tag of an integer. -/
  | int
  /-- The tag of a floating-point number. -/
  | float
  /-- The tag of null. -/
  | null
  /-- A string tag or any other tag of the standard prefix. -/
  | other
  /-- A tag of the document's own, which no field expects. -/
  | own (name : String)
  /-- A tag of the document's own whose name is no text. -/
  | illegible
deriving DecidableEq, Repr, Inhabited

/-- How a YAML scalar is written. -/
inductive ScalarForm where
  /-- Without quotes. -/
  | plain
  /-- As a literal block. -/
  | literal
  /-- In quotes or as a folded block. -/
  | quoted
deriving DecidableEq, Repr

/-- A scalar of a document. -/
inductive Scalar where
  /-- The JSON null. -/
  | null
  /-- A JSON truth value. -/
  | bool (b : Bool)
  /-- A JSON number. -/
  | number (n : Number)
  /-- A JSON string. -/
  | string (s : String)
  /-- A JSON scalar that is complete but has no value, such as a number out of range. -/
  | valueless
  /-- A YAML scalar. -/
  | yaml (text : String) (form : ScalarForm) (tag : Tag)
deriving DecidableEq, Repr, Inhabited

/-- A part of a document. -/
inductive Node where
  | scalar (s : Scalar)
  /-- An array, with the name of its own tag if it has one. -/
  | seq (tag : Option String) (items : List Node)
  /-- An object, with the name of its own tag if it has one. -/
  | map (tag : Option String) (entries : List (Node × Node))
  /-- A reference to a part of the document. -/
  | reference (target : Node)
  /-- The place where the text could not be read on. -/
  | broken (error : ReadError)
deriving Repr, Inhabited

/-- A document: its contents, and what is wrong behind them, if anything is. -/
structure Document where
  /-- The contents. -/
  root : Node
  /-- A fault in the text behind the contents. -/
  trailing : Option ReadError
  /-- How many references may be followed in reading the contents. -/
  references : Nat := 0
deriving Repr

/-- What the notation of a document decides about the reading of its contents. -/
structure Source where
  /-- How many arrays and objects may lie inside one another. -/
  depth : Nat
  /-- The fault of an array with more items than the record it stands for has fields; there is none
  where no array stands for a record. -/
  excess : Option ReadError
deriving Repr

namespace Source

/-- JSON text. -/
def json : Source := ⟨127, some .malformed⟩

/-- YAML text. -/
def yaml : Source := ⟨128, none⟩

/-- A value that has been read before; what lies in it may be as deep as it is. -/
def value (v : Value) : Source := ⟨v.depth, some .wrongValue⟩

/-- The same source one level further in. -/
def inner (src : Source) : Except ReadError Source :=
  match src.depth with
  | 0 => .error .tooDeep
  | d + 1 => .ok { src with depth := d }

end Source

namespace Scalar

/-! ### Scalars in their places -/

/-- The text of a scalar where a string is expected. -/
def readText : Scalar → Except ReadError String
  | .string s => .ok s
  | .yaml text _ _ => .ok text
  | .valueless => .error .malformed
  | _ => .error .wrongValue

/-- Whether the text of a YAML scalar may be read as a value of the type that goes with `tag`. -/
def isTyped (form : ScalarForm) (tag expected : Tag) : Bool :=
  form == .plain || (form == .literal && tag == expected)

/-- The truth value of a scalar. -/
def readBool : Scalar → Except ReadError Bool
  | .bool b => .ok b
  | .yaml text form tag =>
    if isTyped form tag .bool then
      match Plain.readBool? text with
      | some b => .ok b
      | none => .error .wrongValue
    else .error .wrongValue
  | .valueless => .error .malformed
  | _ => .error .wrongValue

/-- The integer of a scalar, between `low` and `high`. -/
def readInt (low high : Int) (s : Scalar) : Except ReadError Int :=
  let within (i : Int) : Except ReadError Int :=
    if low ≤ i && i ≤ high then .ok i else .error .wrongValue
  match s with
  | .number (.int i) => within i
  | .yaml text form tag =>
    if isTyped form tag .int then
      match Plain.readInteger? text.toList with
      | some i => within i
      | none => .error .wrongValue
    else .error .wrongValue
  | .valueless => .error .malformed
  | _ => .error .wrongValue

/-- Whether a scalar stands for an absent optional value. -/
def isAbsent : Scalar → Except ReadError Bool
  | .null => .ok true
  | .yaml text form tag =>
    if form != .plain then .ok false
    else match tag with
      | .none => .ok (text.isEmpty || Plain.isNull text)
      | .null => if Plain.isNull text then .ok true else .error .wrongValue
      | _ => .ok false
  | _ => .ok false

/-- Whether a scalar is an empty place, which stands for an array or object without contents. -/
def isBlank : Scalar → Bool
  | .yaml text form _ => form == .plain && text.isEmpty
  | _ => false

/-- A scalar with the type that it has by itself. Floating-point numbers that are not finite are
kept, as values cannot. -/
inductive Typed where
  | null
  | bool (b : Bool)
  /-- An integer, and whether it is written with a minus sign. -/
  | int (i : Int) (signed : Bool)
  | float (x : Binary64)
  | text (s : String)
deriving Repr

/-- The integer that a text writes. -/
def Typed.ofInteger (text : String) (i : Int) : Typed := .int i (text.toList.head? == some '-')

/-- The type that the text of an unquoted scalar has. -/
def Typed.ofPlain (text : String) : Typed :=
  match Plain.ofText text with
  | .null => .null
  | .bool b => .bool b
  | .int i => .ofInteger text i
  | .float x => .float x
  | .text => .text text

/-- The type that a scalar has by itself. A tag forces its type; a tag of the document's own is no
value at all. -/
def typed : Scalar → Except ReadError Typed
  | .null => .ok .null
  | .bool b => .ok (.bool b)
  | .number (.int i) => .ok (.int i (i < 0))
  | .number (.float x) => .ok (.float (.finite x))
  | .string s => .ok (.text s)
  | .valueless => .error .malformed
  | .yaml text form tag =>
    match tag with
    | .none => .ok (if form == .plain then Typed.ofPlain text else .text text)
    | .bool => match Plain.readBool? text with
      | some b => .ok (.bool b)
      | none => .error .wrongValue
    | .int => match (Plain.readInteger? text.toList).filter Plain.fits128 with
      | some i => .ok (.ofInteger text i)
      | none => .error .wrongValue
    | .float => match Plain.readFloat? text.toList with
      | some x => .ok (.float x)
      | none => .error .wrongValue
    | .null => if Plain.isNull text then .ok .null else .error .wrongValue
    | .illegible => .ok (if form == .plain then Typed.ofPlain text else .text text)
    | .other => .ok (.text text)
    | .own _ => .error .wrongValue

/-- The value of a scalar. An integer outside 64 bits is no value, and a floating-point number that
is not finite is null. -/
def readValue (s : Scalar) : Except ReadError Value := do
  match ← s.typed with
  | .null => return .null
  | .bool b => return .bool b
  | .int i _ => if -(twoTo 63) ≤ i && i < twoTo 64 then return .int i else throw .malformed
  | .float x => return .ofBinary64 x
  | .text t => return .string t

end Scalar

namespace Node

mutual

def ofValue : Value → Node
  | .null => .scalar .null
  | .bool b => .scalar (.bool b)
  | .number n => .scalar (.number n)
  | .string s => .scalar (.string s)
  | .array items => .seq none (ofItems items)
  | .object fields => .map none (ofEntries fields)

/-- The nodes of the items of an array. -/
def ofItems : List Value → List Node
  | [] => []
  | v :: rest => ofValue v :: ofItems rest

/-- The entries of the fields of an object. -/
def ofEntries : List (String × Value) → List (Node × Node)
  | [] => []
  | (name, v) :: rest => (.scalar (.string name), ofValue v) :: ofEntries rest

end

/-! ### Contents of a node

Every reader fails at a broken node with the fault that broke it. -/

def readScalar : Node → Reading Scalar
  | .scalar s => return s
  | .reference target => do Reading.follow; target.readScalar
  | .broken e => throw e
  | _ => throw .wrongValue

/-- The text of a node where a string is expected. -/
def readText (n : Node) : Reading String := do (← n.readScalar).readText

/-- The truth value of a node. -/
def readBool (n : Node) : Reading Bool := do (← n.readScalar).readBool

/-- The integer of a node, between `low` and `high`. -/
def readInt (low high : Int) (n : Node) : Reading Int := do
  (← n.readScalar).readInt low high

/-- The natural number of a node, below `2 ^ bits`. -/
def readNat (bits : Nat) (n : Node) : Reading Nat := do
  return (← n.readInt 0 (twoTo bits - 1)).toNat

/-- What a name of a set of names stands for. -/
def chosen {α : Type} (ofName? : String → Option α) (name : String) : Reading α :=
  match ofName? name with
  | some a => return a
  | none => throw (.unknownVariant name)

/-- One of a set of names: the name itself, in JSON also an object whose one field has the name and
is null, in YAML also an empty scalar under a tag of the name. -/
def readChoice {α : Type} (ofName? : String → Option α) : Node → Reading α
  | .scalar (.yaml text form (.own tag)) => do
    let a ← chosen ofName? tag
    if form == .plain && (text.isEmpty || Plain.isNull text) then return a else throw .wrongValue
  -- the name in the tag is looked at before what stands under it
  | .seq (some tag) _ | .map (some tag) _ => do
    let _ ← chosen ofName? tag
    throw .wrongValue
  | .map none [(.scalar (.string name), content)] => do
    let a ← chosen ofName? name
    match content with
    | .scalar .null => return a
    | _ => throw .wrongValue
  | .reference target => do Reading.follow; target.readChoice ofName?
  | n => do chosen ofName? (← n.readText)

/-- A node that may be absent or null. -/
def readOptional {α : Type} (read : Node → Reading α) : Node → Reading (Option α)
  | .scalar s => do if ← s.isAbsent then return none else return some (← read (.scalar s))
  | .reference target => do Reading.follow; target.readOptional read
  | n => do return some (← read n)

mutual

/-- Passes over a node that nothing reads. Only a break in the text is noticed; references are not
followed. -/
def skip : Node → Reading Unit
  | .scalar _ => return ()
  | .seq _ items => skipItems items
  | .map _ entries => skipEntries entries
  | .reference _ => return ()
  | .broken e => throw e

/-- `Node.skip` item by item. -/
def skipItems : List Node → Reading Unit
  | [] => return ()
  | n :: rest => do skip n; skipItems rest

/-- `Node.skip` entry by entry. -/
def skipEntries : List (Node × Node) → Reading Unit
  | [] => return ()
  | (k, v) :: rest => do skip k; skip v; skipEntries rest

end

mutual

/-- The value of a node. Of a field given twice the later one counts. -/
def readValue (src : Source) : Node → Reading Value
  | .scalar s => s.readValue
  | .seq tag items => do
    if tag.isSome then throw .wrongValue
    return .array (← readValues (← src.inner) items)
  | .map tag entries => do
    if tag.isSome then throw .wrongValue
    return .object (Fields.ofList (← readValueEntries (← src.inner) entries))
  | .reference target => do Reading.follow; readValue src target
  | .broken e => throw e

/-- The values of the items of an array. -/
def readValues (src : Source) : List Node → Reading (List Value)
  | [] => return []
  | n :: rest => do
    let v ← readValue src n
    return v :: (← readValues src rest)

/-- The values of the entries of an object. -/
def readValueEntries (src : Source) : List (Node × Node) → Reading (List (String × Value))
  | [] => return []
  | (k, n) :: rest => do
    let name ← readText k
    let v ← readValue src n
    return (name, v) :: (← readValueEntries src rest)

end

/-- The object of named values at a node; an empty place is an empty object. -/
def readFields (src : Source) : Node → Reading (Fields Value)
  | .map _ entries => do return Fields.ofList (← readValueEntries (← src.inner) entries)
  | .scalar s => if s.isBlank then return [] else throw (if s == .valueless then .malformed else .wrongValue)
  | .seq _ _ => throw .wrongValue
  | .reference target => do Reading.follow; readFields src target
  | .broken e => throw e

/-- The list at a node, item by item; an empty place is an empty list. -/
def readList {α : Type} (read : Source → Node → Reading α) (src : Source) :
    Node → Reading (List α)
  | .seq _ items => do
    let src ← src.inner
    items.mapM (read src)
  | .scalar s => if s.isBlank then return [] else throw (if s == .valueless then .malformed else .wrongValue)
  | .map _ _ => throw .wrongValue
  | .reference target => do Reading.follow; readList read src target
  | .broken e => throw e

/-! ### Records -/

end Node

/-- A field of a record of type `σ`: its name, whether the record cannot do without it, and how the
node at its place changes the record. -/
structure RecordField (σ : Type) where
  /-- The name of the field. -/
  name : String
  /-- Whether the field has to be given. -/
  required : Bool
  /-- The record with the field read. -/
  read : Source → Node → σ → Reading σ

/-- The fields of a record in the order in which an array gives them, and the record before any
field is read. -/
structure RecordShape (σ : Type) where
  /-- The fields in order. -/
  fields : List (RecordField σ)
  /-- The record with no field given. -/
  blank : σ

namespace RecordShape

variable {σ : Type}

/-- Reads the entries of an object onto a record. Unknown names are passed over; a name read
before is refused. -/
def readEntries (shape : RecordShape σ) (src : Source) :
    (seen : List String) → σ → List (Node × Node) → Reading (List String × σ)
  | seen, record, [] => return (seen, record)
  | seen, record, (k, n) :: rest => do
    let name ← k.readText
    match shape.fields.find? (fun f => f.name == name) with
    | some field =>
      if seen.contains name then throw (.duplicateField name)
      readEntries shape src (name :: seen) (← field.read src n record) rest
    | none =>
      -- what stands under an unknown name has to be sound all the same
      n.skip
      readEntries shape src seen record rest

/-- The record of an object: entries in their order, then the required fields that are missing. -/
def readMap (shape : RecordShape σ) (src : Source) (entries : List (Node × Node)) :
    Reading σ := do
  let (seen, record) ← readEntries shape src [] shape.blank entries
  match shape.fields.find? (fun f => f.required && !seen.contains f.name) with
  | some f => throw (.missingField f.name)
  | none => return record

/-- Reads the items of an array onto the fields in order. Items beyond the last field are a fault,
found when all of them have been passed over. -/
def readItems (src : Source) (excess : ReadError) :
    List (RecordField σ) → σ → List Node → Reading σ
  | [], record, [] => return record
  | [], _, n :: rest => do
    Node.skipItems (n :: rest)
    throw excess
  -- too few items: only fields that have a default may be left out
  | f :: fields, record, [] =>
    if f.required then throw .wrongValue else readItems src excess fields record []
  | f :: fields, record, n :: rest => do
    readItems src excess fields (← f.read src n record) rest

/-- The record at a node: an object by names, an array by order where the source allows it, or an
empty place. -/
def read (shape : RecordShape σ) (src : Source) : Node → Reading σ
  | .map _ entries => do shape.readMap (← src.inner) entries
  | .seq _ items =>
    match src.excess with
    | some excess => do readItems (← src.inner) excess shape.fields shape.blank items
    | none => throw .wrongValue
  | .scalar s =>
    if s.isBlank then shape.readMap src [] else throw (if s == .valueless then .malformed else .wrongValue)
  | .reference target => do Reading.follow; shape.read src target
  | .broken e => throw e

/-- The record that a value stands for. -/
def ofValue (shape : RecordShape σ) (v : Value) : Except ReadError σ :=
  (shape.read (.value v) (Node.ofValue v)).answer 0

end RecordShape

namespace Document

/-- Reads the contents of a document and then makes sure that nothing is wrong behind them. -/
def read {α : Type} (doc : Document) (read : Node → Reading α) : Except ReadError α := do
  let a ← (read doc.root).answer doc.references
  match doc.trailing with
  | some e => throw e
  | none => return a

end Document

end ScriptYard
