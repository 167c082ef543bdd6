import ScriptYard.Yaml.Token

/-!
# The document of a YAML text

`Yaml.readDocument` puts the tokens of a text together into a `Tree` and makes a `Document` of it. A
block of fields may leave out keys and values, and an array in the place of a value may stand in the
column of its key; what is left out reads as an empty scalar. Tags are resolved by the handles that
the document declares.

Where tokens do not fit, or run out because the notation is broken behind them, the tree ends in a
`Tree.broken`: `TreeReader.failed` is set and everything that is open closes with the contents it
has.

A reference leads to a number (`Anchor.number`): that of the last anchor of its name before it. The
number is the count of different names given before, so an anchor whose name is given again shares
its number with the next one of a new name. Among the anchors of one number the last one in the text
counts for all references. References may run in circles; as every round enters an array or object,
they are expanded (`targets`) to the depth that a reader can reach. A document of so many events
allows a hundred times as many references to be followed.
-/

namespace ScriptYard

namespace Yaml

/-- A part of a YAML document, in which a reference is not resolved yet. -/
inductive Tree where
  | scalar (s : Scalar)
  /-- An array, with the name of its own tag if it has one. -/
  | seq (tag : Option String) (items : List Tree)
  /-- An object, with the name of its own tag if it has one. -/
  | map (tag : Option String) (entries : List (Tree × Tree))
  /-- A reference to the anchors of a number. -/
  | reference (number : Nat)
  /-- The place where the text could not be read on. -/
  | broken (error : ReadError)
deriving Inhabited

/-- What an anchor names. -/
structure Anchor where
  /-- The name of the anchor. -/
  name : String
  /-- The count of different names of anchors before. -/
  number : Nat
  /-- The tree, once it is complete. -/
  tree : Tree := .broken .malformed

/-- How far tokens have been put together. -/
structure TreeReader where
  /-- The tokens still to be read. -/
  tokens : List Token
  /-- Whether the notation is broken behind the tokens. -/
  faulty : Bool
  /-- Whether the tree has ended in a broken node. -/
  failed : Bool := false
  /-- The meanings of tag handles. -/
  handles : List (String × List UInt8) := []
  /-- The anchors so far, the last one first. -/
  anchors : List Anchor := []
  /-- The count of scalars, references, and starts and ends of arrays and objects. -/
  events : Nat := 0

/-- The start of the tags of the notation itself. -/
def standardTags : String := "tag:yaml.org,2002:"

/-- The tag of a scalar with this full name. -/
def tagOfName (name : String) : Tag :=
  if name == standardTags ++ "bool" then .bool
  else if name == standardTags ++ "int" then .int
  else if name == standardTags ++ "float" then .float
  else if name == standardTags ++ "null" then .null
  else if name == "!" then .own name
  else if name.startsWith "!" then .own (String.ofList (name.toList.drop 1))
  else .other

/-- The tag of a scalar whose full name has these bytes. -/
def tagOfBytes (bytes : List UInt8) : Tag :=
  match String.fromUTF8? ⟨bytes.toArray⟩ with
  | some name => tagOfName name
  | none => if bytes.head? == some 0x21 then .illegible else .other

/-- The name of a tag of the document's own, which is one that starts with an exclamation mark. -/
def ownTag? (tag : Option (List UInt8)) : Option String :=
  match tag.map tagOfBytes with
  | some (.own own) => some own
  | _ => none

namespace TreeReader

/-- The next token. -/
def peek (r : TreeReader) : Option Token := r.tokens.head?

/-- Whether the next token is one of these. -/
def at? (r : TreeReader) (ts : List Token) : Bool :=
  match r.peek with
  | some t => ts.contains t
  | none => false

/-- The reader behind the next token. -/
def next (r : TreeReader) : TreeReader := { r with tokens := r.tokens.drop 1 }

/-- The reader with so many more events. -/
def count (r : TreeReader) (n : Nat) : TreeReader := { r with events := r.events + n }

/-- The end of the tree where the text cannot be read on. -/
def fail (r : TreeReader) (e : ReadError) : Tree × TreeReader := (.broken e, { r with failed := true })

/-- The scalar that stands for a node left out. -/
def absent (r : TreeReader) : Tree × TreeReader := (.scalar (.yaml "" .plain .none), r.count 1)

/-- The count of different names of anchors. -/
def anchorNames (r : TreeReader) : Nat := (r.anchors.map (·.name)).eraseDups.length

/-- Opens an anchor, if the node has one. -/
def openAnchor (r : TreeReader) : Option String → TreeReader
  | some name => { r with anchors := { name := name, number := r.anchorNames } :: r.anchors }
  | none => r

/-- Completes the anchor in front of which there are `before` ones. -/
def closeAnchor (r : TreeReader) (before : Nat) (tree : Tree) : TreeReader :=
  { r with anchors := r.anchors.modify (r.anchors.length - 1 - before) (fun a => { a with tree := tree }) }

/-- The reference to an anchor. -/
def follow (r : TreeReader) (name : String) : Tree × TreeReader :=
  match r.anchors.find? (fun a => a.name == name) with
  | some a => (.reference a.number, r.count 1)
  | none => r.fail .malformed

/-! ### Properties of a node -/

/-- The anchor and the tag in front of a node. -/
structure Properties where
  anchor : Option String := none
  /-- The handle and suffix of the tag. -/
  tag : Option (String × List UInt8) := none

/-- Reads the anchor and the tag in front of a node, in either order. -/
def properties (r : TreeReader) : Properties × TreeReader :=
  match r.tokens with
  | .anchor a :: .tag h s :: rest | .tag h s :: .anchor a :: rest =>
    (⟨some a, some (h, s)⟩, { r with tokens := rest })
  | .anchor a :: rest => (⟨some a, none⟩, { r with tokens := rest })
  | .tag h s :: rest => (⟨none, some (h, s)⟩, { r with tokens := rest })
  | _ => ({}, r)

/-- The full name of a tag. There is none for a handle that is not declared. -/
def tagName? (r : TreeReader) : String × List UInt8 → Option (List UInt8)
  | (handle, suffix) =>
    if handle.isEmpty then some suffix
    else (r.handles.find? (fun h => h.1 == handle)).map (fun h => h.2 ++ suffix)

def scalarTree (text : String) (form : ScalarForm) (tag : Option (List UInt8)) : Tree :=
  .scalar (.yaml text form ((tag.map tagOfBytes).getD .none))

/-! ### Nodes -/

mutual

/-- Reads a node. In the place of a value or key (`indentless`) an array may start without a block
of its own; inside brackets no block may start. -/
def readNode : (fuel : Nat) → (block indentless : Bool) → TreeReader → Tree × TreeReader
  | 0, _, _, r => r.fail .malformed
  | fuel + 1, block, indentless, r =>
    match r.peek with
    -- an alias has no properties of its own
    | some (.alias name) => r.next.follow name
    | _ =>
      let (props, r) := r.properties
      match props.tag.map r.tagName? with
      | some none => r.fail .malformed
      | tag =>
        let tag := tag.join
        let close (result : Tree × TreeReader) : Tree × TreeReader :=
          if props.anchor.isSome then (result.1, result.2.closeAnchor r.anchors.length result.1)
          else result
        let opened := (r.openAnchor props.anchor).count 1
        let ended (r : TreeReader) : TreeReader := if r.failed then r else r.count 1
        let sequence (result : List Tree × TreeReader) : Tree × TreeReader :=
          close (.seq (ownTag? tag) result.1, ended result.2)
        let mapping (result : List (Tree × Tree) × TreeReader) : Tree × TreeReader :=
          close (.map (ownTag? tag) result.1, ended result.2)
        match r.peek with
        | some .blockItem =>
          if indentless then sequence (readIndentlessItems fuel opened)
          else if props.anchor.isSome || tag.isSome then close (scalarTree "" .plain tag, opened)
          else r.fail .malformed
        | some (.scalar text form) => close (scalarTree text form tag, opened.next)
        | some .openSequence => sequence (readFlowItems fuel true opened.next)
        | some .openMapping => mapping (readFlowFields fuel true opened.next)
        | other =>
          if block && other == some .openBlockSequence then sequence (readBlockItems fuel opened.next)
          else if block && other == some .openBlockMapping then mapping (readBlockFields fuel opened.next)
          -- properties without a node stand for an empty scalar
          else if (props.anchor.isSome || tag.isSome) && !(other.isNone && r.faulty) then
            close (scalarTree "" .plain tag, opened)
          else r.fail .malformed

/-- Reads a node unless the next token is one of those that follow a node left out. -/
def readOptionalNode : (fuel : Nat) → (block indentless : Bool) → (absentAt : List Token) →
    TreeReader → Tree × TreeReader
  | 0, _, _, _, r => r.fail .malformed
  | fuel + 1, block, indentless, absentAt, r =>
    if r.at? absentAt then r.absent else readNode fuel block indentless r

/-- Reads the items of a block of its own. -/
def readBlockItems : (fuel : Nat) → TreeReader → List Tree × TreeReader
  | 0, r => (r.fail .malformed).map ([·]) id
  | fuel + 1, r =>
    match r.peek with
    | some .blockItem =>
      let (node, r) := readOptionalNode fuel true false [.blockItem, .closeBlock] r.next
      if r.failed then ([node], r) else
      let (nodes, r) := readBlockItems fuel r
      (node :: nodes, r)
    | some .closeBlock => ([], r.next)
    | _ => (r.fail .malformed).map ([·]) id

/-- Reads the items of an array that stands in the column of its key. -/
def readIndentlessItems : (fuel : Nat) → TreeReader → List Tree × TreeReader
  | 0, r => (r.fail .malformed).map ([·]) id
  | fuel + 1, r =>
    match r.peek with
    | some .blockItem =>
      let (node, r) := readOptionalNode fuel true false [.blockItem, .key, .value, .closeBlock] r.next
      if r.failed then ([node], r) else
      let (nodes, r) := readIndentlessItems fuel r
      (node :: nodes, r)
    | some _ => ([], r)
    | none => if r.faulty then (r.fail .malformed).map ([·]) id else ([], r)

def readBlockFields : (fuel : Nat) → TreeReader → List (Tree × Tree) × TreeReader
  | 0, r => (r.fail .malformed).map (fun n => [(n, n)]) id
  | fuel + 1, r =>
    match r.peek with
    | some .key =>
      let (key, r) := readOptionalNode fuel true true [.key, .value, .closeBlock] r.next
      if r.failed then ([(key, .broken .malformed)], r) else
      let (value, r) :=
        if r.at? [.value] then readOptionalNode fuel true true [.key, .value, .closeBlock] r.next
        else if r.peek.isNone && r.faulty then r.fail .malformed
        else r.absent
      if r.failed then ([(key, value)], r) else
      let (entries, r) := readBlockFields fuel r
      ((key, value) :: entries, r)
    | some .closeBlock => ([], r.next)
    | _ => (r.fail .malformed).map (fun n => [(n, n)]) id

/-- Reads the items in square brackets. An item that is the name of a field starts an object of
this one field. -/
def readFlowItems : (fuel : Nat) → (first : Bool) → TreeReader → List Tree × TreeReader
  | 0, _, r => (r.fail .malformed).map ([·]) id
  | fuel + 1, first, r =>
    if r.at? [.closeSequence] then ([], r.next)
    else if !first && !r.at? [.comma] then (r.fail .malformed).map ([·]) id
    else
      let r := if first then r else r.next
      if r.at? [.closeSequence] then ([], r.next)
      else
        let (node, r) := if r.at? [.key] then readSingleField fuel r.next else readNode fuel false false r
        if r.failed then ([node], r) else
        let (nodes, r) := readFlowItems fuel false r
        (node :: nodes, r)

/-- Reads the field of an object that is one item in square brackets. Where the key is left out, the
token behind it is passed over. -/
def readSingleField : (fuel : Nat) → TreeReader → Tree × TreeReader
  | 0, r => r.fail .malformed
  | fuel + 1, r =>
    let r := r.count 1
    let (key, r) :=
      if r.at? [.value, .comma, .closeSequence] then r.next.absent else readNode fuel false false r
    if r.failed then (.map none [(key, .broken .malformed)], r) else
    let (value, r) :=
      if r.at? [.value] then readOptionalNode fuel false false [.comma, .closeSequence] r.next
      else if r.peek.isNone && r.faulty then r.fail .malformed
      else r.absent
    (.map none [(key, value)], if r.failed then r else r.count 1)

/-- Reads the fields in braces. -/
def readFlowFields : (fuel : Nat) → (first : Bool) → TreeReader → List (Tree × Tree) × TreeReader
  | 0, _, r => (r.fail .malformed).map (fun n => [(n, n)]) id
  | fuel + 1, first, r =>
    if r.at? [.closeMapping] then ([], r.next)
    else if !first && !r.at? [.comma] then (r.fail .malformed).map (fun n => [(n, n)]) id
    else
      let r := if first then r else r.next
      if r.at? [.closeMapping] then ([], r.next)
      else
        let named := r.at? [.key]
        let (key, r) :=
          if named then readOptionalNode fuel false false [.value, .comma, .closeMapping] r.next
          else readNode fuel false false r
        if r.failed then ([(key, .broken .malformed)], r) else
        let (value, r) :=
          if r.peek.isNone && r.faulty then r.fail .malformed
          else if named && r.at? [.value] then
            readOptionalNode fuel false false [.comma, .closeMapping] r.next
          else r.absent
        if r.failed then ([(key, value)], r) else
        let (entries, r) := readFlowFields fuel false r
        ((key, value) :: entries, r)

end

/-! ### Documents -/

/-- The directives in front of a document: the version may be named once, and has to be one that is
known, and no handle may be declared twice. -/
def directives : List Token → (version : Bool) → List (String × List UInt8) →
    Option (List Token × List (String × List UInt8))
  | .version major minor :: rest, version, handles =>
    if version || major != 1 || (minor != 1 && minor != 2) then none else directives rest true handles
  | .tagDirective handle meaning :: rest, version, handles =>
    if handles.any (fun h => h.1 == handle) then none
    else directives rest version (handles ++ [(handle, meaning)])
  | rest, _, handles => some (rest, handles ++ [("!", "!".toUTF8.toList), ("!!", standardTags.toUTF8.toList)])

/-- Whether a token ends the contents of a document or stands in front of another one. -/
def isDocumentToken : Token → Bool
  | .version .. | .tagDirective .. | .documentStart | .documentEnd => true
  | _ => false

/-- Whether nothing follows a document but its end. -/
def endsText (r : TreeReader) : Bool := !r.faulty && r.tokens.all (· == .documentEnd)

/-- Reads the tree of the one document of the tokens. -/
def readTree (r : TreeReader) : Tree × TreeReader :=
  let fuel := 3 * r.tokens.length + 3
  match r.peek with
  | none => if r.faulty then r.fail .malformed else r.absent
  | some t =>
    -- a document without a marker has no directives either
    if !isDocumentToken t || t == .documentEnd then
      match directives [] false [] with
      | some (_, handles) => readNode fuel true false { r with handles := handles }
      | none => r.fail .malformed
    else match directives r.tokens false [] with
      | some (.documentStart :: rest, handles) =>
        let r := { r with tokens := rest, handles := handles }
        match r.peek with
        | none => if r.faulty then r.fail .malformed else r.absent
        | some t => if isDocumentToken t then r.absent else readNode fuel true false r
      | _ => r.fail .malformed

end TreeReader

/-! ### References -/

mutual

/-- The node of a tree, where `target` are the nodes that numbers stand for. -/
def Tree.toNode (target : Nat → Node) : Tree → Node
  | .scalar s => .scalar s
  | .seq tag items => .seq tag (Tree.toItems target items)
  | .map tag entries => .map tag (Tree.toEntries target entries)
  | .reference number => .reference (target number)
  | .broken e => .broken e

/-- `Tree.toNode` item by item. -/
def Tree.toItems (target : Nat → Node) : List Tree → List Node
  | [] => []
  | t :: rest => t.toNode target :: Tree.toItems target rest

/-- `Tree.toNode` entry by entry. -/
def Tree.toEntries (target : Nat → Node) : List (Tree × Tree) → List (Node × Node)
  | [] => []
  | (k, t) :: rest => (k.toNode target, t.toNode target) :: Tree.toEntries target rest

end

/-- The node under a number, of nodes by their numbers. -/
def targetOf (nodes : List (Nat × Node)) (number : Nat) : Node :=
  match nodes.lookup number with
  | some node => node
  | none => .broken .tooDeep

/-- The nodes that numbers stand for, with references inside them expanded to a depth. Of anchors of
one number the first in the list counts. -/
def targets (anchors : List Anchor) : (depth : Nat) → List (Nat × Node)
  | 0 => []
  | depth + 1 =>
    let inner := targets anchors depth
    anchors.map fun a => (a.number, a.tree.toNode (targetOf inner))

/-- The depth to which references are expanded, which no reader reaches. -/
def referenceDepth : Nat := Source.yaml.depth + 2

/-- Reads a YAML text. -/
def readDocument (text : String) : Document :=
  let (tokens, faulty) := tokens text
  let (tree, r) := ({ tokens := tokens, faulty := faulty : TreeReader }).readTree
  { root := tree.toNode (targetOf (targets r.anchors referenceDepth))
    trailing := if r.failed || r.endsText then none else some .malformed
    references := 100 * r.events }

end Yaml

end ScriptYard
