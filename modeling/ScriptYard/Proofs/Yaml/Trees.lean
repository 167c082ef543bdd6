import ScriptYard.Yaml.Tree
import ScriptYard.Proofs.Yaml.Layout

/-!
# The tree of a layout

The tokens of a layout are put together to what the layout says (`Layout.node`). The reader has fuel for three rounds
for each token, of which an array or object needs one more than its items or fields together, and one in the column of
its key yet another, as it has no token of its own (`Builds`).

A text whose layout fits is thus read as what it says, and nothing stands behind it (`readDocument_of_fits`).
-/

namespace ScriptYard

namespace Yaml

/-! ### What a layout says -/

def scalarOf (text : List Char) (form : ScalarForm) : Scalar := .yaml (String.ofList text) form .none

def Leaf.tree : Leaf → Tree
  | .scalar text form => .scalar (scalarOf text form)
  | .list items => .seq none (items.map fun cs => .scalar (scalarOf cs .quoted))
  | .braces => .map none []

/-- What a leaf says. -/
def Leaf.node : Leaf → Node
  | .scalar text form => .scalar (scalarOf text form)
  | .list items => .seq none (items.map fun cs => .scalar (scalarOf cs .quoted))
  | .braces => .map none []

namespace Layout

mutual

def tree : Layout → Tree
  | .leaf _ content => content.tree
  | .seq _ _ items => .seq none (itemsTree items)
  | .map _ _ fields => .map none (fieldsTree fields)

def itemsTree : List Layout → List Tree
  | [] => []
  | l :: rest => l.tree :: itemsTree rest

def fieldsTree : List (Name × Layout) → List (Tree × Tree)
  | [] => []
  | (k, l) :: rest => (.scalar (scalarOf k.key k.form), l.tree) :: fieldsTree rest

end

mutual

/-- What a layout says. -/
def node : Layout → Node
  | .leaf _ content => content.node
  | .seq _ _ items => .seq none (itemsNode items)
  | .map _ _ fields => .map none (fieldsNode fields)

/-- What items say. -/
def itemsNode : List Layout → List Node
  | [] => []
  | l :: rest => l.node :: itemsNode rest

/-- What fields say. -/
def fieldsNode : List (Name × Layout) → List (Node × Node)
  | [] => []
  | (k, l) :: rest => (.scalar (scalarOf k.key k.form), l.node) :: fieldsNode rest

end

end Layout

theorem toItems_scalars (target : ℕ → Node) (items : List (List Char)) :
    Tree.toItems target (items.map fun cs => .scalar (scalarOf cs .quoted)) =
      items.map fun cs => .scalar (scalarOf cs .quoted) := by
  induction items with
  | nil => rfl
  | cons cs items ih => rw [List.map_cons, Tree.toItems, ih]; rfl

theorem Leaf.toNode_tree (target : ℕ → Node) (content : Leaf) : content.tree.toNode target = content.node := by
  cases content with
  | scalar text form => rfl
  | list items => exact congrArg (Node.seq none) (toItems_scalars target items)
  | braces => rfl

namespace Layout

mutual

/-- A layout refers to nothing, so its tree says the same whatever references lead to. -/
theorem toNode_tree (target : ℕ → Node) : (l : Layout) → l.tree.toNode target = l.node
  | .leaf _ content => content.toNode_tree target
  | .seq _ _ items => by rw [tree, node, Tree.toNode, toItems_itemsTree target items]
  | .map _ _ fields => by rw [tree, node, Tree.toNode, toEntries_fieldsTree target fields]

theorem toItems_itemsTree (target : ℕ → Node) : (items : List Layout) →
    Tree.toItems target (itemsTree items) = itemsNode items
  | [] => rfl
  | l :: rest => by
    rw [itemsTree, itemsNode, Tree.toItems, toNode_tree target l, toItems_itemsTree target rest]

theorem toEntries_fieldsTree (target : ℕ → Node) : (fields : List (Name × Layout)) →
    Tree.toEntries target (fieldsTree fields) = fieldsNode fields
  | [] => rfl
  | (k, l) :: rest => by
    rw [fieldsTree, fieldsNode, Tree.toEntries, toNode_tree target l, toEntries_fieldsTree target rest]
    rfl

end

end Layout

/-! ### Putting tokens together -/

namespace TreeReader

/-- A reader in front of tokens of a text without a fault. -/
def before (handles : List (String × List UInt8)) (events : ℕ) (ts : List Token) : TreeReader :=
  { tokens := ts, faulty := false, handles := handles, events := events }

variable {handles : List (String × List UInt8)} {e fuel : ℕ} {t : Token} {ts rest : List Token}

@[simp] theorem before_failed : (before handles e ts).failed = false := rfl

@[simp] theorem before_faulty : (before handles e ts).faulty = false := rfl

@[simp] theorem before_anchors : (before handles e ts).anchors = [] := rfl

@[simp] theorem before_tokens : (before handles e ts).tokens = ts := rfl

@[simp] theorem before_peek : (before handles e ts).peek = ts.head? := rfl

@[simp] theorem before_next : (before handles e (t :: ts)).next = before handles e ts := rfl

@[simp] theorem before_count (n : ℕ) : (before handles e ts).count n = before handles (e + n) ts := rfl

@[simp] theorem before_openAnchor : (before handles e ts).openAnchor none = before handles e ts := rfl

@[simp] theorem before_at? (ts' : List Token) : (before handles e (t :: ts)).at? ts' = ts'.contains t := rfl

/-- Tokens in front of `rest` are put together to a tree. -/
def Builds (indentless : Bool) (ts rest : List Token) (tree : Tree) : Prop :=
  ∀ handles e fuel, 3 * ts.length + 2 ≤ fuel → ∃ e', readNode fuel true indentless (before handles e (ts ++ rest)) =
    (tree, before handles e' rest)

theorem readNode_scalar (block indentless : Bool) (text : List Char) (form : ScalarForm) :
    readNode (fuel + 1) block indentless (before handles e (.scalar (String.ofList text) form :: rest)) =
      (.scalar (scalarOf text form), before handles (e + 1) rest) := by
  simp [readNode, properties, scalarTree, scalarOf]

/-- One item in brackets, with the comma in front of it where it is not the first. -/
theorem readFlowItems_scalar (first : Bool) (text : List Char) (form : ScalarForm) :
    readFlowItems (fuel + 2) first (before handles e
      ((if first then [] else [.comma]) ++ .scalar (String.ofList text) form :: rest)) =
        ((readFlowItems (fuel + 1) false (before handles (e + 1) rest)).map (.scalar (scalarOf text form) :: ·) id) := by
  cases first <;> simp [readFlowItems.eq_2 _ _ (fuel + 1), readNode_scalar, Prod.map]

/-- The items of a list are put together up to the bracket that closes it. -/
theorem readFlowItems_listTokens (cs : List Char) (items : List (List Char)) (first : Bool) (e : ℕ)
    (h_fuel : items.length + 2 < fuel) : ∃ e', readFlowItems fuel first (before handles e
      ((if first then [] else [.comma]) ++ (Scanner.listTokens (cs :: items) ++ rest))) =
        ((cs :: items).map fun cs => .scalar (scalarOf cs .quoted), before handles e' rest) := by
  induction items generalizing cs first e fuel with
  | nil =>
    obtain ⟨fuel, rfl⟩ : ∃ more, fuel = more + 2 := ⟨fuel - 2, by omega⟩
    refine ⟨e + 1, ?_⟩
    rw [Scanner.listTokens, List.cons_append, readFlowItems_scalar]
    simp [readFlowItems]
  | cons item items ih =>
    obtain ⟨fuel, rfl⟩ : ∃ more, fuel = more + 2 := ⟨fuel - 2, by omega⟩
    -- the items behind the comma, with one event more
    obtain ⟨e', h_rest⟩ : ∃ e', readFlowItems (fuel + 1) false
        (before handles (e + 1) (.comma :: Scanner.listTokens (item :: items) ++ rest)) =
          ((item :: items).map fun cs => .scalar (scalarOf cs .quoted), before handles e' rest) :=
      ih item false (e + 1) (by simp at h_fuel; omega)
    refine ⟨e', ?_⟩
    have h_tokens : Scanner.listTokens (cs :: item :: items) =
      .scalar (String.ofList cs) .quoted :: .comma :: Scanner.listTokens (item :: items) := rfl
    rw [h_tokens, List.cons_append, readFlowItems_scalar, h_rest]
    rfl

/-- Brackets are put together by what they hold. -/
theorem readNode_openSequence {trees : List Tree} {e' : ℕ}
    (h : readFlowItems fuel true (before handles (e + 1) ts) = (trees, before handles e' rest)) (block indentless : Bool) :
    readNode (fuel + 1) block indentless (before handles e (.openSequence :: ts)) =
      (.seq none trees, before handles (e' + 1) rest) := by
  simp [readNode, properties, ownTag?, h]

/-- Braces are put together by what they hold. -/
theorem readNode_openMapping {trees : List (Tree × Tree)} {e' : ℕ}
    (h : readFlowFields fuel true (before handles (e + 1) ts) = (trees, before handles e' rest))
    (block indentless : Bool) : readNode (fuel + 1) block indentless (before handles e (.openMapping :: ts)) =
      (.map none trees, before handles (e' + 1) rest) := by
  simp [readNode, properties, ownTag?, h]

/-- An array in a block of its own is put together by its items. -/
theorem readNode_openBlockSequence {trees : List Tree} {e' : ℕ}
    (h : readBlockItems fuel (before handles (e + 1) ts) = (trees, before handles e' rest)) (indentless : Bool) :
    readNode (fuel + 1) true indentless (before handles e (.openBlockSequence :: ts)) =
      (.seq none trees, before handles (e' + 1) rest) := by
  simp [readNode, properties, ownTag?, h]

/-- An array in the column of its key is put together by its items. -/
theorem readNode_blockItem {trees : List Tree} {e' : ℕ}
    (h : readIndentlessItems fuel (before handles (e + 1) (.blockItem :: ts)) = (trees, before handles e' rest)) :
    readNode (fuel + 1) true true (before handles e (.blockItem :: ts)) =
      (.seq none trees, before handles (e' + 1) rest) := by
  simp [readNode, properties, ownTag?, h]

/-- An object is put together by its fields. -/
theorem readNode_openBlockMapping {trees : List (Tree × Tree)} {e' : ℕ}
    (h : readBlockFields fuel (before handles (e + 1) ts) = (trees, before handles e' rest)) (indentless : Bool) :
    readNode (fuel + 1) true indentless (before handles e (.openBlockMapping :: ts)) =
      (.map none trees, before handles (e' + 1) rest) := by
  simp [readNode, properties, ownTag?, h]

/-- An item of a block, where its node is not left out. -/
theorem readBlockItems_blockItem {tree : Tree} {e' : ℕ} (h_t : t ≠ .blockItem ∧ t ≠ .closeBlock)
    (h : readNode fuel true false (before handles e (t :: ts)) = (tree, before handles e' rest)) :
    readBlockItems (fuel + 2) (before handles e (.blockItem :: t :: ts)) =
      (readBlockItems (fuel + 1) (before handles e' rest)).map (tree :: ·) id := by
  rw [readBlockItems.eq_2 _ (fuel + 1)]
  simp [readOptionalNode, h_t, h, Prod.map]

/-- An item of an array in the column of its key. -/
theorem readIndentlessItems_blockItem {tree : Tree} {e' : ℕ}
    (h_t : t ≠ .blockItem ∧ t ≠ .key ∧ t ≠ .value ∧ t ≠ .closeBlock)
    (h : readNode fuel true false (before handles e (t :: ts)) = (tree, before handles e' rest)) :
    readIndentlessItems (fuel + 2) (before handles e (.blockItem :: t :: ts)) =
      (readIndentlessItems (fuel + 1) (before handles e' rest)).map (tree :: ·) id := by
  rw [readIndentlessItems.eq_2 _ (fuel + 1)]
  simp [readOptionalNode, h_t, h, Prod.map]

/-- A field of a block, where its value is not left out. -/
theorem readBlockFields_key {tree : Tree} {e' : ℕ} (key : List Char) (form : ScalarForm)
    (h_t : t ≠ .key ∧ t ≠ .value ∧ t ≠ .closeBlock)
    (h : readNode (fuel + 1) true true (before handles (e + 1) (t :: ts)) = (tree, before handles e' rest)) :
    readBlockFields (fuel + 3) (before handles e (.key :: .scalar (String.ofList key) form :: .value :: t :: ts)) =
      (readBlockFields (fuel + 2) (before handles e' rest)).map ((.scalar (scalarOf key form), tree) :: ·) id := by
  rw [readBlockFields.eq_2 _ (fuel + 2)]
  simp [readOptionalNode, readNode_scalar, h_t, h, Prod.map]

theorem length_le_listTokens (items : List (List Char)) : items.length ≤ (Scanner.listTokens items).length := by
  induction items with
  | nil => exact Nat.zero_le _
  | cons cs items ih =>
    cases items with
    | nil => simp [Scanner.listTokens]
    | cons item items =>
      rw [Scanner.listTokens, List.length_cons, List.length_cons]
      · simp at ih ⊢
        omega
      · simp

theorem builds_leaf (indentless : Bool) (content : Leaf) (rest : List Token) :
    Builds indentless content.tokens rest content.tree := by
  intro handles e fuel h_fuel
  obtain ⟨fuel, rfl⟩ : ∃ more, fuel = more + 2 := ⟨fuel - 2, by omega⟩
  cases content with
  | scalar text form => exact ⟨e + 1, readNode_scalar true indentless text form⟩
  | braces => exact ⟨e + 1 + 1, readNode_openMapping (by simp [readFlowFields]) true indentless⟩
  | list items =>
    have h_items : ∃ e', readFlowItems (fuel + 1) true (before handles (e + 1) (Scanner.listTokens items ++ rest)) =
        (items.map fun cs => .scalar (scalarOf cs .quoted), before handles e' rest) := by
      cases items with
      | nil => exact ⟨e + 1, by simp [Scanner.listTokens, readFlowItems]⟩
      | cons cs items =>
        -- the fuel counts the tokens of the list, not its items
        have h_length := length_le_listTokens (cs :: items)
        refine readFlowItems_listTokens cs items true (e + 1) ?_
        simp [Leaf.tokens] at h_fuel h_length
        omega
    obtain ⟨e', h_items⟩ := h_items
    exact ⟨e' + 1, readNode_openSequence h_items true indentless⟩

end TreeReader

namespace Layout

open TreeReader

variable {indent : ℤ} {keyAllowed : Bool} {column : ℕ} {stop : Option ℕ}

/-- The first token of a node is none of those that follow a node left out, and none that stands around a document. -/
theorem tokens_head {l : Layout} (h : l.Fits indent keyAllowed column stop) : ∃ t ts, l.tokens indent = t :: ts ∧
    isDocumentToken t = false ∧ (t = .blockItem → l.blockless indent) ∧ t ≠ .key ∧ t ≠ .value ∧ t ≠ .closeBlock := by
  cases l with
  | leaf text content => cases content <;> exact ⟨_, _, rfl, rfl, by simp⟩
  | map lead n fields => exact ⟨_, _, rfl, rfl, by simp⟩
  | seq lead n items =>
    obtain ⟨l, items, rfl⟩ := List.exists_cons_of_ne_nil h.1
    by_cases h_n : indent < n
    · exact ⟨.openBlockSequence, _, by rw [tokens, if_pos h_n], rfl, by simp⟩
    · exact ⟨.blockItem, _, by rw [tokens, if_neg h_n, itemsTokens], rfl, fun _ => h_n, by simp⟩

mutual

/-- The tokens of a layout are put together to its tree. What follows an array that has no block of its own is no
further item. -/
theorem builds {indent : ℤ} {keyAllowed : Bool} {column : ℕ} {stop : Option ℕ} {indentless : Bool}
    {rest : List Token} : (l : Layout) → l.Fits indent keyAllowed column stop →
      (l.blockless indent → indentless = true ∧ rest.head? ≠ some .blockItem) →
        Builds indentless (l.tokens indent) rest l.tree
  | .leaf _ content, _, _ => builds_leaf indentless content rest
  | .seq _ n items, h, h_rest => by
    intro handles e fuel h_fuel
    obtain ⟨fuel, rfl⟩ : ∃ more, fuel = more + 1 := ⟨fuel - 1, by omega⟩
    obtain ⟨h_ne, -, -, h_items⟩ := h
    rw [tokens] at h_fuel ⊢
    by_cases h_n : indent < n
    · -- a block of its own, which a token opens and another one closes
      rw [if_pos h_n] at h_fuel ⊢
      obtain ⟨e', h_read⟩ := readBlockItems_itemsTokens rest items h_items handles (e + 1) fuel
        (by simp at h_fuel; omega)
      refine ⟨e' + 1, ?_⟩
      rw [List.cons_append, List.append_assoc]
      exact readNode_openBlockSequence h_read indentless
    · -- items in the column of their key, which end where no further item follows
      rw [if_neg h_n] at h_fuel ⊢
      obtain ⟨rfl, h_next⟩ := h_rest h_n
      obtain ⟨e', h_read⟩ := readIndentlessItems_itemsTokens items h_items h_next handles (e + 1) fuel (by omega)
      obtain ⟨l, items, rfl⟩ := List.exists_cons_of_ne_nil h_ne
      exact ⟨e' + 1, readNode_blockItem h_read⟩
  | .map _ n fields, h, _ => by
    intro handles e fuel h_fuel
    obtain ⟨fuel, rfl⟩ : ∃ more, fuel = more + 1 := ⟨fuel - 1, by omega⟩
    obtain ⟨-, -, -, h_fields⟩ := h
    rw [tokens] at h_fuel ⊢
    obtain ⟨e', h_read⟩ := readBlockFields_fieldsTokens rest fields h_fields handles (e + 1) fuel
      (by simp at h_fuel; omega)
    refine ⟨e' + 1, ?_⟩
    rw [List.cons_append, List.append_assoc]
    exact readNode_openBlockMapping h_read indentless

/-- The items of a block are put together one after the other. -/
theorem readBlockItems_itemsTokens {column : ℕ} {stop : Option ℕ} (rest : List Token) : (items : List Layout) →
    ItemsFit column stop items → ∀ handles e fuel, 3 * (itemsTokens column items).length + 1 ≤ fuel →
      ∃ e', readBlockItems fuel (before handles e (itemsTokens column items ++ .closeBlock :: rest)) =
        (itemsTree items, before handles e' rest)
  | [], _, handles, e, fuel, h_fuel => by
    obtain ⟨fuel, rfl⟩ : ∃ more, fuel = more + 1 := ⟨fuel - 1, by omega⟩
    exact ⟨e, by simp [itemsTokens, readBlockItems, itemsTree]⟩
  | l :: items, h, handles, e, fuel, h_fuel => by
    obtain ⟨fuel, rfl⟩ : ∃ more, fuel = more + 2 := ⟨fuel - 2, by simp [itemsTokens] at h_fuel; omega⟩
    obtain ⟨-, h_own, h_fits, h_items⟩ := h
    simp only [itemsTokens, List.length_cons, List.length_append] at h_fuel
    have h_builds : Builds false (l.tokens column) (itemsTokens column items ++ .closeBlock :: rest) l.tree :=
      builds l h_fits fun h_blockless => absurd h_blockless h_own
    obtain ⟨e₁, h_node⟩ := h_builds handles e fuel (by omega)
    obtain ⟨e₂, h_others⟩ := readBlockItems_itemsTokens rest items h_items handles e₁ (fuel + 1) (by omega)
    -- the reader looks at the first token of an item to see that it is not an empty one
    obtain ⟨t, ts, h_ts, -, h_item, -, -, h_close⟩ := tokens_head h_fits
    refine ⟨e₂, ?_⟩
    rw [h_ts] at h_node
    rw [itemsTokens, h_ts]
    simp only [List.cons_append, List.append_assoc] at h_node ⊢
    rw [readBlockItems_blockItem ⟨mt h_item h_own, h_close⟩ h_node, h_others]
    rfl

/-- The items of an array in the column of its key are put together one after the other. -/
theorem readIndentlessItems_itemsTokens {column : ℕ} {stop : Option ℕ} {rest : List Token} : (items : List Layout) →
    ItemsFit column stop items → rest.head? ≠ some .blockItem → ∀ handles e fuel,
      3 * (itemsTokens column items).length + 1 ≤ fuel →
        ∃ e', readIndentlessItems fuel (before handles e (itemsTokens column items ++ rest)) =
          (itemsTree items, before handles e' rest)
  | [], _, h_rest, handles, e, fuel, h_fuel => by
    obtain ⟨fuel, rfl⟩ : ∃ more, fuel = more + 1 := ⟨fuel - 1, by omega⟩
    refine ⟨e, ?_⟩
    cases rest with
    | nil => simp [itemsTokens, readIndentlessItems, itemsTree]
    | cons t rest =>
      have h_t : t ≠ .blockItem := fun h_eq => h_rest (by rw [h_eq]; rfl)
      simp [itemsTokens, readIndentlessItems, itemsTree]
  | l :: items, h, h_rest, handles, e, fuel, h_fuel => by
    obtain ⟨fuel, rfl⟩ : ∃ more, fuel = more + 2 := ⟨fuel - 2, by simp [itemsTokens] at h_fuel; omega⟩
    obtain ⟨-, h_own, h_fits, h_items⟩ := h
    simp only [itemsTokens, List.length_cons, List.length_append] at h_fuel
    have h_builds : Builds false (l.tokens column) (itemsTokens column items ++ rest) l.tree :=
      builds l h_fits fun h_blockless => absurd h_blockless h_own
    obtain ⟨e₁, h_node⟩ := h_builds handles e fuel (by omega)
    obtain ⟨e₂, h_others⟩ := readIndentlessItems_itemsTokens items h_items h_rest handles e₁ (fuel + 1) (by omega)
    -- as in a block of its own
    obtain ⟨t, ts, h_ts, -, h_item, h_follow⟩ := tokens_head h_fits
    refine ⟨e₂, ?_⟩
    rw [h_ts] at h_node
    rw [itemsTokens, h_ts]
    simp only [List.cons_append, List.append_assoc] at h_node ⊢
    rw [readIndentlessItems_blockItem ⟨mt h_item h_own, h_follow⟩ h_node, h_others]
    rfl

/-- The fields of a block are put together one after the other. -/
theorem readBlockFields_fieldsTokens {column : ℕ} {stop : Option ℕ} (rest : List Token) :
    (fields : List (Name × Layout)) → FieldsFit column stop fields → ∀ handles e fuel,
      3 * (fieldsTokens column fields).length + 1 ≤ fuel →
        ∃ e', readBlockFields fuel (before handles e (fieldsTokens column fields ++ .closeBlock :: rest)) =
          (fieldsTree fields, before handles e' rest)
  | [], _, handles, e, fuel, h_fuel => by
    obtain ⟨fuel, rfl⟩ : ∃ more, fuel = more + 1 := ⟨fuel - 1, by omega⟩
    exact ⟨e, by simp [fieldsTokens, readBlockFields, fieldsTree]⟩
  | (k, l) :: fields, h, handles, e, fuel, h_fuel => by
    obtain ⟨fuel, rfl⟩ : ∃ more, fuel = more + 3 := ⟨fuel - 3, by simp [fieldsTokens] at h_fuel; omega⟩
    obtain ⟨-, -, h_fits, h_fields⟩ := h
    simp only [fieldsTokens, List.length_cons, List.length_append] at h_fuel
    -- behind a value stands the next name or the end of the block
    have h_next : (fieldsTokens column fields ++ .closeBlock :: rest).head? ≠ some .blockItem := by
      cases fields <;> simp [fieldsTokens]
    have h_builds : Builds true (l.tokens column) (fieldsTokens column fields ++ .closeBlock :: rest) l.tree :=
      builds l h_fits fun _ => ⟨rfl, h_next⟩
    obtain ⟨e₁, h_node⟩ := h_builds handles (e + 1) (fuel + 1) (by omega)
    obtain ⟨e₂, h_others⟩ := readBlockFields_fieldsTokens rest fields h_fields handles e₁ (fuel + 2) (by omega)
    obtain ⟨t, ts, h_ts, -, -, h_follow⟩ := tokens_head h_fits
    refine ⟨e₂, ?_⟩
    rw [h_ts] at h_node
    rw [fieldsTokens, h_ts]
    simp only [List.cons_append, List.append_assoc] at h_node ⊢
    rw [readBlockFields_key k.key k.form h_follow h_node, h_others]
    rfl

end

/-- A layout in no block is not without a block of its own. -/
theorem not_blockless (l : Layout) : ¬l.blockless (-1) := by
  cases l <;> simp [blockless]
  omega

end Layout

/-- The tree of a document that is nothing but a node. -/
theorem TreeReader.readTree_of_builds {t : Token} {ts : List Token} {tree : Tree} (h : Builds false (t :: ts) [] tree)
    (h_t : isDocumentToken t = false) :
    ∃ handles e, readTree { tokens := t :: ts, faulty := false } = (tree, before handles e []) := by
  obtain ⟨handles, h_handles⟩ : ∃ handles, directives [] false [] = some ([], handles) := ⟨_, rfl⟩
  obtain ⟨e, h_read⟩ := h handles 0 (3 * (t :: ts).length + 3) (by omega)
  rw [List.append_nil] at h_read
  refine ⟨handles, e, ?_⟩
  have h_peek : TreeReader.peek { tokens := t :: ts, faulty := false } = some t := rfl
  rw [readTree, h_peek]
  simp only [h_t, Bool.not_false, Bool.true_or, if_true, h_handles]
  exact h_read

/-- **A text whose layout fits is read as what the layout says**, and nothing is wrong behind it. -/
theorem readDocument_of_fits {l : Layout} (h : l.Fits (-1) true 0 none) (h_allowed : ∀ x ∈ l.text, isAllowed x = true) :
    ∃ references, readDocument (String.ofList l.text) = ⟨l.node, none, references⟩ := by
  obtain ⟨t, ts, h_ts, h_document, -⟩ := Layout.tokens_head h
  have h_builds : TreeReader.Builds false (l.tokens (-1)) [] l.tree :=
    Layout.builds l h fun h_blockless => absurd h_blockless l.not_blockless
  rw [h_ts] at h_builds
  obtain ⟨handles, e, h_tree⟩ := TreeReader.readTree_of_builds h_builds h_document
  refine ⟨100 * e, ?_⟩
  rw [readDocument, tokens_of_fits h h_allowed, h_ts]
  simp only [h_tree, l.toNode_tree]
  rfl

end Yaml

end ScriptYard
