import ScriptYard.Proofs.Yaml.Trees

/-!
# Texts from outlines

An `Outline` is a document without positions: the texts of its scalars and names, and what they mean. Writers place it in
columns (`Outline.top`): what an array or object holds stands two columns further in, a leaf stands one space behind its
mark, and each leaf brings the line to an end. An array under the simple name of a field stands `shift` columns further
in than the name. Whether the last line of the text is ended (`final`) is left open.

If each leaf and each name is read in its place for itself (`Outline.Sound`), all parts fit, and the text is read as what
the outline says (`Outline.readDocument_top`).
-/

namespace ScriptYard

namespace Yaml

open Scanner Layout

/-- A document without positions. The texts of leaves and names may have further lines, which start in the column they
are given. -/
inductive Outline where
  /-- A leaf; `closed` tells whether its text ends its last line. -/
  | leaf (text : ℕ → List Char) (closed : Bool) (content : Leaf)
  /-- An array. -/
  | seq (items : List Outline)
  /-- An object. -/
  | map (fields : List ((ℕ → Name) × Outline))

/-- What is written behind a leaf: the end of the line and the indentation of what follows. -/
def gapBehind (final closed : Bool) : Option ℕ → List Char
  | some n => (if closed then [] else ['\n']) ++ List.replicate n ' '
  | none => if final && !closed then ['\n'] else []

/-- What is written in front of the first item or field: spaces where it stands on the line of its mark. -/
def leadText (lineOpen : Bool) (column n : ℕ) : List Char :=
  if lineOpen then List.replicate (n - column) ' ' else '\n' :: List.replicate n ' '

namespace Outline

section

variable (shift : ℕ) (final : Bool)

mutual

/-- The layout of a part behind a mark of the block in column `holder`. -/
def place (holder : ℕ) (lineOpen : Bool) (column : ℕ) (stop : Option ℕ) : Outline → Layout
  | .leaf text closed content => .leaf (' ' :: (text (holder + 2) ++ gapBehind final closed stop)) content
  | .seq items =>
    let n := holder + if lineOpen then 2 else shift
    .seq (leadText lineOpen column n) n (placeItems n stop items)
  | .map fields => .map (leadText lineOpen column (holder + 2)) (holder + 2) (placeFields (holder + 2) stop fields)

/-- The layouts of items in a column. -/
def placeItems (n : ℕ) (stop : Option ℕ) : List Outline → List Layout
  | [] => []
  | o :: rest => place n true (n + 1) (if rest.isEmpty then stop else some n) o :: placeItems n stop rest

/-- The layouts of fields in a column. -/
def placeFields (n : ℕ) (stop : Option ℕ) : List ((ℕ → Name) × Outline) → List (Name × Layout)
  | [] => []
  | (k, o) :: rest =>
    (k n, place n (!(k n).simple) (behindName n (k n)) (if rest.isEmpty then stop else some n) o) ::
      placeFields n stop rest

end

/-- The layout of a whole document. -/
def top : Outline → Layout
  | .leaf text closed content => .leaf (text 2 ++ gapBehind final closed none) content
  | .seq items => .seq [] 0 (placeItems shift final 0 none items)
  | .map fields => .map [] 0 (placeFields shift final 0 none fields)

end

mutual

/-- What an outline says. -/
def node : Outline → Node
  | .leaf _ _ content => content.node
  | .seq items => .seq none (itemsNode items)
  | .map fields => .map none (fieldsNode fields)

/-- What items say. -/
def itemsNode : List Outline → List Node
  | [] => []
  | o :: rest => o.node :: itemsNode rest

/-- What fields say. -/
def fieldsNode : List ((ℕ → Name) × Outline) → List (Node × Node)
  | [] => []
  | (k, o) :: rest => (.scalar (scalarOf (k 0).key (k 0).form), o.node) :: fieldsNode rest

end

end Outline

/-! ### Parts that are read for themselves -/

/-- The text of a leaf is read in every block, whatever follows. -/
structure LeafSound (final : Bool) (text : ℕ → List Char) (closed : Bool) (content : Leaf) : Prop where
  starts : ∀ n, StartsToken (text n)
  allowed : ∀ n, ∀ x ∈ text n, isAllowed x = true
  reads : ∀ (n column : ℕ) (keyAllowed : Bool) (stop : Option ℕ) (rest : List Char), n < column → (∀ m ∈ stop, m ≤ n) →
    Follows stop rest →
      Reads n keyAllowed column (text (n + 2) ++ gapBehind final closed stop) content.tokens rest (stop.getD 0)

/-- The text of a name is cut as the name in every block, and its lines do not change the name. -/
structure NameSound (k : ℕ → Name) : Prop where
  fits : ∀ n, NameFits n (k n)
  allowed : ∀ n, ∀ x ∈ (k n).text, isAllowed x = true
  same : ∀ n, (k n).key = (k 0).key ∧ (k n).form = (k 0).form

namespace Outline

section

variable (final : Bool)

mutual

/-- All leaves and names are read for themselves, and no array or object is without contents. -/
def Sound : Outline → Prop
  | .leaf text closed content => LeafSound final text closed content
  | .seq items => items ≠ [] ∧ ItemsSound items
  | .map fields => fields ≠ [] ∧ FieldsSound fields

/-- `Sound` item by item. -/
def ItemsSound : List Outline → Prop
  | [] => True
  | o :: rest => o.Sound ∧ ItemsSound rest

/-- `Sound` field by field. -/
def FieldsSound : List ((ℕ → Name) × Outline) → Prop
  | [] => True
  | (k, o) :: rest => NameSound k ∧ o.Sound ∧ FieldsSound rest

end

end

end Outline

section

variable {final closed : Bool} {stop : Option ℕ} {rest : List Char}

/-- The end of a line leads to what follows. -/
theorem leads_gapBehind (final : Bool) (h : Follows stop rest) :
    Gap.Leads (gapBehind final false stop) rest (stop.getD 0) := by
  cases stop with
  | some n => exact .line isLineBreak_feed (.spaces n) (.inl h)
  | none =>
    obtain rfl : rest = [] := h
    cases final with
    | true => exact .line isLineBreak_feed (.spaces 0) (.inr ⟨rfl, rfl⟩)
    | false => exact .nothing

theorem allowed_gapBehind (final closed : Bool) (stop : Option ℕ) : ∀ x ∈ gapBehind final closed stop, isAllowed x = true := by
  have h_feed : isAllowed '\n' = true := by decide
  have h_space : isAllowed ' ' = true := by decide
  intro x h_x
  unfold gapBehind at h_x
  -- a line break at most, with spaces behind it
  split at h_x
  · obtain h_x | h_x := List.mem_append.mp h_x
    · split at h_x
      · cases h_x
      · rw [List.mem_singleton.mp h_x, h_feed]
    · rw [List.eq_of_mem_replicate h_x, h_space]
  · split at h_x
    · rw [List.mem_singleton.mp h_x, h_feed]
    · cases h_x

theorem allowed_leadText {lineOpen : Bool} {column n : ℕ} {x : Char} (h : x ∈ leadText lineOpen column n) :
    isAllowed x = true := by
  have h_feed : isAllowed '\n' = true := by decide
  have h_space : isAllowed ' ' = true := by decide
  unfold leadText at h
  split at h
  · rw [List.eq_of_mem_replicate h, h_space]
  · obtain rfl | h := List.mem_cons.mp h
    · exact h_feed
    · rw [List.eq_of_mem_replicate h, h_space]

theorem allowed_marked {k : Name} (h : ∀ x ∈ k.text, isAllowed x = true) : ∀ x ∈ k.marked, isAllowed x = true := by
  have h_colon : isAllowed ':' = true := by decide
  have h_question : isAllowed '?' = true := by decide
  have h_behind : ∀ x ∈ k.text ++ [':'], isAllowed x = true := fun x h_x =>
    (List.mem_append.mp h_x).elim (h x) fun h_x => by rw [List.mem_singleton.mp h_x, h_colon]
  intro x h_x
  unfold Name.marked at h_x
  split at h_x
  · exact h_behind x h_x
  · obtain rfl | h_x := List.mem_cons.mp h_x
    · exact h_question
    · exact h_behind x h_x

theorem lead_leadText {lineOpen : Bool} {column n : ℕ} (h : lineOpen = true → column ≤ n) :
    Lead lineOpen column (leadText lineOpen column n) n := by
  cases lineOpen with
  | true =>
    have h_lead := Lead.spaces column (n - column)
    rwa [Nat.add_sub_cancel' (h rfl)] at h_lead
  | false => exact Lead.line isLineBreak_feed (.spaces n)

theorem startsGap_leadText {lineOpen : Bool} {column n : ℕ} (h : lineOpen = true → column < n) (tail : List Char) :
    StartsGap (leadText lineOpen column n ++ tail) := by
  cases lineOpen with
  | true =>
    obtain ⟨k, h_k⟩ : ∃ k, n - column = k + 1 := ⟨n - column - 1, by have := h rfl; omega⟩
    rw [leadText, if_pos rfl, h_k]
    exact ⟨' ', _, rfl, rfl⟩
  | false => exact ⟨'\n', _, rfl, rfl⟩

end

namespace Outline

variable {shift : ℕ} {final : Bool} {holder column : ℕ} {lineOpen : Bool} {stop : Option ℕ}

theorem placeItems_isEmpty (n : ℕ) (items : List Outline) : (placeItems shift final n stop items).isEmpty = items.isEmpty := by
  cases items <;> rfl

theorem placeFields_isEmpty (n : ℕ) (fields : List ((ℕ → Name) × Outline)) :
    (placeFields shift final n stop fields).isEmpty = fields.isEmpty := by
  cases fields <;> rfl

/-- What is placed behind a mark starts with a gap. -/
theorem startsGap_place (h : lineOpen = true → column = holder + 1) (o : Outline) :
    StartsGap (place shift final holder lineOpen column stop o).text := by
  cases o with
  | leaf text closed content => exact ⟨' ', _, rfl, rfl⟩
  | seq items =>
    refine startsGap_leadText (fun h_open => ?_) _
    rw [h h_open, if_pos h_open]
    omega
  | map fields =>
    refine startsGap_leadText (fun h_open => ?_) _
    rw [h h_open]
    omega

/-- No item is an array without a block of its own. -/
theorem not_blockless_place (n : ℕ) (o : Outline) : ¬(place shift final n true column stop o).blockless n := by
  cases o with
  | seq items => exact fun h => h (Int.ofNat_lt.mpr (Nat.lt_add_of_pos_right Nat.two_pos))
  | _ => exact id

mutual

/-- The parts of a sound outline are placed where they fit. -/
theorem fits_place {holder column : ℕ} {lineOpen : Bool} {stop : Option ℕ} (h_column : holder < column)
    (h_open : lineOpen = true → column = holder + 1) (h_stop : ∀ n ∈ stop, n ≤ holder) : (o : Outline) → o.Sound final →
      (place shift final holder lineOpen column stop o).Fits holder lineOpen column stop
  -- a leaf is read in any column right of its holder
  | .leaf text closed content, h => by
    intro rest h_rest
    have h_reads := h.reads holder (column + 1) lineOpen stop rest (by omega) h_stop h_rest
    refine Reads.spaces (k := 1) ?_ h_reads
    show AtToken (text (holder + 2) ++ gapBehind final closed stop ++ rest)
    rw [List.append_assoc]
    exact AtToken.of_startsToken (h.starts (holder + 2))
  | .seq items, h => by
    refine ⟨?_, ?_, lead_leadText fun h_lineOpen => ?_, ?_⟩
    · obtain ⟨o, items, rfl⟩ := List.exists_cons_of_ne_nil h.1
      exact List.cons_ne_nil _ _
    · push_cast
      omega
    · rw [h_open h_lineOpen, if_pos h_lineOpen]
      omega
    · exact fits_placeItems (fun n h_n => Nat.le_trans (h_stop n h_n) (Nat.le_add_right _ _)) items h.2
  | .map fields, h => by
    refine ⟨?_, ?_, lead_leadText fun h_lineOpen => ?_, ?_⟩
    · obtain ⟨⟨k, o⟩, fields, rfl⟩ := List.exists_cons_of_ne_nil h.1
      exact List.cons_ne_nil _ _
    · push_cast
      omega
    · rw [h_open h_lineOpen]
      omega
    · exact fits_placeFields (fun n h_n => Nat.le_trans (h_stop n h_n) (Nat.le_add_right _ _)) fields h.2

/-- Items fit in their column. -/
theorem fits_placeItems {n : ℕ} {stop : Option ℕ} (h_stop : ∀ m ∈ stop, m ≤ n) : (items : List Outline) →
    ItemsSound final items → ItemsFit n stop (placeItems shift final n stop items)
  | [], _ => trivial
  | o :: rest, h => by
    refine ⟨startsGap_place (fun _ => rfl) o, not_blockless_place n o, ?_, fits_placeItems h_stop rest h.2⟩
    rw [placeItems_isEmpty]
    refine fits_place (Nat.lt_succ_self n) (fun _ => rfl) ?_ o h.1
    split
    · exact h_stop
    · exact fun m h_m => by cases h_m; exact Nat.le_refl n

/-- Fields fit in their column. -/
theorem fits_placeFields {n : ℕ} {stop : Option ℕ} (h_stop : ∀ m ∈ stop, m ≤ n) :
    (fields : List ((ℕ → Name) × Outline)) → FieldsSound final fields →
      FieldsFit n stop (placeFields shift final n stop fields)
  | [], _ => trivial
  | (k, o) :: rest, h => by
    refine ⟨h.1.fits n, startsGap_place behindName_of_explicit o, ?_, fits_placeFields h_stop rest h.2.2⟩
    rw [placeFields_isEmpty]
    refine fits_place (lt_behindName n (k n)) behindName_of_explicit ?_ o h.2.1
    split
    · exact h_stop
    · exact fun m h_m => by cases h_m; exact Nat.le_refl n

end

mutual

/-- Where an outline is placed makes no difference to what it means. -/
theorem node_place {holder column : ℕ} {lineOpen : Bool} {stop : Option ℕ} : (o : Outline) → o.Sound final →
    (place shift final holder lineOpen column stop o).node = o.node
  | .leaf .., _ => rfl
  | .seq items, h => congrArg (Node.seq none) (node_placeItems items h.2)
  | .map fields, h => congrArg (Node.map none) (node_placeFields fields h.2)

theorem node_placeItems {n : ℕ} {stop : Option ℕ} : (items : List Outline) → ItemsSound final items →
    Layout.itemsNode (placeItems shift final n stop items) = itemsNode items
  | [], _ => rfl
  | o :: rest, h => congrArg₂ List.cons (node_place o h.1) (node_placeItems rest h.2)

theorem node_placeFields {n : ℕ} {stop : Option ℕ} : (fields : List ((ℕ → Name) × Outline)) →
    FieldsSound final fields → Layout.fieldsNode (placeFields shift final n stop fields) = fieldsNode fields
  | [], _ => rfl
  | (k, o) :: rest, h => by
    rw [placeFields, Layout.fieldsNode, fieldsNode, node_place o h.2.1, node_placeFields rest h.2.2, (h.1.same n).1,
      (h.1.same n).2]

end

mutual

theorem allowed_place {holder column : ℕ} {lineOpen : Bool} {stop : Option ℕ} : (o : Outline) → o.Sound final →
    ∀ x ∈ (place shift final holder lineOpen column stop o).text, isAllowed x = true
  | .leaf text closed content, h => by
    intro x h_x
    obtain rfl | h_x := List.mem_cons.mp h_x
    · decide
    · obtain h_x | h_x := List.mem_append.mp h_x
      · exact h.allowed (holder + 2) x h_x
      · exact allowed_gapBehind final closed stop x h_x
  | .seq items, h => by
    intro x h_x
    obtain h_x | h_x := List.mem_append.mp h_x
    · exact allowed_leadText h_x
    · exact allowed_placeItems items h.2 x h_x
  | .map fields, h => by
    intro x h_x
    obtain h_x | h_x := List.mem_append.mp h_x
    · exact allowed_leadText h_x
    · exact allowed_placeFields fields h.2 x h_x

theorem allowed_placeItems {n : ℕ} {stop : Option ℕ} : (items : List Outline) → ItemsSound final items →
    ∀ x ∈ itemsText (placeItems shift final n stop items), isAllowed x = true
  | [], _ => fun _ h_x => absurd h_x List.not_mem_nil
  | o :: rest, h => by
    intro x h_x
    obtain rfl | h_x := List.mem_cons.mp h_x
    · decide
    · obtain h_x | h_x := List.mem_append.mp h_x
      · exact allowed_place o h.1 x h_x
      · exact allowed_placeItems rest h.2 x h_x

theorem allowed_placeFields {n : ℕ} {stop : Option ℕ} : (fields : List ((ℕ → Name) × Outline)) →
    FieldsSound final fields → ∀ x ∈ fieldsText (placeFields shift final n stop fields), isAllowed x = true
  | [], _ => fun _ h_x => absurd h_x List.not_mem_nil
  | (k, o) :: rest, h => by
    intro x h_x
    obtain h_x | h_x := List.mem_append.mp h_x
    · exact allowed_marked (h.1.allowed n) x h_x
    · obtain h_x | h_x := List.mem_append.mp h_x
      · exact allowed_place o h.2.1 x h_x
      · exact allowed_placeFields rest h.2.2 x h_x

end

/-- The parts of a whole document are read for themselves. -/
def TopSound (final : Bool) : Outline → Prop
  | .leaf text closed content => (∀ x ∈ text 2, isAllowed x = true) ∧
      Reads (-1) true 0 (text 2 ++ gapBehind final closed none) content.tokens [] 0
  | o => o.Sound final

theorem fits_top {o : Outline} (h : o.TopSound final) : (o.top shift final).Fits (-1) true 0 none := by
  cases o with
  | leaf text closed content =>
    intro rest h_rest
    obtain rfl : rest = [] := h_rest
    exact h.2
  | seq items =>
    -- the column of the outermost block is the first one, and its holder stands left of it
    obtain ⟨h_ne, h_items⟩ := h
    refine ⟨?_, by decide, Lead.spaces 0 0, fits_placeItems (fun n h_n => absurd h_n (Option.not_mem_none n)) items h_items⟩
    obtain ⟨o, items, rfl⟩ := List.exists_cons_of_ne_nil h_ne
    exact List.cons_ne_nil _ _
  | map fields =>
    obtain ⟨h_ne, h_fields⟩ := h
    refine ⟨?_, by decide, Lead.spaces 0 0, fits_placeFields (fun n h_n => absurd h_n (Option.not_mem_none n)) fields h_fields⟩
    obtain ⟨⟨k, o⟩, fields, rfl⟩ := List.exists_cons_of_ne_nil h_ne
    exact List.cons_ne_nil _ _

theorem allowed_top {o : Outline} (h : o.TopSound final) : ∀ x ∈ (o.top shift final).text, isAllowed x = true := by
  cases o with
  | leaf text closed content =>
    exact fun x h_x => (List.mem_append.mp h_x).elim (h.1 x) (allowed_gapBehind final closed none x)
  | seq items => exact allowed_placeItems items h.2
  | map fields => exact allowed_placeFields fields h.2

theorem node_top {o : Outline} (h : o.TopSound final) : (o.top shift final).node = o.node := by
  cases o with
  | leaf text closed content => rfl
  | seq items => exact congrArg (Node.seq none) (node_placeItems items h.2)
  | map fields => exact congrArg (Node.map none) (node_placeFields fields h.2)

/-- **The text of an outline is read as what the outline says.** -/
theorem readDocument_top {o : Outline} (h : o.TopSound final) :
    ∃ references, readDocument (String.ofList (o.top shift final).text) = ⟨o.node, none, references⟩ := by
  have h_node : (o.top shift final).node = o.node := node_top h
  rw [← h_node]
  exact readDocument_of_fits (fits_top h) (allowed_top h)

end Outline

end Yaml

end ScriptYard
