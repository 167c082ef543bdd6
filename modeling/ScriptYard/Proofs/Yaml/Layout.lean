import ScriptYard.Proofs.Yaml.Brackets

/-!
# Texts laid out in blocks

A `Layout` is a text in blocks together with what it says: at the leaves scalars and lists, around them arrays of items
with dashes and objects of fields with colons. The gaps of the text belong to the leaves in front of them, and to the
start of an array or object in the place of a value (its lead).

`Layout.Fits` says that the parts of a layout stand where the notation wants them: a leaf is read as its tokens there,
items and fields stand in the column of their block, and what follows does not stand further in than the block around. A
layout that fits is cut into its tokens (`Layout.reads`, `tokens_of_fits`).
-/

namespace ScriptYard

namespace Yaml

open Scanner

/-! ### Layouts -/

/-- What stands at a leaf. -/
inductive Leaf where
  | scalar (text : List Char) (form : ScalarForm)
  /-- A list of texts in brackets. -/
  | list (items : List (List Char))
  /-- An empty object. -/
  | braces

/-- The name of a field. -/
structure Name where
  /-- Whether the name stands on one line in front of its colon, with no question mark. -/
  simple : Bool
  /-- The text of the name up to the colon, behind the question mark. -/
  text : List Char
  /-- The name. -/
  key : List Char
  /-- The notation of the name. -/
  form : ScalarForm

/-- A text in blocks with what it says. -/
inductive Layout where
  /-- A leaf, from the mark in front of it to the next token. -/
  | leaf (text : List Char) (content : Leaf)
  /-- An array, from the mark in front of it on, with its items in a column. -/
  | seq (lead : List Char) (column : ℕ) (items : List Layout)
  /-- An object, from the mark in front of it on, with its fields in a column. -/
  | map (lead : List Char) (column : ℕ) (fields : List (Name × Layout))

def Leaf.tokens : Leaf → List Token
  | .scalar text form => [.scalar (String.ofList text) form]
  | .list items => .openSequence :: listTokens items
  | .braces => [.openMapping, .closeMapping]

/-- The text of a name with its marks. -/
def Name.marked (k : Name) : List Char :=
  if k.simple then k.text ++ [':'] else '?' :: (k.text ++ [':'])

namespace Layout

mutual

def text : Layout → List Char
  | .leaf text _ => text
  | .seq lead _ items => lead ++ itemsText items
  | .map lead _ fields => lead ++ fieldsText fields

/-- The text of items with the dashes in front of them. -/
def itemsText : List Layout → List Char
  | [] => []
  | l :: rest => '-' :: (l.text ++ itemsText rest)

/-- The text of fields with the marks of their names. -/
def fieldsText : List (Name × Layout) → List Char
  | [] => []
  | (k, l) :: rest => k.marked ++ (l.text ++ fieldsText rest)

end

mutual

/-- The tokens of a layout in a block. An array in the column of the block opens no block of its own. -/
def tokens (indent : ℤ) : Layout → List Token
  | .leaf _ content => content.tokens
  | .seq _ column items =>
    if indent < column then .openBlockSequence :: (itemsTokens column items ++ [.closeBlock]) else itemsTokens column items
  | .map _ column fields => .openBlockMapping :: (fieldsTokens column fields ++ [.closeBlock])

def itemsTokens (column : ℕ) : List Layout → List Token
  | [] => []
  | l :: rest => .blockItem :: (l.tokens column ++ itemsTokens column rest)

def fieldsTokens (column : ℕ) : List (Name × Layout) → List Token
  | [] => []
  | (k, l) :: rest =>
    .key :: .scalar (String.ofList k.key) k.form :: .value :: (l.tokens column ++ fieldsTokens column rest)

end

/-! ### Parts in their places -/

/-- What follows a part of a text: a token in a column, or the end of the text. -/
def Follows (stop : Option ℕ) (rest : List Char) : Prop :=
  match stop with
  | some _ => StartsToken rest
  | none => rest = []

/-- The gap in front of the first item or field: spaces on a line where a block may start, or the end of a line and
indentation. -/
inductive Lead : (keyAllowed : Bool) → (column : ℕ) → List Char → ℕ → Prop where
  | spaces (column k : ℕ) : Lead true column (List.replicate k ' ') (column + k)
  | line {keyAllowed : Bool} {column n : ℕ} {b : Char} {g : List Char} (h_b : IsLineBreak b) (h_g : Indentation g n) :
      Lead keyAllowed column (b :: g) n

/-- Whether a text starts with a gap, as a text behind a mark has to. -/
def StartsGap (cs : List Char) : Prop := ∃ x xs, cs = x :: xs ∧ isGap x = true

/-- An array in the column of the block around it opens no block of its own. -/
def blockless (indent : ℤ) : Layout → Prop
  | .seq _ column _ => ¬indent < column
  | _ => False

/-- A name in the column of its block is cut as a name. -/
def NameFits (column : ℕ) (k : Name) : Prop :=
  if k.simple then
    (∀ tail, Cursor.endsOr isGap tail.head? = true →
      Scans k.text (.scalar (String.ofList k.key) k.form) (':' :: tail) ∧
        ∀ c : Cursor, c.rest = k.text ++ ':' :: tail → c.atDocumentMarker = false) ∧ k.text.length ≤ 1024
  else StartsGap k.text ∧
    ∀ rest, StartsToken rest → Reads column true (column + 1) k.text [.scalar (String.ofList k.key) k.form] rest column

def behindName (column : ℕ) (k : Name) : ℕ := if k.simple then column + (k.text.length + 1) else column + 1

theorem lt_behindName (n : ℕ) (k : Name) : n < behindName n k := by
  unfold behindName
  split <;> omega

theorem behindName_of_explicit {n : ℕ} {k : Name} (h : (!k.simple) = true) : behindName n k = n + 1 := by
  rw [behindName, if_neg (by simpa using h)]

mutual

/-- The parts of a layout stand where the notation wants them, behind a mark in a block and in front of `stop`. -/
def Fits (indent : ℤ) (keyAllowed : Bool) (column : ℕ) (stop : Option ℕ) : Layout → Prop
  | .leaf text content =>
    ∀ rest, Follows stop rest → Reads indent keyAllowed column text content.tokens rest (stop.getD 0)
  | .seq lead n items => items ≠ [] ∧ indent ≤ n ∧ Lead keyAllowed column lead n ∧ ItemsFit n stop items
  | .map lead n fields => fields ≠ [] ∧ indent < n ∧ Lead keyAllowed column lead n ∧ FieldsFit n stop fields

/-- `Fits` item by item: the column of the next dash follows all items but the last. -/
def ItemsFit (column : ℕ) (stop : Option ℕ) : List Layout → Prop
  | [] => True
  | l :: rest => StartsGap l.text ∧ ¬l.blockless column ∧
      l.Fits column true (column + 1) (if rest.isEmpty then stop else some column) ∧ ItemsFit column stop rest

/-- `Fits` field by field. -/
def FieldsFit (column : ℕ) (stop : Option ℕ) : List (Name × Layout) → Prop
  | [] => True
  | (k, l) :: rest => NameFits column k ∧ StartsGap l.text ∧
      l.Fits column (!k.simple) (behindName column k) (if rest.isEmpty then stop else some column) ∧
      FieldsFit column stop rest

end

/-! ### Reading -/

section

variable {c : Cursor} {indent : ℤ} {outer : List ℤ} {keyAllowed : Bool} {reversed : List Token} {rest : List Char}
  {column n : ℕ} {stop : Option ℕ}

theorem Follows.arrives (h : Follows stop rest) : Arrives rest (stop.getD 0) := by
  cases stop with
  | none => exact .inr ⟨h, rfl⟩
  | some n => exact .inl h

/-- The gap in front of the first item or field is passed. -/
theorem Lead.passes (indent : ℤ) (outer : List ℤ) (reversed : List Token) {lead : List Char} (h : Lead keyAllowed column lead n) (h_rest : c.rest = lead ++ rest)
    (h_column : c.column = column) (h_starts : StartsToken rest) : ∃ c', c'.rest = rest ∧ c'.column = n ∧
      Passes 0 (block c indent outer keyAllowed reversed) (block c' indent outer true reversed) := by
  cases h with
  | spaces column k =>
    have h_token : AtToken rest := by
      obtain ⟨x, xs, rfl, h_x⟩ := h_starts
      intro y h_y
      cases h_y
      exact h_x
    refine ⟨c.skip k, ?_, by rw [Cursor.skip_column, h_column], Passes.spaces h_rest h_token⟩
    have h_behind := Cursor.skip_rest_of_append h_rest
    rwa [List.length_replicate] at h_behind
  | line h_b h_g =>
    exact Passes.gap indent outer keyAllowed reversed (droppable_none _) h_rest (.line h_b h_g (.inl h_starts))

/-- The first item behind a dash stands where a token starts. -/
theorem startsToken_itemsText {items : List Layout} (h : items ≠ []) : StartsToken (itemsText items ++ rest) := by
  obtain ⟨l, items, rfl⟩ := List.exists_cons_of_ne_nil h
  exact ⟨'-', _, rfl, by decide⟩

theorem startsToken_marked {k : Name} {tail : List Char} (h : NameFits column k) : StartsToken (k.marked ++ tail) := by
  unfold NameFits at h
  unfold Name.marked
  split at h
  · next h_simple =>
    obtain ⟨⟨x, xs, h_text, h_x⟩, -⟩ := (h.1 [] rfl).1
    rw [if_pos h_simple, h_text]
    exact ⟨x, _, rfl, h_x⟩
  · next h_explicit =>
    rw [if_neg h_explicit]
    exact ⟨'?', _, rfl, by decide⟩

theorem startsToken_fieldsText {fields : List (Name × Layout)} (h : fields ≠ []) (h_fit : FieldsFit column stop fields) :
    StartsToken (fieldsText fields ++ rest) := by
  obtain ⟨⟨k, l⟩, fields, rfl⟩ := List.exists_cons_of_ne_nil h
  rw [fieldsText, List.append_assoc]
  exact startsToken_marked h_fit.1

theorem StartsGap.endsOr {cs tail : List Char} (h : StartsGap cs) : Cursor.endsOr isGap (cs ++ tail).head? = true := by
  obtain ⟨x, xs, rfl, h_x⟩ := h
  exact h_x

/-- A name with its marks is passed, and opens the block in which it is the first. -/
theorem NameFits.passes (outer : List ℤ) (reversed : List Token) {k : Name} {tail : List Char} {i : ℤ} (h : NameFits column k)
    (h_rest : c.rest = k.marked ++ tail) (h_column : c.column = column) (h_i : i ≤ column)
    (h_tail : Cursor.endsOr isGap tail.head? = true) :
    ∃ c', c'.rest = tail ∧ c'.column = behindName column k ∧ Passes k.marked.length (block c i outer true reversed)
      (block c' column (entered i column outer) (!k.simple)
        (.value :: .scalar (String.ofList k.key) k.form :: .key :: opened i column .openBlockMapping reversed)) := by
  subst h_column
  unfold NameFits at h
  unfold Name.marked at h_rest ⊢
  unfold behindName
  cases h_simple : k.simple with
  -- a simple key is passed with its colon in one step
  | true =>
    simp only [h_simple, if_true] at h h_rest ⊢
    obtain ⟨h_scan, h_marker⟩ := h.1 tail h_tail
    have h_rest' : c.rest = k.text ++ ':' :: tail := by simpa using h_rest
    refine ⟨c.skip (k.text.length + 1), ?_, rfl, ?_⟩
    · rw [← Cursor.skip_skip, Cursor.skip_rest, Cursor.skip_rest_of_append h_rest']
      rfl
    · simpa using Passes.simpleKey outer reversed h_scan h_tail h_rest' h_i (h_marker c h_rest') h.2
  -- question mark, name and colon are three tokens
  | false =>
    simp only [h_simple, Bool.false_eq_true, if_false] at h h_rest ⊢
    obtain ⟨h_gap, h_reads⟩ := h
    have h_rest' : c.rest = '?' :: (k.text ++ (':' :: tail)) := by simpa using h_rest
    have h_question := Passes.question outer reversed h_rest' h_gap.endsOr h_i
    obtain ⟨c₁, h_c₁, h_column₁, h_name⟩ := h_reads (':' :: tail) ⟨':', tail, rfl, by decide⟩ (c.skip 1)
      (entered i c.column outer) (.key :: opened i c.column .openBlockMapping reversed)
      (by rw [Cursor.skip_rest, h_rest']; rfl) rfl
    have h_colon := Passes.colon (entered i c.column outer)
      ([.scalar (String.ofList k.key) k.form] ++ .key :: opened i c.column .openBlockMapping reversed) h_c₁ h_tail (show ((c.column : ℕ) : ℤ) = c₁.column by rw [h_column₁])
    refine ⟨c₁.skip 1, by rw [Cursor.skip_rest, h_c₁]; rfl, by rw [Cursor.skip_column, h_column₁], ?_⟩
    exact ((h_question.trans h_name rfl).trans h_colon rfl).mono (by simp; omega)

/-- In front of what follows a block further in is closed. -/
theorem closes (h_stop : ∀ n ∈ stop, (n : ℤ) ≤ indent) (h_rest : Follows stop rest) (h_c : c.rest = rest)
    (h_column : c.column = stop.getD 0) (h_lt : indent < column) :
    Passes 0 (block c column (indent :: outer) true reversed) (block c indent outer true (.closeBlock :: reversed)) := by
  refine Passes.close (by rw [h_c]; exact atToken_of_arrives h_rest.arrives) (fun h_ne => ?_) (by omega)
  cases stop with
  | none => exact absurd (h_c.trans h_rest) h_ne
  | some n =>
    have h_n : c.column = n := h_column
    have h_le := h_stop n rfl
    omega

mutual

/-- A layout that fits is read as its tokens. -/
theorem reads {indent : ℤ} {keyAllowed : Bool} {column : ℕ} {stop : Option ℕ} {rest : List Char}
    (h_stop : ∀ n ∈ stop, (n : ℤ) ≤ indent) (h_rest : Follows stop rest) : (l : Layout) →
      l.Fits indent keyAllowed column stop → Reads indent keyAllowed column l.text (l.tokens indent) rest (stop.getD 0)
  | .leaf _ _, h => h rest h_rest
  | .seq lead n items, h => by
    intro c outer reversed h_c h_column
    obtain ⟨h_ne, h_n, h_lead, h_items⟩ := h
    have h_c' : c.rest = lead ++ (itemsText items ++ rest) := by simpa [text] using h_c
    obtain ⟨c₁, h_c₁, h_column₁, h_pass₁⟩ := h_lead.passes indent outer reversed h_c' h_column
      (startsToken_itemsText h_ne)
    obtain ⟨c₂, h_c₂, h_column₂, h_pass₂⟩ := itemsRead (fun k h_k => by have := h_stop k h_k; omega) h_rest items h_ne
      h_items c₁ indent outer reversed h_n h_c₁ h_column₁
    have h_pass := (h_pass₁.trans h_pass₂ rfl).mono (show 0 + (itemsText items).length ≤ (text (.seq lead n items)).length
      by rw [text, List.length_append]; omega)
    refine ⟨c₂, h_c₂, h_column₂, ?_⟩
    rw [tokens]
    -- items may stand in the column of the field that they belong to; then no block opens
    by_cases h_lt : indent < n
    · rw [entered, opened, if_pos h_lt, if_pos h_lt] at h_pass
      rw [if_pos h_lt]
      simpa using h_pass.trans (closes h_stop h_rest h_c₂ h_column₂ h_lt) rfl
    · obtain rfl : indent = n := by omega
      rw [entered_self, opened_self] at h_pass
      rw [if_neg h_lt]
      exact h_pass
  | .map lead n fields, h => by
    intro c outer reversed h_c h_column
    obtain ⟨h_ne, h_n, h_lead, h_fields⟩ := h
    have h_c' : c.rest = lead ++ (fieldsText fields ++ rest) := by simpa [text] using h_c
    obtain ⟨c₁, h_c₁, h_column₁, h_pass₁⟩ := h_lead.passes indent outer reversed h_c' h_column
      (startsToken_fieldsText h_ne h_fields)
    obtain ⟨c₂, h_c₂, h_column₂, h_pass₂⟩ := fieldsRead (fun k h_k => by have := h_stop k h_k; omega) h_rest fields h_ne
      h_fields c₁ indent outer reversed (Int.le_of_lt h_n) h_c₁ h_column₁
    have h_pass := (h_pass₁.trans h_pass₂ rfl).mono
      (show 0 + (fieldsText fields).length ≤ (text (.map lead n fields)).length
        by rw [text, List.length_append]; omega)
    refine ⟨c₂, h_c₂, h_column₂, ?_⟩
    rw [entered, opened, if_pos h_n, if_pos h_n] at h_pass
    rw [tokens]
    simpa using h_pass.trans (closes h_stop h_rest h_c₂ h_column₂ h_n) rfl

/-- Items in their column are read one after the other; the first of them may open the block. -/
theorem itemsRead {column : ℕ} {stop : Option ℕ} {rest : List Char} (h_stop : ∀ n ∈ stop, n ≤ column)
    (h_rest : Follows stop rest) : (items : List Layout) → items ≠ [] → ItemsFit column stop items →
      ∀ (c : Cursor) (i : ℤ) (outer : List ℤ) (reversed : List Token), i ≤ column → c.rest = itemsText items ++ rest →
        c.column = column → ∃ c', c'.rest = rest ∧ c'.column = stop.getD 0 ∧
          Passes (itemsText items).length (block c i outer true reversed)
            (block c' column (entered i column outer) true
              ((itemsTokens column items).reverse ++ opened i column .openBlockSequence reversed))
  | [], h_ne, _ => absurd rfl h_ne
  | l :: items, _, h => by
    intro c i outer reversed h_i h_c h_column
    subst h_column
    obtain ⟨h_gap, -, h_fits, h_items⟩ := h
    have h_c' : c.rest = '-' :: (l.text ++ (itemsText items ++ rest)) := by simpa [itemsText] using h_c
    have h_dash := Passes.dash outer reversed h_c' h_gap.endsOr h_i
    have h_behind : (c.skip 1).rest = l.text ++ (itemsText items ++ rest) := by rw [Cursor.skip_rest, h_c']; rfl
    cases items with
    | nil =>
      obtain ⟨c₁, h_c₁, h_column₁, h_item⟩ := reads (fun n h_n => Int.ofNat_le.mpr (h_stop n h_n)) h_rest l
        h_fits (c.skip 1) (entered i c.column outer) (.blockItem :: opened i c.column .openBlockSequence reversed)
        (by simpa [itemsText] using h_behind) rfl
      -- the last item is followed by what follows the list
      have h_pass := (h_dash.trans h_item rfl).mono
        (show 1 + l.text.length ≤ (itemsText [l]).length by simp [itemsText]; omega)
      exact ⟨c₁, h_c₁, h_column₁, by simpa [itemsTokens] using h_pass⟩
    | cons next items =>
      have h_text : itemsText (l :: next :: items) = '-' :: (l.text ++ itemsText (next :: items)) := rfl
      have h_next : Follows (some c.column) (itemsText (next :: items) ++ rest) :=
        startsToken_itemsText (List.cons_ne_nil _ _)
      obtain ⟨c₁, h_c₁, h_column₁, h_item⟩ := reads (fun n h_n => by cases h_n; exact Int.le_refl _) h_next l
        h_fits (c.skip 1) (entered i c.column outer) (.blockItem :: opened i c.column .openBlockSequence reversed)
        h_behind rfl
      obtain ⟨c₂, h_c₂, h_column₂, h_others⟩ := itemsRead h_stop h_rest (next :: items) (List.cons_ne_nil _ _) h_items
        c₁ c.column (entered i c.column outer)
        ((l.tokens c.column).reverse ++ .blockItem :: opened i c.column .openBlockSequence reversed) (Int.le_refl _) h_c₁
        h_column₁
      -- the block was opened by the first dash; the others stand in it
      rw [entered_self, opened_self] at h_others
      have h_pass := ((h_dash.trans h_item rfl).trans h_others rfl).mono
        (show _ ≤ (itemsText (l :: next :: items)).length by
          rw [h_text, List.length_cons, List.length_append]; omega)
      refine ⟨c₂, h_c₂, h_column₂, ?_⟩
      rw [itemsTokens]
      simpa using h_pass

/-- Fields in their column are read one after the other. -/
theorem fieldsRead {column : ℕ} {stop : Option ℕ} {rest : List Char} (h_stop : ∀ n ∈ stop, n ≤ column)
    (h_rest : Follows stop rest) : (fields : List (Name × Layout)) → fields ≠ [] → FieldsFit column stop fields →
      ∀ (c : Cursor) (i : ℤ) (outer : List ℤ) (reversed : List Token), i ≤ column → c.rest = fieldsText fields ++ rest →
        c.column = column → ∃ c', c'.rest = rest ∧ c'.column = stop.getD 0 ∧
          Passes (fieldsText fields).length (block c i outer true reversed)
            (block c' column (entered i column outer) true
              ((fieldsTokens column fields).reverse ++ opened i column .openBlockMapping reversed))
  | [], h_ne, _ => absurd rfl h_ne
  | (k, l) :: fields, _, h => by
    intro c i outer reversed h_i h_c h_column
    obtain ⟨h_name, h_gap, h_fits, h_fields⟩ := h
    have h_c' : c.rest = k.marked ++ (l.text ++ (fieldsText fields ++ rest)) := by simpa [fieldsText] using h_c
    obtain ⟨c₀, h_c₀, h_column₀, h_pass₀⟩ := h_name.passes outer reversed h_c' h_column h_i h_gap.endsOr
    cases fields with
    | nil =>
      obtain ⟨c₁, h_c₁, h_column₁, h_value⟩ := reads (fun n h_n => Int.ofNat_le.mpr (h_stop n h_n)) h_rest l
        h_fits c₀ (entered i column outer)
        (.value :: .scalar (String.ofList k.key) k.form :: .key :: opened i column .openBlockMapping reversed)
        (by simpa [fieldsText] using h_c₀) h_column₀
      have h_pass := (h_pass₀.trans h_value rfl).mono
        (show _ ≤ (fieldsText [(k, l)]).length by simp [fieldsText])
      exact ⟨c₁, h_c₁, h_column₁, by simpa [fieldsTokens] using h_pass⟩
    | cons next fields =>
      have h_text : fieldsText ((k, l) :: next :: fields) = k.marked ++ (l.text ++ fieldsText (next :: fields)) := rfl
      have h_next : Follows (some column) (fieldsText (next :: fields) ++ rest) :=
        startsToken_fieldsText (List.cons_ne_nil _ _) h_fields
      obtain ⟨c₁, h_c₁, h_column₁, h_value⟩ := reads (fun n h_n => by cases h_n; exact Int.le_refl _) h_next l
        h_fits c₀ (entered i column outer)
        (.value :: .scalar (String.ofList k.key) k.form :: .key :: opened i column .openBlockMapping reversed)
        h_c₀ h_column₀
      obtain ⟨c₂, h_c₂, h_column₂, h_others⟩ := fieldsRead h_stop h_rest (next :: fields) (List.cons_ne_nil _ _) h_fields
        c₁ column (entered i column outer) ((l.tokens column).reverse ++
          .value :: .scalar (String.ofList k.key) k.form :: .key :: opened i column .openBlockMapping reversed)
        (Int.le_refl _) h_c₁ h_column₁
      -- the block was opened by the first key; the others stand in it
      rw [entered_self, opened_self] at h_others
      have h_pass := ((h_pass₀.trans h_value rfl).trans h_others rfl).mono
        (show _ ≤ (fieldsText ((k, l) :: next :: fields)).length by
          rw [h_text, List.length_append, List.length_append]; omega)
      refine ⟨c₂, h_c₂, h_column₂, ?_⟩
      rw [fieldsTokens]
      simpa using h_pass

end

end

end Layout

/-- **A text whose layout fits is cut into the tokens of the layout**, and without a fault. -/
theorem tokens_of_fits {l : Layout} (h : l.Fits (-1) true 0 none) (h_allowed : ∀ x ∈ l.text, isAllowed x = true) :
    tokens (String.ofList l.text) = (l.tokens (-1), false) := by
  have h_follows : Layout.Follows none [] := rfl
  have h_reads := Layout.reads (fun n (h_n : n ∈ none) => nomatch h_n) h_follows l h
  obtain ⟨c, h_c, -, h_pass⟩ := h_reads (Cursor.start l.text) [] [] (by rw [List.append_nil]; rfl) rfl
  have h_end : Cuts 1 (block c (-1) [] true ((l.tokens (-1)).reverse ++ [])) (l.tokens (-1)) := by
    intro fuel h_fuel
    obtain ⟨fuel, rfl⟩ : ∃ more, fuel = more + 1 := ⟨fuel - 1, by omega⟩
    rw [block, run_at_end fuel h_c (droppable_none _), closed_of_le (Int.le_refl _)]
    simp
  unfold tokens
  rw [String.toList_ofList, if_pos (List.all_eq_true.mpr h_allowed), start_eq]
  exact h_pass 1 _ h_end _ (by omega)

end Yaml

end ScriptYard
