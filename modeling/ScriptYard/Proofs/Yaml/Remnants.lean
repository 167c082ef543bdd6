import ScriptYard.Proofs.Yaml.Endings
import ScriptYard.Proofs.Yaml.Pages

/-!
# What is left of a document without the blanks at its end

Only a literal block, or a text without quotes, can end a document in blanks of its own; all other scalars, and the
brackets of empty arrays and objects, end in a character that is no blank. Of a literal block the blanks at its end are
cut off, and what is left is read as what is left of the string: the header has nothing more to take off, and where
nothing but the header is left the string is empty (`EndStanding.cutLiteral`). So what is left of a document is a
document again (`readDocument_cut`): the one of the value whose last string, if it is written as a literal block, has
lost the blanks at its end (`cutValue`, `cutOutline`). It is the same value exactly if that string had none
(`cutValue_eq_self_iff`).

A last string without quotes that ends in a blank beyond ASCII is left out (`EndsInkIn`): without its blanks it may be a
word for something else, a mark, or nothing.
-/

namespace ScriptYard

namespace Yaml

open Scanner Layout

/-! ### Literal blocks that are cut -/

section

variable {cs : List Char}

/-- The lines of blanks behind a text are blanks. -/
theorem linesText_append {g : List Char} (h_g : ∀ x ∈ g, isBlank x = true) (n : ℕ) (broken : Bool) :
    ∃ g', linesText n broken (cs ++ g) = linesText n broken cs ++ g' ∧ ∀ x ∈ g', isBlank x = true := by
  induction cs generalizing broken with
  | nil =>
    -- the indentation that is put in front of blanks is blank as well
    refine ⟨linesText n broken g, rfl, fun x h_x => ?_⟩
    obtain rfl | h_x := mem_linesText h_x
    · decide
    · exact h_g x h_x
  | cons y cs ih =>
    rw [List.cons_append, linesText, linesText]
    split
    · obtain ⟨g', h_eq, h_g'⟩ := ih true
      exact ⟨g', by rw [h_eq]; rfl, h_g'⟩
    · obtain ⟨g', h_eq, h_g'⟩ := ih false
      exact ⟨g', by rw [h_eq]; simp, h_g'⟩

/-- The last line ends as the text does. -/
theorem getLast?_linesText (n : ℕ) (broken : Bool) : (linesText n broken cs).getLast? = cs.getLast? := by
  induction cs generalizing broken with
  | nil => rfl
  | cons y cs ih =>
    have h_cons : ∀ broken, (y :: linesText n broken cs).getLast? = (y :: cs).getLast? := fun broken => by
      rw [List.getLast?_cons, List.getLast?_cons, ih]
    rw [linesText]
    split
    · exact h_cons true
    · rw [List.getLast?_append_of_ne_nil _ (List.cons_ne_nil _ _), h_cons]

/-- What is left of a literal block without the blanks at its end. -/
def cutLiteral (cs : List Char) (n : ℕ) : List Char :=
  (Page.literalHeader cs).toList ++ if trimEnd cs = [] then [] else '\n' :: linesText n true (trimEnd cs)

theorem endsInk_header (cs : List Char) : Outline.EndsInk (Page.literalHeader cs).toList := by
  rw [toList_literalHeader]
  cases givesIndentation cs <;> cases chompingOf cs.reverse <;> exact ⟨_, rfl, by decide⟩

theorem endsIn_cutLiteral (cs : List Char) (n : ℕ) :
    Outline.EndsIn (ScalarStyle.literal.text cs n) (cutLiteral cs n) := by
  obtain ⟨g, h_cs, h_g, h_last⟩ := exists_trimEnd cs
  obtain ⟨g', h_lines, h_g'⟩ : ∃ g', linesText n true (trimEnd cs ++ g) = linesText n true (trimEnd cs) ++ g' ∧
    ∀ x ∈ g', isBlank x = true := linesText_append h_g n true
  rw [← h_cs] at h_lines
  unfold cutLiteral
  rw [ScalarStyle.text, h_lines]
  by_cases h_nil : trimEnd cs = []
  · -- Of a text of blanks not even the first line is left.
    rw [if_pos h_nil, List.append_nil, h_nil]
    exact ⟨endsInk_header cs, '\n' :: g', rfl, List.forall_mem_cons.mpr ⟨by decide, h_g'⟩⟩
  · rw [if_neg h_nil]
    refine Outline.EndsIn.append ⟨?_, g', rfl, h_g'⟩ _
    refine Outline.EndsInk.cons ⟨(trimEnd cs).getLast h_nil, ?_, h_last _ (List.getLast?_eq_getLast_of_ne_nil h_nil)⟩ _
    rw [getLast?_linesText, List.getLast?_eq_getLast_of_ne_nil h_nil]
    rfl

/-- A header with nothing behind it is read as an empty text. -/
theorem readBlock_header {c : Cursor} (outer : ℤ) {given : Bool} {chomping : Chomping}
    (h : c.rest = headerText given chomping) :
    ∃ c', c'.rest = [] ∧ readBlock true outer c = some ⟨[], c', false⟩ := by
  have h_all : c.rest = headerText given chomping ++ [] := by rw [h, List.append_nil]
  obtain ⟨c₁, h_c₁, -, -, h_read⟩ := readBlock_eq outer h_all nofun
  have h_end : ∀ n, (c₁.skip n).rest = [] := fun n => by rw [Cursor.skip_rest, h_c₁]; exact List.drop_nil
  -- nothing is there to be skipped, whatever the indentation
  have h_empty : ∀ indent : Option ℕ, readEmptyLines indent (c₁.rest.length + 1) [] 0 c₁ =
      some ([], max 0 (c₁.column + indentationWidth indent c₁), c₁.skip (indentationWidth indent c₁)) := by
    intro indent
    refine readEmptyLines_stop ?_
    rw [Cursor.peek, h_end]
    simp
  refine ⟨c₁.skip (indentationWidth (headerIndent outer given) c₁), h_end _, ?_⟩
  rw [h_read, h_empty]
  simp only [Option.bind_eq_bind, Option.bind_some, readBlockLines_stop _ _ (Or.inr (h_end _))]
  cases chomping <;> rfl

/-- A header with nothing behind it is cut as an empty literal block. -/
theorem reads_header {indent : ℤ} {keyAllowed : Bool} {column : ℕ} (given : Bool) (chomping : Chomping)
    (h_column : indent < column) :
    Reads indent keyAllowed column (headerText given chomping) [.scalar (String.ofList []) .literal] [] 0 := by
  intro c outer reversed h_rest h_c
  rw [List.append_nil] at h_rest
  obtain ⟨c', h_c', h_read⟩ := readBlock_header indent h_rest
  have h_token := (nextToken_bar (Cursor.atDocumentMarker_of_rest h_rest (by decide) (by decide))).trans
    (blockScalar_block outer keyAllowed reversed h_read)
  have h_pass := Passes.token h_rest (by rw [h_rest]; intro x h_x; cases h_x; decide) (by omega) h_token dropStale_block
  obtain ⟨c'', h_c'', h_zero, h_end⟩ := Passes.gap indent outer true (.scalar (String.ofList []) .literal :: reversed)
    (droppable_none c'.line) (show c'.rest = [] ++ [] from h_c') .nothing
  exact ⟨c'', h_c'', h_zero, (h_pass.trans h_end rfl).mono (by simp [headerText])⟩

theorem isBlank_of_isBreak {x : Char} (h : isBreak x = true) : isBlank x = true := by
  simp only [isBreak, Bool.or_eq_true, beq_iff_eq] at h
  obtain (((rfl | rfl) | rfl) | rfl) | rfl := h <;> decide

/-- The lines that are left of a literal block are read under its header as what is left of its text. -/
theorem reads_trimmedBlock {indent : ℤ} {keyAllowed : Bool} {column : ℕ} (h : allowsLiteral cs = true)
    (h_ne : trimEnd cs ≠ []) (h_column : indent < column) :
    Reads indent keyAllowed column
      (headerText (givesIndentation cs) (chompingOf cs.reverse) ++
        '\n' :: linesText (lineColumn indent) true (trimEnd cs))
      [.scalar (String.ofList (trimEnd cs)) .literal] [] 0 := by
  obtain ⟨g, h_cs, -, h_last⟩ := exists_trimEnd cs
  simp only [allowsLiteral, Bool.and_eq_true, Bool.not_eq_true', Bool.or_eq_false_iff] at h
  have h_print : ∀ x ∈ trimEnd cs, isPrintable x = true := fun x h_x =>
    isPrintable_of_needsEscapes h.2.1 (by rw [h_cs]; exact List.mem_append_left g h_x)
  have h_ink : ∀ x ∈ (trimEnd cs).getLast?, isBreak x = false := fun x h_x => by
    rw [Bool.eq_false_iff]
    intro h_break
    exact Bool.noConfusion ((isBlank_of_isBreak h_break).symm.trans (h_last x h_x))
  have h_head : (trimEnd cs).head? = cs.head? := by
    conv_rhs => rw [h_cs]
    rw [List.head?_append_of_ne_nil _ h_ne]
  rw [← List.append_nil (linesText (lineColumn indent) true (trimEnd cs))]
  refine reads_literal (fun x h_x => isOwnBreak_of_isPrintable (h_print x h_x))
    (fun x h_x => ne_tab_of_isPrintable (h_print x h_x)) (indents_lineColumn h_ne h_head indent)
    ⟨rfl, lineColumn_pos indent, .inr ⟨rfl, rfl⟩⟩ (fun _ => rfl) (fun h_breaks => ?_) h_column
    fun u v h_uv => ?_
  · have h_end := h_ink _ (List.getLast?_eq_getLast_of_ne_nil h_ne)
    rw [h_breaks _ (List.getLast_mem h_ne)] at h_end
    cases h_end
  · -- No line break stands at the end, so there is none that the header could take off.
    have h_u : trimEnd cs = u := EndBreaks.unique ⟨(List.append_nil _).symm, by simp, h_ink⟩ h_uv
    obtain rfl : v = [] := by
      have h_eq := h_uv.eq
      rw [← h_u] at h_eq
      simpa using h_eq
    rw [h_u]
    cases chompingOf cs.reverse <;> simp [Chomping.leave]

/-- What is left of a literal block without the blanks at its end is read as what is left of its text. -/
theorem EndStanding.cutLiteral (h : allowsLiteral cs = true) :
    EndStanding (cutLiteral cs) (.scalar (trimEnd cs) .literal) where
  starts n := by
    rw [Yaml.cutLiteral, toList_literalHeader]
    exact ⟨'|', _, rfl, by decide⟩
  allowed n x h_x := by
    have h_holds : ScalarStyle.literal.Holds cs := h
    obtain ⟨-, g, h_eq, -⟩ := endsIn_cutLiteral cs n
    refine isAllowed_styled h_holds n x ?_
    rw [h_eq]
    exact List.mem_append_left g h_x
  reads indent column keyAllowed h_column := by
    rw [Yaml.cutLiteral, toList_literalHeader]
    split
    · next h_nil =>
      -- the text was blank, and the header alone is left
      rw [h_nil, List.append_nil]
      exact reads_header _ _ h_column
    · next h_ne => exact reads_trimmedBlock h h_ne h_column

end

/-! ### What is read back -/

mutual

/-- The string that stands last in a value, if one does. -/
def lastString? : Value → Option String
  | .string s => some s
  | .array items => lastStringOfItems? items
  | .object fields => lastStringOfFields? fields
  | .null | .bool _ | .number _ => none

def lastStringOfItems? : List Value → Option String
  | [] => none
  | v :: rest => if rest.isEmpty then lastString? v else lastStringOfItems? rest

def lastStringOfFields? : List (String × Value) → Option String
  | [] => none
  | (_, v) :: rest => if rest.isEmpty then lastString? v else lastStringOfFields? rest

end

mutual

/-- A value whose last string, if it is written as a literal block, has lost the blanks at its end. -/
def cutValue : Value → Value
  | .string s => .string (if styleOf s = .literal then trimBlanksEnd s else s)
  | .array items => .array (cutItems items)
  | .object fields => .object (cutFields fields)
  | .null => .null
  | .bool b => .bool b
  | .number n => .number n

/-- `cutValue` of the last item. -/
def cutItems : List Value → List Value
  | [] => []
  | v :: rest => if rest.isEmpty then [cutValue v] else v :: cutItems rest

/-- `cutValue` of the last field. -/
def cutFields : List (String × Value) → List (String × Value)
  | [] => []
  | (key, v) :: rest => if rest.isEmpty then [(key, cutValue v)] else (key, v) :: cutFields rest

end

/-- The last string, if it is written in a style, ends in no blank. -/
def EndsInkIn (style : ScalarStyle) (last : Option String) : Prop :=
  ∀ s ∈ last, styleOf s = style → ∀ x ∈ s.toList.getLast?, isBlank x = false

theorem trimBlanksEnd_eq_self_iff (s : String) :
    trimBlanksEnd s = s ↔ ∀ x ∈ s.toList.getLast?, isBlank x = false := by
  constructor
  · intro h x h_x
    obtain ⟨-, -, -, h_last⟩ := exists_trimEnd s.toList
    have h_list := congrArg String.toList h
    rw [trimBlanksEnd, String.toList_ofList] at h_list
    exact h_last x (by rwa [h_list])
  · intro h
    have h_trim : trimEnd (s.toList ++ []) = s.toList := trimEnd_append (by simp) h
    rw [List.append_nil] at h_trim
    rw [trimBlanksEnd, h_trim, String.ofList_toList]

mutual

/-- **Nothing is cut off a value exactly if its last string, as a literal block, ends in no blank.** -/
theorem cutValue_eq_self_iff (v : Value) : cutValue v = v ↔ EndsInkIn .literal (lastString? v) := by
  match v with
  | .null | .bool _ | .number _ => simp [cutValue, lastString?, EndsInkIn]
  | .string s =>
    rw [cutValue, lastString?]
    by_cases h_literal : styleOf s = .literal
    · rw [if_pos h_literal, Value.string.injEq, trimBlanksEnd_eq_self_iff]
      simp [h_literal, EndsInkIn]
    · simp [h_literal, EndsInkIn]
  | .array items => rw [cutValue, lastString?, Value.array.injEq, cutItems_eq_self_iff]
  | .object fields => rw [cutValue, lastString?, Value.object.injEq, cutFields_eq_self_iff]

/-- `cutValue_eq_self_iff` of the last item. -/
theorem cutItems_eq_self_iff (items : List Value) :
    cutItems items = items ↔ EndsInkIn .literal (lastStringOfItems? items) := by
  match items with
  | [] => simp [cutItems, lastStringOfItems?, EndsInkIn]
  | [v] => simpa [cutItems, lastStringOfItems?] using cutValue_eq_self_iff v
  | v :: w :: rest =>
    rw [cutItems, lastStringOfItems?, List.isEmpty_cons, if_neg Bool.false_ne_true, if_neg Bool.false_ne_true,
      List.cons_inj_right]
    exact cutItems_eq_self_iff (w :: rest)

/-- `cutValue_eq_self_iff` of the last field. -/
theorem cutFields_eq_self_iff (fields : List (String × Value)) :
    cutFields fields = fields ↔ EndsInkIn .literal (lastStringOfFields? fields) := by
  match fields with
  | [] => simp [cutFields, lastStringOfFields?, EndsInkIn]
  | [(key, v)] => simpa [cutFields, lastStringOfFields?] using cutValue_eq_self_iff v
  | (key, v) :: f :: rest =>
    rw [cutFields, lastStringOfFields?, List.isEmpty_cons, if_neg Bool.false_ne_true, if_neg Bool.false_ne_true,
      List.cons_inj_right]
    exact cutFields_eq_self_iff (f :: rest)

end

/-! ### What is left of an outline -/

mutual

/-- What is left of what is written of a value without the blanks at the end. -/
def cutOutline : Value → Outline
  | .string s =>
    if styleOf s = .literal then .leaf (cutLiteral s.toList) false (.scalar (trimEnd s.toList) .literal)
    else outline (.string s)
  | .array (v :: rest) => .seq (cutOutlineItems (v :: rest))
  | .object (f :: rest) => .map (cutOutlineFields (f :: rest))
  | v => outline v

/-- `cutOutline` of the last item. -/
def cutOutlineItems : List Value → List Outline
  | [] => []
  | v :: rest => if rest.isEmpty then [cutOutline v] else outline v :: cutOutlineItems rest

/-- `cutOutline` of the last field. -/
def cutOutlineFields : List (String × Value) → List ((ℕ → Name) × Outline)
  | [] => []
  | (key, v) :: rest =>
    if rest.isEmpty then [(keyName key, cutOutline v)] else (keyName key, outline v) :: cutOutlineFields rest

end

theorem cutOutlineItems_isEmpty (items : List Value) : (cutOutlineItems items).isEmpty = items.isEmpty := by
  cases items with
  | nil => rfl
  | cons v rest =>
    rw [cutOutlineItems]
    split <;> rfl

theorem cutOutlineFields_isEmpty (fields : List (String × Value)) :
    (cutOutlineFields fields).isEmpty = fields.isEmpty := by
  cases fields with
  | nil => rfl
  | cons f rest =>
    rw [cutOutlineFields]
    split <;> rfl

theorem cutOutlineItems_cons (v w : Value) (rest : List Value) :
    cutOutlineItems (v :: w :: rest) = outline v :: cutOutlineItems (w :: rest) := by
  rw [cutOutlineItems, List.isEmpty_cons, if_neg Bool.false_ne_true]

theorem cutOutlineFields_cons (key : String) (v : Value) (f : String × Value) (rest : List (String × Value)) :
    cutOutlineFields ((key, v) :: f :: rest) = (keyName key, outline v) :: cutOutlineFields (f :: rest) := by
  rw [cutOutlineFields, List.isEmpty_cons, if_neg Bool.false_ne_true]

/-- What stands in front of everything stands in front of nothing. -/
theorem Standing.endStanding {text : ℕ → List Char} {closed : Bool} {content : Leaf}
    (h : Standing false text closed content) : EndStanding text content where
  starts := h.starts
  allowed := h.allowed
  reads indent column keyAllowed h_column := by
    have h_reads := h.reads indent column keyAllowed none [] h_column (by simp) rfl
    rwa [gapBehind_end, List.append_nil] at h_reads

/-- What is left of a value: a leaf that stands for itself, or parts. -/
theorem cutOutline_cases (v : Value) :
    (∃ text closed content, cutOutline v = .leaf text closed content ∧ EndStanding text content) ∨
      (∃ w rest, v = .array (w :: rest)) ∨ ∃ key w rest, v = .object ((key, w) :: rest) := by
  -- only strings in literal blocks are cut
  have h_same : cutOutline v = outline v →
      (∃ text closed content, cutOutline v = .leaf text closed content ∧ EndStanding text content) ∨
        (∃ w rest, v = .array (w :: rest)) ∨ ∃ key w rest, v = .object ((key, w) :: rest) := fun h_same => by
    obtain ⟨text, closed, content, h_eq, h⟩ | ⟨w, rest, rfl⟩ | ⟨⟨key, w⟩, rest, rfl⟩ := outline_cases false v
    · exact .inl ⟨text, closed, content, h_same.trans h_eq, h.endStanding⟩
    · exact .inr (.inl ⟨w, rest, rfl⟩)
    · exact .inr (.inr ⟨key, w, rest, rfl⟩)
  match v with
  | .null | .bool _ | .number _ => exact h_same rfl
  | .array [] | .object [] => exact h_same rfl
  | .array (w :: rest) => exact .inr (.inl ⟨w, rest, rfl⟩)
  | .object ((key, w) :: rest) => exact .inr (.inr ⟨key, w, rest, rfl⟩)
  | .string s =>
    by_cases h_literal : styleOf s = .literal
    · have h_holds := styleOf_holds s
      rw [h_literal] at h_holds
      exact .inl ⟨_, _, _, by rw [cutOutline, if_pos h_literal], .cutLiteral h_holds⟩
    · exact h_same (by rw [cutOutline, if_neg h_literal])

mutual

/-- All parts of what is left of a value are read for themselves. -/
theorem endSound_cutOutline (v : Value) : (cutOutline v).EndSound := by
  obtain ⟨text, closed, content, h_eq, h⟩ | ⟨w, rest, rfl⟩ | ⟨key, w, rest, rfl⟩ := cutOutline_cases v
  · rw [h_eq]
    exact h
  · exact endSound_cutItems w rest
  · exact endSound_cutFields key w rest
  termination_by sizeOf v

/-- `endSound_cutOutline` of the last item. -/
theorem endSound_cutItems (v : Value) (rest : List Value) : Outline.ItemsEndSound (cutOutlineItems (v :: rest)) := by
  cases rest with
  | nil => exact endSound_cutOutline v
  | cons w rest =>
    rw [cutOutlineItems_cons, Outline.ItemsEndSound, cutOutlineItems_isEmpty, List.isEmpty_cons,
      if_neg Bool.false_ne_true]
    exact ⟨sound_outline false v, endSound_cutItems w rest⟩
  termination_by sizeOf (v :: rest)

/-- `endSound_cutOutline` of the last field. -/
theorem endSound_cutFields (key : String) (v : Value) (rest : List (String × Value)) :
    Outline.FieldsEndSound (cutOutlineFields ((key, v) :: rest)) := by
  cases rest with
  | nil => exact ⟨.key key, endSound_cutOutline v⟩
  | cons f rest =>
    rw [cutOutlineFields_cons, Outline.FieldsEndSound, cutOutlineFields_isEmpty, List.isEmpty_cons,
      if_neg Bool.false_ne_true]
    exact ⟨.key key, sound_outline false v, endSound_cutFields f.1 f.2 rest⟩
  termination_by sizeOf ((key, v) :: rest)

end

theorem Outline.EndsInk.endsIn {cs : List Char} (h : Outline.EndsInk cs) : Outline.EndsIn cs cs :=
  ⟨h, [], by simp, by simp⟩

theorem endsInk_concat {c : Char} (h : isBlank c = false) (cs : List Char) : Outline.EndsInk (cs ++ [c]) :=
  Outline.EndsInk.append ⟨c, rfl, h⟩ cs

theorem IsNumeral.endsInk {cs : List Char} (h : IsNumeral cs) : Outline.EndsInk cs := by
  have h_chars : ∀ x ∈ numeralChars, isBlank x = false := List.all_iff_forall_prop.mp (by decide)
  have h_ne := h.allowsPlain.1
  exact ⟨cs.getLast h_ne, List.getLast?_eq_getLast_of_ne_nil h_ne, h_chars _ (h.chars _ (List.getLast_mem h_ne))⟩

/-- A string that is no literal block is written with a character at its end that is no blank. -/
theorem endsInk_styled {s : String} (h_literal : styleOf s ≠ .literal)
    (h : styleOf s = .plain → ∀ x ∈ s.toList.getLast?, isBlank x = false) (n : ℕ) :
    Outline.EndsInk ((styleOf s).text s.toList n) := by
  have h_holds := styleOf_holds s
  cases h_style : styleOf s with
  | literal => exact absurd h_style h_literal
  | single => exact endsInk_concat (by decide) ('\'' :: _)
  | double => exact endsInk_concat (by decide) ('"' :: _)
  | plain =>
    rw [h_style] at h_holds
    have h_last := List.getLast?_eq_getLast_of_ne_nil h_holds.1
    exact ⟨_, h_last, h h_style _ h_last⟩

mutual

/-- The outline of a value is trimmed to what is left of it. -/
theorem trimsTo_cutOutline (v : Value) (h : EndsInkIn .plain (lastString? v)) : (outline v).TrimsTo (cutOutline v) := by
  match v with
  | .null => exact fun _ => Outline.EndsInk.endsIn ⟨'l', rfl, by decide⟩
  | .bool true | .bool false => exact fun _ => Outline.EndsInk.endsIn ⟨'e', rfl, by decide⟩
  | .number (.int i) => exact fun _ => (isNumeral_integerText i).endsInk.endsIn
  | .number (.float x) => exact fun _ => (isNumeral_format _ x).endsInk.endsIn
  | .array [] => exact fun _ => Outline.EndsInk.endsIn ⟨']', rfl, by decide⟩
  | .object [] => exact fun _ => Outline.EndsInk.endsIn ⟨'\x7d', rfl, by decide⟩
  -- a literal block loses its blanks, any other style ends in ink
  | .string s =>
    rw [cutOutline]
    split
    · next h_literal =>
      rw [outline, h_literal]
      exact endsIn_cutLiteral s.toList
    · next h_literal => exact fun n => (endsInk_styled h_literal (h s rfl) n).endsIn
  | .array (w :: rest) => exact trimsTo_cutItems w rest h
  | .object ((key, w) :: rest) => exact trimsTo_cutFields key w rest h
  termination_by sizeOf v

/-- `trimsTo_cutOutline` of the last item. -/
theorem trimsTo_cutItems (v : Value) (rest : List Value) (h : EndsInkIn .plain (lastStringOfItems? (v :: rest))) :
    Outline.ItemsTrimTo (outlineItems (v :: rest)) (cutOutlineItems (v :: rest)) := by
  cases rest with
  | nil => exact ⟨trimsTo_cutOutline v h, rfl⟩
  | cons w rest =>
    rw [cutOutlineItems_cons]
    exact ⟨rfl, cutOutlineItems_isEmpty (w :: rest), trimsTo_cutItems w rest h⟩
  termination_by sizeOf (v :: rest)

/-- `trimsTo_cutOutline` of the last field. -/
theorem trimsTo_cutFields (key : String) (v : Value) (rest : List (String × Value))
    (h : EndsInkIn .plain (lastStringOfFields? ((key, v) :: rest))) :
    Outline.FieldsTrimTo (outlineFields ((key, v) :: rest)) (cutOutlineFields ((key, v) :: rest)) := by
  cases rest with
  | nil => exact ⟨rfl, trimsTo_cutOutline v h, rfl⟩
  | cons f rest =>
    rw [cutOutlineFields_cons]
    exact ⟨rfl, rfl, cutOutlineFields_isEmpty (f :: rest), trimsTo_cutFields f.1 f.2 rest h⟩
  termination_by sizeOf ((key, v) :: rest)

end

/-- **What is left of a text without the blanks at its end** is read as what is left of the value. -/
theorem readDocument_cut {v : Value} (h : EndsInkIn .plain (lastString? v)) :
    ∃ references, readDocument (trimBlanksEnd (write v)) = ⟨(cutOutline v).node, none, references⟩ := by
  rw [trimBlanksEnd, write_eq, String.toList_ofList, Outline.trimEnd_top (trimsTo_cutOutline v h)]
  exact Outline.readDocument_end (endSound_cutOutline v)

end Yaml

end ScriptYard
