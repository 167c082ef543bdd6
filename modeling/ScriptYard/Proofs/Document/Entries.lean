import ScriptYard.Document.Node

/-!
# Reading node by node

What is read of a node is read of its parts, so a document whose nodes are given one by one is read by citing what its
parts are read as: entries of an object (`Node.readValueEntries_cons`, `RecordShape.readEntries_cons`), items of a list
(`Node.readValues_cons`, `Node.mapM_cons`), and then the whole (`Node.readValue_map`, `Node.readList_seq`,
`RecordShape.read_map`). Each time the result is `pure`: no fault, and no reference to follow.

A scalar without quotes has a type by its text. One that starts like no numeral and has a slash in it is a text
(`Plain.ofText_eq_text`), whatever else stands in it.
-/

namespace ScriptYard

/-! ### Scalars that are texts -/

namespace Plain

section

variable {c : Char} {cs : List Char}

/-- What is no decimal digit has no value as one. -/
theorem digit?_ten_eq_none (h : c.isDigit = false) : digit? 10 c = none := by
  have h_a : 'a'.val.toNat = 97 := rfl
  have h_upper : 'A'.val.toNat = 65 := rfl
  have h_toNat : c.toNat = c.val.toNat := rfl
  unfold digit?
  simp only [h, Bool.false_eq_true, if_false, Bool.and_eq_true, decide_eq_true_eq, Char.le_def, UInt32.le_iff_toNat_le]
  rw [if_neg]
  split
  · omega
  · split <;> omega

/-- A numeral starts with a sign or a digit. -/
theorem readInteger?_eq_none (h_digit : c.isDigit = false) (h_plus : c ≠ '+') (h_minus : c ≠ '-') :
    readInteger? (c :: cs) = none := by
  have h_zero : c ≠ '0' := by
    rintro rfl
    cases h_digit
  have h_unsigned : readUnsigned? (c :: cs) = none := by
    -- the prefixes of the bases begin with a zero, which is a digit
    unfold readUnsigned?
    split
    · next h => exact absurd (List.cons.inj h).1 h_zero
    · next h => exact absurd (List.cons.inj h).1 h_zero
    · next h => exact absurd (List.cons.inj h).1 h_zero
    · split
      · rfl
      · simp [readNatural?, readDigits?, digit?_ten_eq_none h_digit]
  unfold readInteger?
  split
  · next h => exact absurd (List.cons.inj h).1 h_plus
  · next h => exact absurd (List.cons.inj h).1 h_minus
  · rw [h_unsigned]
    rfl

/-- A decimal starts with a digit or the point. -/
theorem readDecimal?_eq_none (h_digit : c.isDigit = false) (h_point : c ≠ '.') : readDecimal? (c :: cs) = none := by
  have h_whole : (c :: cs).takeWhile Char.isDigit = [] := by simp [h_digit]
  have h_rest : (c :: cs).dropWhile Char.isDigit = c :: cs := by simp [h_digit]
  unfold readDecimal?
  rw [h_whole, h_rest]
  dsimp only
  split
  · next h => exact absurd (List.cons.inj h).1 h_point
  · rfl

/-- A floating-point number starts with a sign, a digit or the point. -/
theorem readFloat?_eq_none (h_digit : c.isDigit = false) (h_plus : c ≠ '+') (h_minus : c ≠ '-') (h_point : c ≠ '.') :
    readFloat? (c :: cs) = none := by
  have h_finite : readFinite? (c :: cs) = none := by
    unfold readFinite?
    split
    next h =>
      split at h
      · next h_eq => exact absurd (List.cons.inj h_eq).1 h_minus
      · cases h
        rw [readDecimal?_eq_none h_digit h_point]
  have h_ne : ∀ {d : Char} {ds : List Char}, c ≠ d → String.ofList (c :: cs) ≠ String.ofList (d :: ds) := by
    intro d ds h_c h_eq
    exact h_c (List.cons.inj (String.ofList_inj.mp h_eq)).1
  unfold readFloat?
  -- the spellings of infinities and of what is no number start with a sign or the point
  split
  all_goals first
    | next h => exact absurd h (h_ne h_point)
    | next h => exact absurd h (h_ne h_plus)
    | next h => exact absurd h (h_ne h_minus)
    | skip
  split
  · rfl
  · next h => exact absurd (List.cons.inj h).1 h_plus
  · exact h_finite

/-- A text with a slash in it that starts like no number is a text: no spelling of null or a truth value has one. -/
theorem ofText_eq_text (h_digit : c.isDigit = false) (h_sign : c ∉ ['+', '-', '.']) (h_slash : '/' ∈ c :: cs) :
    ofText (String.ofList (c :: cs)) = .text := by
  simp only [List.mem_cons, List.not_mem_nil, or_false, not_or] at h_sign
  obtain ⟨h_plus, h_minus, h_point⟩ := h_sign
  -- no spelling of null or of a truth value has a slash in it
  have h_ne : ∀ {s : String}, '/' ∉ s.toList → String.ofList (c :: cs) ≠ s := by
    rintro s h_s rfl
    rw [String.toList_ofList] at h_s
    exact h_s h_slash
  have h_empty : (String.ofList (c :: cs)).isEmpty = false := by
    rw [Bool.eq_false_iff]
    exact fun h => h_ne (by decide) (String.isEmpty_iff.mp h)
  have h_null : isNull (String.ofList (c :: cs)) = false := by
    simp only [isNull, Bool.or_eq_false_iff, beq_eq_false_iff_ne]
    exact ⟨⟨⟨h_ne (by decide), h_ne (by decide)⟩, h_ne (by decide)⟩, h_ne (by decide)⟩
  have h_bool : readBool? (String.ofList (c :: cs)) = none := by
    unfold readBool?
    split
    all_goals first
      | next h => exact absurd h (h_ne (by decide))
      | rfl
  have h_integer : readInteger? (c :: cs) = none := readInteger?_eq_none h_digit h_plus h_minus
  have h_float : readFloat? (c :: cs) = none := readFloat?_eq_none h_digit h_plus h_minus h_point
  unfold ofText
  rw [h_empty, h_null, h_bool]
  simp only [String.toList_ofList, h_integer, Option.filter_none, h_float, ite_self, Bool.or_false, Bool.false_eq_true,
    if_false]

end

end Plain

/-! ### Values -/

namespace Node

variable {src : Source}

/-- An entry is read by itself. -/
theorem readValueEntries_cons {k n : Node} {rest : List (Node × Node)} {name : String} {v : Value}
    {fields : List (String × Value)} (h_name : k.readText = pure name) (h_value : readValue src n = pure v)
    (h_rest : readValueEntries src rest = pure fields) :
    readValueEntries src ((k, n) :: rest) = pure ((name, v) :: fields) := by
  rw [readValueEntries, h_name, pure_bind, h_value, pure_bind, h_rest, pure_bind]

/-- An item is read by itself. -/
theorem readValues_cons {n : Node} {rest : List Node} {v : Value} {vs : List Value} (h_value : readValue src n = pure v)
    (h_rest : readValues src rest = pure vs) : readValues src (n :: rest) = pure (v :: vs) := by
  rw [readValues, h_value, pure_bind, h_rest, pure_bind]

/-- An object is read by its entries. -/
theorem readValue_map (inner : Source) {entries : List (Node × Node)} {fields : List (String × Value)}
    (h_inner : src.inner = .ok inner) (h : readValueEntries inner entries = pure fields) :
    readValue src (.map none entries) = pure (.object (Fields.ofList fields)) := by
  rw [readValue, h_inner]
  show (do return Value.object (Fields.ofList (← readValueEntries inner entries)) : Reading Value) = _
  rw [h, pure_bind]

/-- An array is read by its items. -/
theorem readValue_seq (inner : Source) {items : List Node} {vs : List Value} (h_inner : src.inner = .ok inner)
    (h : readValues inner items = pure vs) : readValue src (.seq none items) = pure (.array vs) := by
  rw [readValue, h_inner]
  show (do return Value.array (← readValues inner items) : Reading Value) = _
  rw [h, pure_bind]

/-- Fields of any names are read entry by entry. -/
theorem readFields_map (inner : Source) {entries : List (Node × Node)} {fields : List (String × Value)}
    (h_inner : src.inner = .ok inner) (h : readValueEntries inner entries = pure fields) :
    readFields src (.map none entries) = pure (Fields.ofList fields) := by
  rw [readFields, h_inner]
  show (do return Fields.ofList (← readValueEntries inner entries) : Reading (Fields Value)) = _
  rw [h, pure_bind]

/-! ### Lists -/

/-- What goes on with a result goes on with it. -/
theorem bind_of_pure {β γ : Type} {reading : Reading β} {b : β} (h : reading = pure b) (f : β → Reading γ) :
    reading >>= f = f b := by
  rw [h, pure_bind]

/-- An item of a list is read by itself. -/
theorem mapM_cons {β : Type} {read : Node → Reading β} {n : Node} {rest : List Node} {b : β} {bs : List β}
    (h : read n = pure b) (h_rest : rest.mapM read = pure bs) : (n :: rest).mapM read = pure (b :: bs) := by
  rw [List.mapM_cons, h, pure_bind, h_rest, pure_bind]

theorem readList_seq {β : Type} {read : Source → Node → Reading β} (inner : Source) {items : List Node} {bs : List β}
    (h_inner : src.inner = .ok inner) (h : items.mapM (read inner) = pure bs) :
    readList read src (.seq none items) = pure bs := by
  rw [readList, h_inner]
  exact h

end Node

/-! ### Records -/

namespace RecordShape

variable {σ : Type} {shape : RecordShape σ} {src : Source}

/-- A field of a record is read by itself. -/
theorem readEntries_cons {seen : List String} {record record' : σ} {k n : Node} {rest : List (Node × Node)}
    {name : String} {field : RecordField σ} (h_name : k.readText = pure name)
    (h_field : shape.fields.find? (fun f => f.name == name) = some field) (h_seen : seen.contains name = false)
    (h_read : field.read src n record = pure record') :
    shape.readEntries src seen record ((k, n) :: rest) = shape.readEntries src (name :: seen) record' rest := by
  have h_new : ¬seen.contains name = true := by
    rw [h_seen]
    decide
  rw [readEntries, h_name, pure_bind]
  simp only [h_field, if_neg h_new, h_read, pure_bind]

/-- A record is read by its fields, if none is missing. -/
theorem read_map (inner : Source) (seen : List String) {tag : Option String} {entries : List (Node × Node)} {record : σ}
    (h_inner : src.inner = .ok inner) (h : shape.readEntries inner [] shape.blank entries = pure (seen, record))
    (h_given : shape.fields.find? (fun f => f.required && !seen.contains f.name) = none) :
    shape.read src (.map tag entries) = pure record := by
  rw [read, h_inner]
  show shape.readMap inner entries = _
  rw [readMap, h, pure_bind]
  simp only [h_given]

end RecordShape

end ScriptYard
