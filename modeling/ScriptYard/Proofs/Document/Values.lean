import Mathlib.Data.Nat.Notation
import ScriptYard.Document.Node
import ScriptYard.Proofs.Value.Fields

/-!
# Reading what was written as a value

The node of a value is read without a fault and without a reference to follow, if the source allows what lies
in it to be as deep as it is: a reading that does so is `pure`. A well-formed value is read as itself
(`Node.readValue_ofValue`), an array item by item (`Node.readList_ofValue`), and an object as a record, field
by field (`RecordShape.read_ofValue`).

An object lists the fields of a record in the order of their names, which is none that the record knows of. So
what a field does is said by a function `copy` that takes the field of a name over from the record that was
written (`RecordShape.Copies`). Whatever the order, the record that was written is complete when every field has
been copied that differs from the blank one (`get_foldl_copy`).
-/

namespace ScriptYard

/-- A result that is no fault is read without a fault. -/
@[simp] theorem Reading.liftM_ok {α : Type} (a : α) :
    (liftM (Except.ok a : Except ReadError α) : Reading α) = pure a := rfl

/-! ### Depth -/

/-- A source that allows some depth allows one less further in. -/
theorem Source.inner_eq_ok {src : Source} {n : ℕ} (h : n + 1 ≤ src.depth) :
    ∃ src' : Source, src.inner = .ok src' ∧ n ≤ src'.depth := by
  obtain ⟨depth, excess⟩ := src
  cases depth with
  | zero => exact absurd h (Nat.not_succ_le_zero n)
  | succ depth => exact ⟨⟨depth, excess⟩, rfl, Nat.le_of_succ_le_succ h⟩

namespace Node

/-! ### Values -/

/-- A number in range is read as itself. -/
theorem readValue_number {n : Number} (h : n.InRange) : Scalar.readValue (.number n) = .ok (.number n) := by
  cases n with
  | float x => rfl
  | int i => exact if_pos (by simpa [Number.InRange] using h)

mutual

/-- **A well-formed value is read as itself**, if it may be so deep. -/
theorem readValue_ofValue (v : Value) (h : v.WellFormed) (src : Source) (h_depth : v.depth ≤ src.depth) :
    (ofValue v).readValue src = pure v := by
  match v with
  | .null | .bool _ | .string _ => rfl
  | .number n =>
    obtain - | - | ⟨_, h_n⟩ := h
    show liftM (Scalar.readValue (.number n)) = _
    rw [readValue_number h_n]
    rfl
  | .array items =>
    obtain - | - | - | - | ⟨_, h_items⟩ := h
    obtain ⟨src', h_inner, h_depth'⟩ := Source.inner_eq_ok h_depth
    have h_read := readValues_ofItems items h_items src' h_depth'
    simp [ofValue, readValue, h_inner, h_read]
  -- the fields are in order, so that reading them one by one gives them back
  | .object fields =>
    obtain - | - | - | - | - | ⟨_, h_sorted, h_fields⟩ := h
    obtain ⟨src', h_inner, h_depth'⟩ := Source.inner_eq_ok h_depth
    have h_read := readValueEntries_ofEntries fields h_fields src' h_depth'
    simp [ofValue, readValue, h_inner, h_read, Fields.ofList_of_sorted h_sorted]

theorem readValues_ofItems (items : List Value) (h : ∀ v ∈ items, v.WellFormed) (src : Source)
    (h_depth : Value.depthOfItems items ≤ src.depth) : readValues src (ofItems items) = pure items := by
  match items with
  | [] => rfl
  | v :: rest =>
    obtain ⟨h_v, h_rest⟩ := Nat.max_le.mp h_depth
    have h_first := readValue_ofValue v (h v List.mem_cons_self) src h_v
    have h_others := readValues_ofItems rest (fun w h_w => h w (List.mem_cons_of_mem _ h_w)) src h_rest
    simp [ofItems, readValues, h_first, h_others]

theorem readValueEntries_ofEntries (fields : List (String × Value)) (h : ∀ f ∈ fields, f.2.WellFormed)
    (src : Source) (h_depth : Value.depthOfFields fields ≤ src.depth) :
    readValueEntries src (ofEntries fields) = pure fields := by
  match fields with
  | [] => rfl
  | (name, v) :: rest =>
    obtain ⟨h_v, h_rest⟩ := Nat.max_le.mp h_depth
    have h_name : readText (.scalar (.string name)) = pure name := rfl
    have h_first := readValue_ofValue v (h (name, v) List.mem_cons_self) src h_v
    have h_others := readValueEntries_ofEntries rest (fun w h_w => h w (List.mem_cons_of_mem _ h_w)) src h_rest
    simp [ofEntries, readValueEntries, h_name, h_first, h_others]

end

theorem readFields_ofValue {fields : Fields Value} (h : (Value.object fields).WellFormed) (src : Source)
    (h_depth : (Value.object fields).depth ≤ src.depth) :
    (ofValue (.object fields)).readFields src = pure fields := by
  obtain - | - | - | - | - | ⟨_, h_sorted, h_fields⟩ := h
  obtain ⟨src', h_inner, h_depth'⟩ := Source.inner_eq_ok h_depth
  have h_read := readValueEntries_ofEntries fields h_fields src' h_depth'
  simp [ofValue, readFields, h_inner, h_read, Fields.ofList_of_sorted h_sorted]

/-- An integer in the range that is asked for is read as itself. -/
theorem readInt_ofValue {low high i : ℤ} (h : low ≤ i ∧ i ≤ high) :
    (ofValue (.int i)).readInt low high = pure i := by
  have h_in : (decide (low ≤ i) && decide (i ≤ high)) = true := by simpa using h
  have h_int : Scalar.readInt low high (.number (.int i)) = .ok i := if_pos h_in
  show (liftM (Scalar.readInt low high (.number (.int i))) : Reading ℤ) = _
  rw [h_int]
  rfl

theorem readNat_ofValue {bits n : ℕ} (h : n < twoTo bits) : (ofValue (.nat n)).readNat bits = pure n := by
  have h_int : (ofValue (.nat n)).readInt 0 (twoTo bits - 1) = pure (n : ℤ) := readInt_ofValue (by omega)
  rw [readNat, h_int]
  rfl

/-- What can be read as a number can be read where a number may be missing. -/
theorem readOptional_ofValue {α : Type} {read : Node → Reading α} {n : Number} {a : α}
    (h : read (ofValue (.number n)) = pure a) : (ofValue (.number n)).readOptional read = pure (some a) := by
  show (do return some (← read (ofValue (.number n)))) = _
  rw [h]
  rfl

/-! ### Lists -/

/-- What is written item by item is read item by item. -/
theorem readList_ofValue_map {α β : Type} {read : Source → Node → Reading β} {write : α → Value} {f : α → β}
    (as : List α)
    (h : ∀ a ∈ as, ∀ src : Source, (write a).depth ≤ src.depth → read src (ofValue (write a)) = pure (f a))
    (src : Source) (h_depth : (Value.array (as.map write)).depth ≤ src.depth) :
    readList read src (ofValue (.array (as.map write))) = pure (as.map f) := by
  obtain ⟨src', h_inner, h_depth'⟩ := Source.inner_eq_ok h_depth
  have h_items : (ofItems (as.map write)).mapM (read src') = pure (as.map f) := by
    clear h_depth
    induction as with
    | nil => rfl
    | cons a rest ih =>
      obtain ⟨h_a, h_rest⟩ := Nat.max_le.mp h_depth'
      have h_first := h a List.mem_cons_self src' h_a
      have h_others := ih (fun b h_b => h b (List.mem_cons_of_mem _ h_b)) h_rest
      simp [ofItems, h_first, h_others]
  simp [ofValue, readList, h_inner, h_items]

theorem readList_ofValue {α : Type} {read : Source → Node → Reading α} {write : α → Value} (as : List α)
    (h : ∀ a ∈ as, ∀ src : Source, (write a).depth ≤ src.depth → read src (ofValue (write a)) = pure a)
    (src : Source) (h_depth : (Value.array (as.map write)).depth ≤ src.depth) :
    readList read src (ofValue (.array (as.map write))) = pure as := by
  rw [readList_ofValue_map as h src h_depth, List.map_id']

end Node

/-! ### Records -/

/-- Fields that are copied one after the other leave the record with what was to be copied of it: a part that
the field of a name holds is that of the whole if the name is among them, or if it was so before. -/
theorem get_foldl_copy {σ β : Type} {copy : String → σ → σ} (get : σ → β) (name : String) {whole : β}
    (h_copy : ∀ n r, get (copy n r) = if n = name then whole else get r) (names : List String) (r : σ)
    (h : name ∈ names ∨ get r = whole) : get (names.foldl (fun r n => copy n r) r) = whole := by
  induction names generalizing r with
  | nil => exact h.resolve_left List.not_mem_nil
  | cons n rest ih =>
    refine ih (copy n r) ?_
    rw [h_copy]
    split
    · exact .inr rfl
    · next h_n => exact h.imp_left fun h_mem => (List.mem_cons.mp h_mem).resolve_left fun h_eq => h_n h_eq.symm

namespace RecordShape

variable {σ : Type} {shape : RecordShape σ} {copy : String → σ → σ}

/-- The value under a name is one that the field of this name reads, as a copy, if it may be so deep. -/
def Copies (shape : RecordShape σ) (copy : String → σ → σ) (f : String × Value) : Prop :=
  ∃ field, shape.fields.find? (fun g => g.name == f.1) = some field ∧
    ∀ src : Source, f.2.depth ≤ src.depth → ∀ r, field.read src (Node.ofValue f.2) r = pure (copy f.1 r)

/-- A field that reads one part of the record copies the value that this part was written as. -/
theorem copies_of_read {β : Type} {name : String} {required : Bool} {v : Value} {b : β}
    {read : Source → Node → Reading β} {set : β → σ → σ}
    (h_field : shape.fields.find? (fun g => g.name == name) =
      some ⟨name, required, fun src n r => do return set (← read src n) r⟩)
    (h_read : ∀ src : Source, v.depth ≤ src.depth → read src (Node.ofValue v) = pure b)
    (h_set : ∀ r, set b r = copy name r) : shape.Copies copy (name, v) := by
  refine ⟨_, h_field, fun src h_src r => ?_⟩
  rw [← h_set]
  simp only [h_read src h_src, pure_bind]

theorem readEntries_ofEntries {src : Source} (fields : Fields Value) (seen : List String) (r : σ)
    (h : ∀ f ∈ fields, shape.Copies copy f) (h_depth : Value.depthOfFields fields ≤ src.depth)
    (h_once : (fields.map Prod.fst).Nodup) (h_new : ∀ f ∈ fields, f.1 ∉ seen) :
    shape.readEntries src seen r (Node.ofEntries fields) =
      pure ((fields.map Prod.fst).reverse ++ seen, (fields.map Prod.fst).foldl (fun r n => copy n r) r) := by
  induction fields generalizing seen r with
  | nil => rfl
  | cons f rest ih =>
    obtain ⟨name, v⟩ := f
    obtain ⟨h_v, h_deep⟩ := Nat.max_le.mp h_depth
    obtain ⟨h_out, h_once⟩ := List.nodup_cons.mp h_once
    obtain ⟨field, h_field, h_copy⟩ := h (name, v) List.mem_cons_self
    have h_read := h_copy src h_v r
    have h_name : Node.readText (.scalar (.string name)) = pure name := rfl
    -- no name is read twice, which the reader would refuse
    have h_unseen : name ∉ seen := h_new (name, v) List.mem_cons_self
    have h_rest := ih (name :: seen) (copy name r) (fun g h_g => h g (List.mem_cons_of_mem _ h_g)) h_deep h_once ?_
    · simp [Node.ofEntries, readEntries, h_name, h_field, h_unseen, h_read, h_rest]
    · intro g h_g h_mem
      rcases List.mem_cons.mp h_mem with h_eq | h_mem
      · exact h_out (List.mem_map.mpr ⟨g, h_g, h_eq⟩)
      · exact h_new g (List.mem_cons_of_mem _ h_g) h_mem

/-- **An object is read as a record**, field by field in the order of their names, if each field is read as a
copy and no required one is missing. -/
theorem read_ofValue {src : Source} {fields : Fields Value} (h_sorted : Fields.Sorted fields)
    (h : ∀ f ∈ fields, shape.Copies copy f)
    (h_required : ∀ g ∈ shape.fields, g.required = true → g.name ∈ fields.map Prod.fst)
    (h_depth : (Value.object fields).depth ≤ src.depth) :
    shape.read src (Node.ofValue (.object fields)) =
      pure ((fields.map Prod.fst).foldl (fun r n => copy n r) shape.blank) := by
  obtain ⟨src', h_inner, h_depth'⟩ := Source.inner_eq_ok h_depth
  have h_once : (fields.map Prod.fst).Nodup :=
    (List.pairwise_map.mpr h_sorted).imp fun h_lt => h_lt.ne
  have h_entries := readEntries_ofEntries fields [] shape.blank h h_depth' h_once fun _ _ => List.not_mem_nil
  have h_missing : shape.fields.find? (fun g => g.required && !((fields.map Prod.fst).reverse ++ []).contains g.name)
      = none := by
    refine List.find?_eq_none.mpr fun g h_g => ?_
    cases h_needed : g.required with
    | false => simp
    | true => simpa using h_required g h_g h_needed
  -- the last check finds nothing missing
  have h_map : shape.readMap src' (Node.ofEntries fields) =
      pure ((fields.map Prod.fst).foldl (fun r n => copy n r) shape.blank) := by
    rw [readMap, h_entries, pure_bind]
    simp only [h_missing]
  simp [Node.ofValue, read, h_inner, h_map]

/-- **What was written in some order is read as the record that it was written for**, if this is what copying its
fields in any order makes of the blank record. -/
theorem read_sorted {record : σ} {src : Source} {fields : List (String × Value)} (copy : String → σ → σ)
    (h : ∀ f ∈ fields, shape.Copies copy (f.1, f.2.sorted))
    (h_required : ∀ g ∈ shape.fields, g.required = true → g.name ∈ fields.map Prod.fst)
    (h_whole : ∀ names : List String, fields.map Prod.fst ⊆ names →
      names.foldl (fun r n => copy n r) shape.blank = record)
    (h_depth : (Value.object fields).sorted.depth ≤ src.depth) :
    shape.read src (Node.ofValue (Value.object fields).sorted) = pure record := by
  have h_names : fields.map Prod.fst ⊆ (Fields.ofList (Value.sortedFields fields)).map Prod.fst := by
    intro name h_name
    rw [Fields.mem_names_ofList, Value.sortedFields_eq_map, List.map_map]
    exact h_name
  rw [← h_whole _ h_names]
  refine read_ofValue (Fields.sorted_ofList _) ?_ ?_ h_depth
  · rintro ⟨name, w⟩ h_f
    obtain ⟨v, h_v, h_eq⟩ := Value.mem_ofList_sortedFields h_f
    obtain rfl : w = v.sorted := h_eq
    exact h (name, v) h_v
  · exact fun g h_g h_needed => h_names (h_required g h_g h_needed)

end RecordShape

end ScriptYard
