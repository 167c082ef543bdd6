import Mathlib.Data.String.Basic
import Mathlib.Order.Basic
import ScriptYard.Value.Read

/-!
# Fields in key order

What is found in `Fields` after insertions, and what bringing the fields of a value into key order does. Of a
list of pairs `Fields.ofList` finds the last one of each name (`Fields.get?_ofList`), so the order of a list of
different names counts for nothing. Fields that are in order are left as they are, and so is a well-formed value
(`Value.WellFormed.sorted_eq`); what `Value.sorted` makes is well formed if the numbers are in range
(`Value.wellFormed_sorted_object`).
-/

namespace ScriptYard

namespace Fields

variable {α β : Type} {fields : Fields α} {name : String} {value : α}

theorem mem_insert {e : String × α} (h : e ∈ fields.insert name value) : e = (name, value) ∨ e ∈ fields := by
  induction fields with
  | nil => exact .inl (List.mem_singleton.mp h)
  | cons f rest ih =>
    unfold insert at h
    split at h
    · exact (List.mem_cons.mp h).imp_right (List.mem_cons_of_mem _)
    · split at h
      · exact List.mem_cons.mp h
      · rcases List.mem_cons.mp h with h | h
        · exact .inr (h ▸ List.mem_cons_self)
        · exact (ih h).imp_right (List.mem_cons_of_mem _)

theorem Sorted.insert (h : Sorted fields) (name : String) (value : α) : Sorted (fields.insert name value) := by
  induction fields with
  | nil => exact List.pairwise_singleton _ _
  | cons f rest ih =>
    obtain ⟨h_f, h_rest⟩ := List.pairwise_cons.mp h
    unfold Fields.insert
    split
    · next h_eq =>
      rw [beq_iff_eq] at h_eq
      subst h_eq
      exact List.pairwise_cons.mpr ⟨h_f, h_rest⟩
    · next h_ne =>
      split
      · next h_lt =>
        -- the new name stands before all others
        refine List.pairwise_cons.mpr ⟨fun e h_e => ?_, h⟩
        rcases List.mem_cons.mp h_e with rfl | h_e
        · exact h_lt
        · exact lt_trans h_lt (h_f e h_e)
      · next h_not =>
        have h_gt : f.1 < name := lt_of_le_of_ne (not_lt.mp h_not) fun h_eq => h_ne (by simp [h_eq])
        refine List.pairwise_cons.mpr ⟨fun e h_e => ?_, ih h_rest⟩
        rcases mem_insert h_e with rfl | h_e
        · exact h_gt
        · exact h_f e h_e

theorem Sorted.map (h : Sorted fields) (f : String × α → β) : Sorted (fields.map fun e => (e.1, f e)) :=
  List.pairwise_map.mpr h

/-- A name above all others goes to the end. -/
theorem insert_eq_append (h : ∀ e ∈ fields, e.1 < name) :
    fields.insert name value = fields ++ [(name, value)] := by
  induction fields with
  | nil => rfl
  | cons f rest ih =>
    have h_f : f.1 < name := h f List.mem_cons_self
    unfold insert
    rw [if_neg (by simpa using h_f.ne'), if_neg (not_lt.mpr h_f.le),
      ih fun e h_e => h e (List.mem_cons_of_mem _ h_e)]
    rfl

theorem ofList_of_sorted (h : Sorted fields) : ofList fields = fields := by
  -- what was inserted before stands below all that comes
  have h_fold : ∀ rest before : Fields α, Sorted (before ++ rest) →
      rest.foldl (fun fields p => fields.insert p.1 p.2) before = before ++ rest := by
    intro rest
    induction rest with
    | nil => exact fun before _ => (List.append_nil before).symm
    | cons f rest ih =>
      intro before h_sorted
      have h_last : ∀ e ∈ before, e.1 < f.1 := fun e h_e =>
        (List.pairwise_append.mp h_sorted).2.2 e h_e f List.mem_cons_self
      rw [List.foldl_cons, insert_eq_append h_last, ih, List.append_assoc, List.singleton_append]
      rw [List.append_assoc, List.singleton_append]
      exact h_sorted
  exact h_fold fields [] h

theorem get?_map (fields : Fields α) (f : String × α → β) (name : String) :
    get? (fields.map fun e => (e.1, f e)) name = (fields.get? name).map fun v => f (name, v) := by
  induction fields with
  | nil => rfl
  | cons e rest ih =>
    rw [List.map_cons, get?_cons, get?]
    split
    · next h_eq =>
      obtain rfl := beq_iff_eq.mp h_eq
      rfl
    · exact ih

theorem mem_of_get? (h : fields.get? name = some value) : (name, value) ∈ fields := by
  induction fields with
  | nil => cases h
  | cons f rest ih =>
    rw [get?] at h
    split at h
    · next h_eq =>
      obtain rfl := beq_iff_eq.mp h_eq
      obtain rfl := Option.some.inj h
      exact List.mem_cons_self
    · exact List.mem_cons_of_mem _ (ih h)

@[simp] theorem get?_append (fields fields' : Fields α) (name : String) :
    get? (fields ++ fields') name = (get? fields name).or (get? fields' name) := by
  induction fields with
  | nil => rfl
  | cons f rest ih =>
    rw [List.cons_append, get?, get?]
    split
    · rfl
    · exact ih

/-- Nothing is found only under names that there are not. -/
theorem get?_eq_none_iff : fields.get? name = none ↔ name ∉ fields.map Prod.fst := by
  induction fields with
  | nil => simp
  | cons f rest ih =>
    rw [get?, List.map_cons, List.mem_cons, not_or]
    split
    · next h_eq => simp [beq_iff_eq.mp h_eq]
    · next h_ne => simp [ih, Ne.symm (by simpa using h_ne : f.1 ≠ name)]

/-- In fields that are in order every pair is found. -/
theorem Sorted.get?_of_mem (h : Sorted fields) (h_mem : (name, value) ∈ fields) :
    get? fields name = some value := by
  induction fields with
  | nil => cases h_mem
  | cons f rest ih =>
    obtain ⟨h_f, h_rest⟩ := List.pairwise_cons.mp h
    rcases List.mem_cons.mp h_mem with rfl | h_mem
    · exact if_pos (beq_self_eq_true _)
    · have h_ne : f.1 ≠ name := (h_f _ h_mem).ne
      rw [get?, if_neg (by simpa using h_ne)]
      exact ih h_rest h_mem

theorem ofList_append (fields fields' : Fields α) :
    ofList (fields ++ fields') = fields'.foldl (fun fields p => fields.insert p.1 p.2) (ofList fields) :=
  List.foldl_append

/-- Of the pairs of one name the last one counts. -/
theorem get?_ofList (pairs : List (String × α)) (name : String) :
    get? (ofList pairs) name = get? pairs.reverse name := by
  -- from the last pair to the first
  rw [← pairs.reverse_reverse]
  generalize pairs.reverse = last
  rw [List.reverse_reverse]
  induction last with
  | nil => rfl
  | cons p last ih =>
    rw [List.reverse_cons, ofList_append, List.foldl_cons, List.foldl_nil, get?_insert, ih, get?]
    simp only [beq_iff_eq]

theorem sorted_ofList (pairs : List (String × α)) : Sorted (ofList pairs) := by
  rw [← pairs.reverse_reverse]
  generalize pairs.reverse = last
  induction last with
  | nil => exact List.Pairwise.nil
  | cons p last ih =>
    rw [List.reverse_cons, ofList_append]
    exact ih.insert p.1 p.2

/-- What is found under a name is one of the pairs. -/
theorem mem_of_mem_ofList {pairs : List (String × α)} (h : (name, value) ∈ ofList pairs) :
    (name, value) ∈ pairs := by
  have h_get := (sorted_ofList pairs).get?_of_mem h
  rw [get?_ofList] at h_get
  exact List.mem_reverse.mp (mem_of_get? h_get)

/-- The names stay the same. -/
theorem mem_names_ofList {pairs : List (String × α)} :
    name ∈ (ofList pairs).map Prod.fst ↔ name ∈ pairs.map Prod.fst := by
  have h_reverse : name ∈ pairs.map Prod.fst ↔ name ∈ pairs.reverse.map Prod.fst := by simp
  rw [h_reverse, ← not_iff_not, ← get?_eq_none_iff, ← get?_eq_none_iff, get?_ofList]

end Fields

namespace Value

@[simp] theorem sorted_string (s : String) : (Value.string s).sorted = .string s := rfl

@[simp] theorem sorted_comp_string : sorted ∘ string = string := rfl

@[simp] theorem sorted_bool (b : Bool) : (Value.bool b).sorted = .bool b := rfl

@[simp] theorem sorted_float (x : Finite64) : (Value.float x).sorted = .float x := rfl

@[simp] theorem sorted_int (i : ℤ) : (Value.int i).sorted = .int i := rfl

@[simp] theorem sorted_nat (n : ℕ) : (Value.nat n).sorted = .nat n := rfl

theorem sortedItems_eq_map (items : List Value) : sortedItems items = items.map sorted := by
  induction items with
  | nil => rfl
  | cons v rest ih => rw [sortedItems, ih, List.map_cons]

/-- What is written item by item is brought into order item by item. -/
theorem sorted_array_map {α : Type} (write : α → Value) (as : List α) :
    (Value.array (as.map write)).sorted = .array (as.map fun a => (write a).sorted) := by
  rw [sorted, sortedItems_eq_map, List.map_map]
  rfl

theorem sortedFields_eq_map (fields : List (String × Value)) :
    sortedFields fields = fields.map fun f => (f.1, f.2.sorted) := by
  induction fields with
  | nil => rfl
  | cons f rest ih => rw [sortedFields, ih, List.map_cons]

/-- What is found in an object that was written in some order. -/
theorem get?_ofList_sortedFields (fields : List (String × Value)) (name : String) :
    Fields.get? (Fields.ofList (sortedFields fields)) name = (Fields.get? fields.reverse name).map sorted := by
  rw [Fields.get?_ofList, sortedFields_eq_map, ← List.map_reverse]
  exact Fields.get?_map fields.reverse (fun f => f.2.sorted) name

/-- What stands in an object that was written in some order. -/
theorem mem_ofList_sortedFields {fields : List (String × Value)} {f : String × Value}
    (h : f ∈ Fields.ofList (sortedFields fields)) : ∃ v, (f.1, v) ∈ fields ∧ f.2 = v.sorted := by
  have h_mem : (f.1, f.2) ∈ sortedFields fields := Fields.mem_of_mem_ofList h
  rw [sortedFields_eq_map] at h_mem
  obtain ⟨g, h_g, h_eq⟩ := List.mem_map.mp h_mem
  obtain ⟨h_name, h_value⟩ := Prod.mk.inj h_eq
  exact ⟨g.2, h_name ▸ h_g, h_value.symm⟩

/-- **A well-formed value is in order.** -/
theorem WellFormed.sorted_eq {v : Value} (h : v.WellFormed) : v.sorted = v := by
  induction h with
  | null | bool | number | string => rfl
  | array items _ ih =>
    have h_items : items.map sorted = items.map id := List.map_congr_left ih
    rw [sorted, sortedItems_eq_map, h_items, List.map_id]
  | object fields h_sorted _ ih =>
    have h_fields : fields.map (fun f => (f.1, f.2.sorted)) = fields.map id :=
      List.map_congr_left fun f h_f => congrArg (Prod.mk f.1) (ih f h_f)
    rw [sorted, sortedFields_eq_map, h_fields, List.map_id, Fields.ofList_of_sorted h_sorted]

/-! ### What is brought into order is well formed -/

theorem WellFormed.sorted {v : Value} (h : v.WellFormed) : v.sorted.WellFormed :=
  h.sorted_eq.symm ▸ h

@[simp] theorem wellFormed_string (s : String) : (Value.string s).WellFormed := .string s

@[simp] theorem wellFormed_bool (b : Bool) : (Value.bool b).WellFormed := .bool b

@[simp] theorem wellFormed_float (x : Finite64) : (Value.float x).WellFormed := .number _ trivial

theorem wellFormed_int {i : ℤ} (h : -(twoTo 63) ≤ i ∧ i < twoTo 64) : (Value.int i).WellFormed := .number _ h

theorem wellFormed_nat {n : ℕ} (h : n < twoTo 64) : (Value.nat n).WellFormed := by
  refine wellFormed_int ⟨?_, by exact_mod_cast h⟩
  exact (Int.neg_nonpos_of_nonneg (by decide)).trans (Int.natCast_nonneg n)

theorem wellFormed_sorted_array {items : List Value} (h : ∀ v ∈ items, v.sorted.WellFormed) :
    (Value.array items).sorted.WellFormed := by
  refine .array _ fun v h_v => ?_
  rw [sortedItems_eq_map] at h_v
  obtain ⟨w, h_w, rfl⟩ := List.mem_map.mp h_v
  exact h w h_w

/-- Whether an object of these fields is well formed once they are in order. -/
def Orderly (fields : List (String × Value)) : Prop := ∀ f ∈ fields, f.2.sorted.WellFormed

@[simp] theorem orderly_nil : Orderly [] := fun _ h_f => absurd h_f List.not_mem_nil

@[simp] theorem orderly_cons (f : String × Value) (rest : List (String × Value)) :
    Orderly (f :: rest) ↔ f.2.sorted.WellFormed ∧ Orderly rest :=
  List.forall_mem_cons

@[simp] theorem orderly_append (fields fields' : List (String × Value)) :
    Orderly (fields ++ fields') ↔ Orderly fields ∧ Orderly fields' :=
  List.forall_mem_append

/-- An object that was written in some order is well formed if its fields are. -/
@[simp] theorem wellFormed_sorted_object {fields : List (String × Value)} (h : Orderly fields) :
    (Value.object fields).sorted.WellFormed := by
  refine .object _ (Fields.sorted_ofList _) fun f h_f => ?_
  obtain ⟨v, h_v, h_eq⟩ := mem_ofList_sortedFields h_f
  rw [h_eq]
  exact h _ h_v

end Value

end ScriptYard
