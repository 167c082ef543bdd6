import ScriptYard.Proofs.Script.Ranges

/-!
# Actions survive being written

What `Action.toValue` writes for a tree of actions is read as the tree again, but for the actions of unknown kinds:
their objects are tagged as unsupported, and the reader takes this tag for the kind (`Action.reread`). For each known
kind the fields are found under their names wherever key order has put them, fields that were left out are found
missing, and the sequences inside come back by induction over the tree (`Action.ofValue_toValue_eq`). So a tree of
known kinds is read back as it is (`Action.ofValue_toValue`). Its objects are tagged with the canonical names of the
kinds (`Action.canonical_tag`), and as values they are well formed (`Action.wellFormed_toValue`).
-/

namespace ScriptYard

/-! ### Fields that are found -/

namespace Fields

variable {fields : Fields Value} {name : String}

/-- A value that can be read is read where it is found. -/
theorem read?_eq {α : Type} {read : Value → Except ReadError α} {v : Value} {a : α}
    (h : fields.get? name = some v) (h_read : read v = .ok a) : fields.read? name read = pure (some a) := by
  unfold read?
  rw [h]
  simp only [h_read]
  rfl

theorem read?_none {α : Type} {read : Value → Except ReadError α} (h : fields.get? name = none) :
    fields.read? name read = pure none := by
  unfold read?
  rw [h]
  rfl

theorem read?_text {s : String} (h : fields.get? name = some (.string s)) :
    fields.read? name Value.readText = pure (some s) :=
  read?_eq h rfl

theorem read?_bool {b : Bool} (h : fields.get? name = some (.bool b)) :
    fields.read? name Value.readBool = pure (some b) :=
  read?_eq h rfl

theorem read?_float {x : Finite64} (h : fields.get? name = some (.float x)) :
    fields.read? name Value.readFloat = pure (some x) :=
  read?_eq h rfl

theorem read?_object {content : Fields Value} (h : fields.get? name = some (.object content)) :
    fields.read? name Value.readObject = pure (some content) :=
  read?_eq h rfl

theorem read?_nat {bits n : ℕ} (h : fields.get? name = some (.nat n)) (h_n : n < twoTo bits) :
    fields.read? name (Value.readNat bits) = pure (some n) := by
  have h_in : (0 ≤ (n : ℤ) && (n : ℤ) ≤ twoTo bits - 1) = true := by
    simp only [Bool.and_eq_true, decide_eq_true_eq]
    omega
  have h_int : (Value.nat n).readInt 0 (twoTo bits - 1) = .ok (n : ℤ) := if_pos h_in
  refine read?_eq h ?_
  rw [Value.readNat, h_int]
  rfl

/-- An optional text that was written, or left out, is read. -/
theorem readText?_eq {o : Option String} (h : fields.get? name = o.map .string) :
    fields.readText? name = pure o := by
  unfold readText?
  rw [h]
  cases o <;> rfl

end Fields

namespace Action

@[simp] theorem get?_optionalField (n : String) (o : Option String) (name : String) :
    Fields.get? (optionalField n o) name = if n = name then o.map .string else none := by
  cases o <;> simp [optionalField]

@[simp] theorem reverse_optionalField (n : String) (o : Option String) :
    (optionalField n o).reverse = optionalField n o := by
  cases o <;> rfl

/-- The sequence under a name is what the value under it stands for, and empty where there is none. -/
theorem sequence_sequencesOfFields (fields : Fields Value) (name : String) :
    sequence (sequencesOfFields fields) name = (fields.get? name).elim (.ok []) listOfValue := by
  induction fields with
  | nil => rfl
  | cons f rest ih =>
    rw [sequencesOfFields, sequence, List.find?_cons, Fields.get?]
    cases h_name : f.1 == name with
    | true => rfl
    | false => exact ih

theorem sequence_eq {fields : Fields Value} {name : String} {v : Value} {actions : List Action}
    (h : fields.get? name = some v) (h_read : listOfValue v = .ok actions) :
    sequence (sequencesOfFields fields) name = pure actions := by
  rw [sequence_sequencesOfFields, h]
  exact h_read

/-- An object that was written in some order is read by its fields. -/
theorem ofValue_sorted {pairs : List (String × Value)} {kind : KnownKind} {a : Action} (name : String)
    (h_kind : KnownKind.ofName? name = some kind)
    (h : ∀ fields : Fields Value,
      (∀ n, fields.get? n = (Fields.get? pairs.reverse n).map Value.sorted) →
        fields.get? "type" = some (.string name) ∧
          ofFields fields (sequencesOfFields fields) kind = .ok a) :
    ofValue (Value.object pairs).sorted = .ok a := by
  obtain ⟨h_type, h_fields⟩ := h _ (Value.get?_ofList_sortedFields pairs)
  simp [Value.sorted, ofValue, ofObject_eq, h_type, Value.text?, h_kind, h_fields]

end Action

/-! ### Actions -/

theorem Value.readInt64_int {i : ℤ} (h : -(twoTo 63) ≤ i ∧ i < twoTo 63) : (Value.int i).readInt64 = .ok i :=
  if_pos (by simp only [Bool.and_eq_true, decide_eq_true_eq]; omega)

theorem Region.ofValue_toValue {r : Region} (h : r.InRange) : Region.ofValue r.toValue = .ok r := by
  simp [toValue, ofValue, Value.readInt64_int, h.x, h.y, h.width, h.height]
  rfl

theorem Region.InRange.wellFormed_toValue {r : Region} (h : r.InRange) : r.toValue.sorted.WellFormed := by
  have h_edge : ∀ i : ℤ, -(twoTo 63) ≤ i ∧ i < twoTo 63 → (Value.int i).WellFormed := fun i h_i =>
    Value.wellFormed_int ⟨h_i.1, h_i.2.trans (by decide)⟩
  refine Value.wellFormed_sorted_array ?_
  simp [h_edge, h.x, h.y, h.width, h.height]

theorem CompareOperator.ofValue_symbol (op : CompareOperator) : ofValue (.string op.symbol) = .ok op := by
  cases op <;> rfl

/-- The check of a condition is found among its fields, whatever those of the condition itself are. -/
theorem Check.ofFields_eq {check : Check} {fields : Fields Value} (h : check.InRange)
    (h_get : ∀ n, n ∉ ["type", "on_true", "on_false", "break_on_true", "description"] →
      fields.get? n = (Fields.get? (Action.checkFields check).reverse n).map Value.sorted) :
    ofFields fields = pure check := by
  -- each field of the check is found under its name, as none of the condition's own has it
  cases check with
  | templateMatch path threshold image =>
    have h_type : fields.get? "condition_type" = some (.string "template_match") := by
      simp [h_get, Action.checkFields]
    have h_path : fields.get? "template_path" = some (.string path) := by
      simp [h_get, Action.checkFields]
    have h_threshold : fields.get? "threshold" = some (.float threshold) := by
      simp [h_get, Action.checkFields]
    have h_image : fields.get? "input_image" = image.map .string := by simp [h_get, Action.checkFields]
    have h_kind : fields.read? "condition_type" Kind.ofValue = pure (some .templateMatch) :=
      Fields.read?_eq h_type rfl
    simp [ofFields, h_kind, Fields.readText?_eq h_image, Fields.read?_text h_path, Fields.read?_float h_threshold,
      Fields.required]
    rfl
  | variableCompare name op value =>
    have h_type : fields.get? "condition_type" = some (.string "variable_compare") := by
      simp [h_get, Action.checkFields]
    have h_name : fields.get? "variable" = some (.string name) := by
      simp [h_get, Action.checkFields]
    have h_op : fields.get? "operator" = some (.string op.symbol) := by
      simp [h_get, Action.checkFields]
    have h_value : fields.get? "value" = some value := by
      simp [h_get, Action.checkFields, Value.WellFormed.sorted_eq h]
    have h_kind : fields.read? "condition_type" Kind.ofValue = pure (some .variableCompare) :=
      Fields.read?_eq h_type rfl
    have h_read : fields.read? "operator" CompareOperator.ofValue = pure (some op) :=
      Fields.read?_eq h_op op.ofValue_symbol
    simp [ofFields, h_kind, h_read, h_value, Fields.read?_text h_name, Fields.required]
    rfl

namespace Action

theorem ofValue_call {c : CapabilityCall} {d : Option String} (h : (Value.object c.params).WellFormed) :
    ofValue (toValue (.call c d)) = .ok (.call c d) := by
  refine ofValue_sorted "plugin_call" rfl fun fields h_get => ⟨by simp [h_get], ?_⟩
  have h_capability : fields.get? "capability" = some (.string c.capability) := by simp [h_get]
  -- the older name of this field is never written, so the two do not meet
  have h_plugin : fields.get? "plugin" = none := by simp [h_get]
  have h_action : fields.get? "action" = some (.string c.action) := by simp [h_get]
  have h_params : fields.get? "params" = some (.object c.params) := by simp [h_get, h.sorted_eq]
  have h_store : fields.get? "store_result" = c.storeResult.map .string := by simp [h_get]
  have h_description : fields.get? "description" = d.map .string := by simp [h_get]
  simp [ofFields, Fields.read?_text h_capability, Fields.read?_none h_plugin, Fields.contains, h_plugin,
    Fields.read?_text h_action, Fields.read?_object h_params, Fields.readText?_eq h_store,
    Fields.readText?_eq h_description, Fields.required]
  rfl

theorem ofValue_loop {interval : Finite64} {n : ℕ} {body body' : List Action} {d : Option String} (h : n < twoTo 64)
    (h_body : listOfValue (Value.array (listToDocument body)).sorted = .ok body') :
    ofValue (toValue (.loop interval n body d)) = .ok (.loop interval n body' d) := by
  refine ofValue_sorted "loop" rfl fun fields h_get => ⟨by simp [h_get], ?_⟩
  have h_actions : fields.get? "actions" = some (Value.array (listToDocument body)).sorted := by simp [h_get]
  have h_interval : fields.get? "interval" = some (.float interval) := by simp [h_get]
  have h_most : fields.get? "max_iterations" = some (.nat n) := by simp [h_get]
  have h_description : fields.get? "description" = d.map .string := by simp [h_get]
  simp [ofFields, sequence_eq h_actions h_body, Fields.read?_float h_interval, Fields.read?_nat h_most h,
    Fields.readText?_eq h_description]
  rfl

theorem ofValue_condition {check : Check} {onTrue onTrue' onFalse onFalse' : List Action} {breakOnTrue : Bool}
    {d : Option String} (h : check.InRange)
    (h_true : listOfValue (Value.array (listToDocument onTrue)).sorted = .ok onTrue')
    (h_false : listOfValue (Value.array (listToDocument onFalse)).sorted = .ok onFalse') :
    ofValue (toValue (.condition check onTrue onFalse breakOnTrue d)) =
      .ok (.condition check onTrue' onFalse' breakOnTrue d) := by
  -- the fields of a check hide none of the condition
  have h_no_type : Fields.get? (checkFields check).reverse "type" = none := by cases check <;> simp [checkFields]
  have h_no_description : Fields.get? (checkFields check).reverse "description" = none := by
    cases check <;> simp [checkFields]
  refine ofValue_sorted "condition" rfl fun fields h_get => ⟨?_, ?_⟩
  · simp [h_get, h_no_type]
  have h_on_true : fields.get? "on_true" = some (Value.array (listToDocument onTrue)).sorted := by simp [h_get]
  have h_on_false : fields.get? "on_false" = some (Value.array (listToDocument onFalse)).sorted := by
    simp [h_get]
  have h_break : fields.get? "break_on_true" = some (.bool breakOnTrue) := by simp [h_get]
  have h_description : fields.get? "description" = d.map .string := by simp [h_get, h_no_description]
  have h_check : Check.ofFields fields = pure check := by
    refine Check.ofFields_eq h fun n h_n => ?_
    simp only [List.mem_cons, List.not_mem_nil, or_false, not_or] at h_n
    simp [h_get, Ne.symm h_n.1, Ne.symm h_n.2.1, Ne.symm h_n.2.2.1, Ne.symm h_n.2.2.2.1,
      Ne.symm h_n.2.2.2.2]
  simp [ofFields, sequence_eq h_on_true h_true, sequence_eq h_on_false h_false, h_check,
    Fields.read?_bool h_break, Fields.readText?_eq h_description]
  rfl

theorem ofValue_templateMatch (s : TemplateSearch) (d : Option String) :
    ofValue (toValue (.templateMatch s d)) = .ok (.templateMatch s d) := by
  refine ofValue_sorted "template_match" rfl fun fields h_get => ⟨by simp [h_get], ?_⟩
  have h_path : fields.get? "template_path" = s.templatePath.map .string := by simp [h_get]
  have h_image : fields.get? "input_image" = s.inputImage.map .string := by simp [h_get]
  have h_threshold : fields.get? "threshold" = some (.float s.threshold) := by
    simp [h_get]
  have h_store : fields.get? "store_result" = s.storeResult.map .string := by simp [h_get]
  have h_description : fields.get? "description" = d.map .string := by simp [h_get]
  simp [ofFields, Fields.readText?_eq h_path, Fields.readText?_eq h_image, Fields.read?_float h_threshold,
    Fields.readText?_eq h_store, Fields.readText?_eq h_description]
  rfl

theorem ofValue_readText {t : TextReading} {d : Option String} (h : ∀ r ∈ t.region, r.InRange) :
    ofValue (toValue (.readText t d)) = .ok (.readText t d) := by
  obtain ⟨image, region, store⟩ := t
  refine ofValue_sorted "ocr" rfl fun fields h_get => ⟨by cases region <;> simp [h_get], ?_⟩
  have h_image : fields.get? "input_image" = image.map .string := by cases region <;> simp [h_get]
  have h_store : fields.get? "store_result" = store.map .string := by cases region <;> simp [h_get]
  have h_description : fields.get? "description" = d.map .string := by cases region <;> simp [h_get]
  have h_texts : fields.readText? "description" = pure d ∧ fields.readText? "input_image" = pure image ∧
      fields.readText? "store_result" = pure store :=
    ⟨Fields.readText?_eq h_description, Fields.readText?_eq h_image, Fields.readText?_eq h_store⟩
  -- only the region has a spelling of its own, the list of its four numbers
  cases region with
  | none =>
    have h_region : fields.get? "region" = none := by simp [h_get]
    simp [ofFields, h_texts, h_region]
    rfl
  | some r =>
    have h_region : fields.get? "region" = some (.array [.int r.x, .int r.y, .int r.width, .int r.height]) := by
      simp [h_get, Region.toValue, Value.sorted, Value.sortedItems]
    have h_read : Region.ofValue (.array [.int r.x, .int r.y, .int r.width, .int r.height]) = pure r :=
      Region.ofValue_toValue (h r rfl)
    simp [ofFields, h_texts, h_region, h_read]
    rfl

theorem ofValue_wait (duration : Finite64) (d : Option String) :
    ofValue (toValue (.wait duration d)) = .ok (.wait duration d) := by
  refine ofValue_sorted "wait" rfl fun fields h_get => ⟨by simp [h_get], ?_⟩
  have h_duration : fields.get? "duration" = some (.float duration) := by simp [h_get]
  have h_description : fields.get? "description" = d.map .string := by simp [h_get]
  simp [ofFields, Fields.read?_float h_duration, Fields.readText?_eq h_description]
  rfl

theorem ofValue_setVariable {name : String} {value : Value} {d : Option String} (h : value.WellFormed) :
    ofValue (toValue (.setVariable name value d)) = .ok (.setVariable name value d) := by
  refine ofValue_sorted "set_variable" rfl fun fields h_get => ⟨by simp [h_get], ?_⟩
  have h_name : fields.get? "name" = some (.string name) := by simp [h_get]
  have h_value : fields.get? "value" = some value := by simp [h_get, h.sorted_eq]
  have h_description : fields.get? "description" = d.map .string := by simp [h_get]
  simp [ofFields, Fields.read?_text h_name, h_value, Fields.readText?_eq h_description, Fields.required]

theorem ofValue_restart (d : Option String) : ofValue (toValue (.restart d)) = .ok (.restart d) := by
  refine ofValue_sorted "restart" rfl fun fields h_get => ⟨by simp [h_get], ?_⟩
  have h_description : fields.get? "description" = d.map .string := by simp [h_get]
  simp [ofFields, Fields.readText?_eq h_description]
  rfl

/-- The tag of an unsupported action is no name of a kind, and so it is the kind that is read. -/
theorem ofValue_unsupported (kind : String) :
    ofValue (toValue (.unsupported kind)) = .ok (.unsupported "unsupported") := by
  have h_type := Value.get?_ofList_sortedFields [("type", .string "unsupported"), ("kind", .string kind)] "type"
  rw [toValue, toDocument, Value.sorted, ofValue, ofObject_eq, h_type]
  rfl

/-- An action of a known kind is written under the canonical name of its kind, and this name is one to read. -/
theorem canonical_tag (a : Action) (h : ∀ kind, a ≠ .unsupported kind) :
    a.toValue.get? "type" = some (.string a.kind) ∧ (KnownKind.ofName? a.kind).isSome = true := by
  have h_get (pairs : List (String × Value)) :
      (Value.object pairs).sorted.get? "type" = (Fields.get? pairs.reverse "type").map Value.sorted :=
    Value.get?_ofList_sortedFields pairs "type"
  match a with
  -- the one kind that is written under another name than its own
  | .unsupported kind => exact absurd rfl (h kind)
  | .condition check _ _ _ _ =>
    cases check <;> exact ⟨by simp [toValue, toDocument, h_get, checkFields, kind], rfl⟩
  | .readText t _ =>
    cases h_region : t.region <;> exact ⟨by simp [toValue, toDocument, h_get, h_region, kind], rfl⟩
  | .call .. | .loop .. | .templateMatch .. | .wait .. | .setVariable .. | .restart _ =>
    exact ⟨by simp [toValue, toDocument, h_get, kind], rfl⟩

/-! ### Trees -/

mutual

/-- What is read of the object that is written for an action. For an action of an unknown kind this object is tagged as
unsupported; the kind stands in another field, which nothing reads. -/
def reread : Action → Action
  | .condition check onTrue onFalse breakOnTrue d =>
    .condition check (rereadList onTrue) (rereadList onFalse) breakOnTrue d
  | .loop interval n body d => .loop interval n (rereadList body) d
  | .unsupported _ => .unsupported "unsupported"
  | a => a

def rereadList : List Action → List Action
  | [] => []
  | a :: rest => reread a :: rereadList rest

end

mutual

/-- **A tree is read back as it was written**, kind by kind, but for the kinds that are unknown. -/
theorem ofValue_toValue_eq (a : Action) (h : ∀ b ∈ a.walk, b.InRange) : ofValue a.toValue = .ok a.reread := by
  match a with
  | .call c d => exact ofValue_call (h _ (mem_walk_self _))
  -- the sequences of a condition are among the actions of its walk
  | .condition check onTrue onFalse breakOnTrue d =>
    refine ofValue_condition (h _ (mem_walk_self _)) ?_ ?_
    · refine listOfItems_toDocument_eq onTrue fun b h_b => h b ?_
      exact List.mem_cons_of_mem _ (List.mem_append_left _ h_b)
    · refine listOfItems_toDocument_eq onFalse fun b h_b => h b ?_
      exact List.mem_cons_of_mem _ (List.mem_append_right _ h_b)
  | .loop interval n body d =>
    refine ofValue_loop (h _ (mem_walk_self _)) ?_
    exact listOfItems_toDocument_eq body fun b h_b => h b (List.mem_cons_of_mem _ h_b)
  | .templateMatch s d => exact ofValue_templateMatch s d
  | .readText t d => exact ofValue_readText (h _ (mem_walk_self _))
  | .wait duration d => exact ofValue_wait duration d
  | .setVariable name value d => exact ofValue_setVariable (h _ (mem_walk_self _))
  | .restart d => exact ofValue_restart d
  | .unsupported kind => exact ofValue_unsupported kind

/-- So is a sequence. -/
theorem listOfItems_toDocument_eq (actions : List Action) (h : ∀ b ∈ walkList actions, b.InRange) :
    listOfItems (Value.sortedItems (listToDocument actions)) = .ok (rereadList actions) := by
  match actions with
  | [] => rfl
  | a :: rest =>
    have h_first := ofValue_toValue_eq a fun b h_b => h b (List.mem_append_left _ h_b)
    have h_rest := listOfItems_toDocument_eq rest fun b h_b => h b (List.mem_append_right _ h_b)
    rw [listToDocument, Value.sortedItems, listOfItems, ← toValue, h_first, h_rest]
    rfl

end

theorem rereadList_eq_map (actions : List Action) : rereadList actions = actions.map reread := by
  induction actions with
  | nil => rfl
  | cons a rest ih => rw [rereadList, ih, List.map_cons]

mutual

/-- An action is read back as it is exactly if the unknown kinds in it are called by the tag that all of them get. -/
theorem reread_eq_self_iff (a : Action) : a.reread = a ↔ ∀ kind, .unsupported kind ∈ a.walk → kind = "unsupported" := by
  match a with
  | .condition check onTrue onFalse breakOnTrue d =>
    have h_true := rereadList_eq_self_iff onTrue
    have h_false := rereadList_eq_self_iff onFalse
    simp only [reread, walk, condition.injEq, h_true, h_false]
    simp [or_imp, forall_and]
  | .loop interval n body d =>
    have h_body := rereadList_eq_self_iff body
    simp [reread, walk, h_body]
  -- an unknown kind is reread as the tag that all unknown kinds get
  | .unsupported kind =>
    simp only [reread, walk, List.mem_singleton, unsupported.injEq]
    exact ⟨fun h other h_other => h_other.trans h.symm, fun h => (h kind rfl).symm⟩
  | .call .. | .templateMatch .. | .readText .. | .wait .. | .setVariable .. | .restart _ => simp [reread, walk]

theorem rereadList_eq_self_iff (actions : List Action) :
    rereadList actions = actions ↔ ∀ kind, .unsupported kind ∈ walkList actions → kind = "unsupported" := by
  match actions with
  | [] => simp [rereadList, walkList]
  | a :: rest =>
    have h_first := reread_eq_self_iff a
    have h_rest := rereadList_eq_self_iff rest
    simp only [rereadList, walkList, List.cons.injEq, h_first, h_rest, List.mem_append]
    simp [or_imp, forall_and]

end

/-- A tree of known kinds is read back as it was written. -/
theorem ofValue_toValue (a : Action) (h : ∀ b ∈ a.walk, b.InRange) (h_known : ∀ kind, .unsupported kind ∉ a.walk) :
    ofValue a.toValue = .ok a := by
  rw [ofValue_toValue_eq a h, a.reread_eq_self_iff.mpr fun kind h_kind => absurd h_kind (h_known kind)]

/-! ### What is written is well formed -/

theorem listToDocument_eq_map (actions : List Action) : listToDocument actions = actions.map toDocument := by
  induction actions with
  | nil => rfl
  | cons a rest ih => rw [listToDocument, ih, List.map_cons]

@[simp] theorem orderly_optionalField (name : String) (o : Option String) : Value.Orderly (optionalField name o) := by
  cases o <;> simp [optionalField]

theorem orderly_checkFields {check : Check} (h : check.InRange) : Value.Orderly (checkFields check) := by
  cases check with
  | templateMatch path threshold image => simp [checkFields]
  | variableCompare name op value => simp [checkFields, Value.WellFormed.sorted h]

mutual

/-- The object that stands for an action is well formed. -/
theorem wellFormed_toValue (a : Action) (h : ∀ b ∈ a.walk, b.InRange) : a.toValue.WellFormed := by
  have h_own : a.InRange := h a a.mem_walk_self
  match a with
  | .call c d => simp [toValue, toDocument, Value.WellFormed.sorted h_own]
  | .condition check onTrue onFalse breakOnTrue d =>
    have h_true := Value.wellFormed_sorted_array <|
      wellFormed_listToDocument onTrue fun b h_b => h b (by simp [walk, h_b])
    have h_false := Value.wellFormed_sorted_array <|
      wellFormed_listToDocument onFalse fun b h_b => h b (by simp [walk, h_b])
    simp [toValue, toDocument, orderly_checkFields h_own, h_true, h_false]
  -- only values that come from outside, numbers and sequences have anything to show
  | .loop interval n body d =>
    have h_body := Value.wellFormed_sorted_array <|
      wellFormed_listToDocument body fun b h_b => h b (by simp [walk, h_b])
    simp [toValue, toDocument, h_body, Value.wellFormed_nat h_own]
  | .readText t d =>
    cases h_region : t.region with
    | none => simp [toValue, toDocument, h_region]
    | some r => simp [toValue, toDocument, h_region, (h_own r h_region).wellFormed_toValue]
  | .setVariable name value d => simp [toValue, toDocument, Value.WellFormed.sorted h_own]
  | .templateMatch .. | .wait .. | .restart _ | .unsupported _ => simp [toValue, toDocument]

/-- So are those that stand for a sequence. -/
theorem wellFormed_listToDocument (actions : List Action) (h : ∀ b ∈ walkList actions, b.InRange) :
    ∀ v ∈ listToDocument actions, v.sorted.WellFormed := by
  match actions with
  | [] => exact fun v h_v => absurd h_v List.not_mem_nil
  | a :: rest =>
    have h_first := wellFormed_toValue a fun b h_b => h b (List.mem_append_left _ h_b)
    have h_rest := wellFormed_listToDocument rest fun b h_b => h b (List.mem_append_right _ h_b)
    exact List.forall_mem_cons.mpr ⟨h_first, h_rest⟩

end

end Action

end ScriptYard
