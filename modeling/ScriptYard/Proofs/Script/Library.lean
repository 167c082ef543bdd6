import ScriptYard.Proofs.Document.Values
import ScriptYard.Proofs.Script.RoundTrip
import ScriptYard.Script.Definition

/-!
# Scripts and libraries survive being written

A script, a group and a library are records, and each of their fields copies a part of what was written: `copy`
takes the field of a name over from the record. An optional field is written only where it has a value, but
where it has none the blank record has none either. `written_scripts_are_read_back` puts actions, scripts and
libraries together.
-/

namespace ScriptYard

attribute [ext] GroupDefinition ScriptDefinition ScriptLibrary

/-! ### Optional fields -/

/-- An optional field that was left out has no value, as in a blank record. -/
theorem Action.mem_or_eq_none {name : String} {o : Option String} {names : List String}
    (h : (optionalField name o).map Prod.fst ⊆ names) : name ∈ names ∨ none = o := by
  cases o with
  | none => exact .inr rfl
  | some s => exact .inl (h List.mem_cons_self)

theorem RecordShape.copies_optionalField {σ : Type} {shape : RecordShape σ} {copy : String → σ → σ}
    {name : String} {o : Option String} {set : Option String → σ → σ}
    (h_field : shape.fields.find? (fun g => g.name == name) = some (.optionalText name set))
    (h_set : ∀ r, set o r = copy name r) :
    ∀ f ∈ Action.optionalField name o, shape.Copies copy (f.1, f.2.sorted) := by
  cases o with
  | none => exact nofun
  | some s => exact List.forall_mem_singleton.mpr (copies_of_read h_field (fun _ _ => rfl) h_set)

/-! ### Groups -/

namespace GroupDefinition

/-- The group with the field of a name taken over from `g`. -/
def copy (g : GroupDefinition) (name : String) (r : GroupDefinition) : GroupDefinition where
  id := if name = "id" then g.id else r.id
  name := if name = "name" then g.name else r.name
  enabled := if name = "enabled" then g.enabled else r.enabled
  exceptionScript := if name = "exception_script" then g.exceptionScript else r.exceptionScript

/-- **A group is read back as it was written.** -/
theorem read_toDocument (g : GroupDefinition) {src : Source} (h_depth : g.toDocument.sorted.depth ≤ src.depth) :
    shape.read src (Node.ofValue g.toDocument.sorted) = pure g := by
  refine RecordShape.read_sorted g.copy ?copies ?required ?whole h_depth
  case copies =>
    simp only [List.forall_mem_append, List.forall_mem_cons]
    refine ⟨⟨?_, ?_, ?_, nofun⟩, ?_⟩
    · exact RecordShape.copies_of_read rfl (fun _ _ => rfl) fun _ => rfl
    · exact RecordShape.copies_of_read rfl (fun _ _ => rfl) fun _ => rfl
    · exact RecordShape.copies_of_read rfl (fun _ _ => rfl) fun _ => rfl
    · exact RecordShape.copies_optionalField rfl fun _ => rfl
  case required =>
    simp [shape, RecordField.text, RecordField.bool, RecordField.optionalText]
  case whole =>
    -- every field was read, so each part of the record is a copy of the group's
    intro names h_names
    simp only [List.map_append, List.map_cons, List.append_subset, List.cons_subset] at h_names
    obtain ⟨⟨h_id, h_name, h_enabled, -⟩, h_exception⟩ := h_names
    ext1
    · exact get_foldl_copy GroupDefinition.id "id" (fun _ _ => rfl) names _ (.inl h_id)
    · exact get_foldl_copy GroupDefinition.name "name" (fun _ _ => rfl) names _ (.inl h_name)
    · exact get_foldl_copy enabled "enabled" (fun _ _ => rfl) names _ (.inl h_enabled)
    · exact get_foldl_copy exceptionScript "exception_script" (fun _ _ => rfl) names _
        (Action.mem_or_eq_none h_exception)

end GroupDefinition

/-! ### Scripts -/

/-- An action is read from a document as from the value of it. -/
theorem Node.readAction_toValue {a : Action} (h : ∀ b ∈ a.walk, b.InRange) {src : Source}
    (h_depth : a.toValue.depth ≤ src.depth) : readAction src (ofValue a.toValue) = pure a.reread := by
  rw [readAction, readValue_ofValue _ (a.wellFormed_toValue h) src h_depth, pure_bind, a.ofValue_toValue_eq h]
  rfl

/-- So is a sequence of actions. -/
theorem Node.readList_listToDocument {actions : List Action} (h : ∀ b ∈ Action.walkList actions, b.InRange)
    {src : Source} (h_depth : (Value.array (Action.listToDocument actions)).sorted.depth ≤ src.depth) :
    readList readAction src (ofValue (Value.array (Action.listToDocument actions)).sorted) =
      pure (Action.rereadList actions) := by
  rw [Action.listToDocument_eq_map, Value.sorted_array_map] at h_depth ⊢
  rw [Action.rereadList_eq_map]
  refine readList_ofValue_map actions (fun a h_a src' h_src' => ?_) src h_depth
  exact readAction_toValue (fun b h_b => h b (Action.mem_walkList h_a h_b)) h_src'

namespace ScriptDefinition

/-- The numbers of the script are of the width that documents have for them, and its values are well formed. -/
structure InRange (s : ScriptDefinition) : Prop where
  /-- The priority is of 64 bits. -/
  priority : ∀ p ∈ s.priority, -(twoTo 63) ≤ p ∧ p < twoTo 63
  /-- The number of repetitions is of 32 bits. -/
  maxRetries : ∀ n ∈ s.maxRetries, n < twoTo 32
  /-- The variables are well formed. -/
  vars : (Value.object s.vars).WellFormed
  /-- The actions at every depth are in range. -/
  actions : ∀ a ∈ Action.walkList s.actions, a.InRange

/-- The script with the field of a name taken over from `s`. -/
def copy (s : ScriptDefinition) (name : String) (r : ScriptDefinition) : ScriptDefinition where
  id := if name = "id" then s.id else r.id
  name := if name = "name" then s.name else r.name
  description := if name = "description" then s.description else r.description
  group := if name = "group" then s.group else r.group
  priority := if name = "priority" then s.priority else r.priority
  maxRetries := if name = "max_retries" then s.maxRetries else r.maxRetries
  exceptionScript := if name = "exception_script" then s.exceptionScript else r.exceptionScript
  autostart := if name = "autostart" then s.autostart else r.autostart
  vars := if name = "variables" then s.vars else r.vars
  actions := if name = "actions" then s.actions else r.actions

/-- The script with what is read of its actions once they are written. -/
def reread (s : ScriptDefinition) : ScriptDefinition := { s with actions := Action.rereadList s.actions }

theorem reread_eq_self_iff (s : ScriptDefinition) :
    s.reread = s ↔ ∀ kind, .unsupported kind ∈ Action.walkList s.actions → kind = "unsupported" := by
  rw [← Action.rereadList_eq_self_iff]
  refine ⟨fun h => congrArg ScriptDefinition.actions h, fun h => ?_⟩
  rw [reread, h]

theorem reread_eq_self {s : ScriptDefinition} (h_known : ∀ kind, .unsupported kind ∉ Action.walkList s.actions) :
    s.reread = s := s.reread_eq_self_iff.mpr fun kind h_kind => absurd h_kind (h_known kind)

/-- **A script is read back as it was written**, as far as its actions are. -/
theorem read_toDocument_eq {s : ScriptDefinition} (h : s.InRange) {src : Source}
    (h_depth : s.toDocument.sorted.depth ≤ src.depth) :
    shape.read src (Node.ofValue s.toDocument.sorted) = pure s.reread := by
  refine RecordShape.read_sorted s.reread.copy ?copies ?required ?whole h_depth
  case copies =>
    -- one goal for each field, in the order in which they are written
    simp only [List.forall_mem_append, List.forall_mem_cons]
    refine ⟨⟨⟨⟨⟨⟨⟨?_, ?_, nofun⟩, ?_⟩, ?_⟩, ?_⟩, ?_⟩, ?_⟩, ?_, ?_, ?_, nofun⟩
    · exact RecordShape.copies_of_read rfl (fun _ _ => rfl) fun _ => rfl
    · exact RecordShape.copies_of_read rfl (fun _ _ => rfl) fun _ => rfl
    · exact RecordShape.copies_optionalField rfl fun _ => rfl
    · exact RecordShape.copies_optionalField rfl fun _ => rfl
    · cases h_p : s.priority with
      | none => exact nofun
      | some p =>
        have h_range := h.priority p h_p
        have h_read : (Node.ofValue (.int p)).readInt (-(twoTo 63)) (twoTo 63 - 1) = pure p :=
          Node.readInt_ofValue (by omega)
        refine List.forall_mem_singleton.mpr ?_
        exact RecordShape.copies_of_read rfl (fun _ _ => Node.readOptional_ofValue h_read) fun _ => h_p ▸ rfl
    · cases h_n : s.maxRetries with
      | none => exact nofun
      | some n =>
        have h_read := Node.readNat_ofValue (h.maxRetries n h_n)
        refine List.forall_mem_singleton.mpr ?_
        exact RecordShape.copies_of_read rfl (fun _ _ => Node.readOptional_ofValue h_read) fun _ => h_n ▸ rfl
    · exact RecordShape.copies_optionalField rfl fun _ => rfl
    · exact RecordShape.copies_of_read rfl (fun _ _ => rfl) fun _ => rfl
    · -- the variables are in order already
      rw [h.vars.sorted_eq]
      exact RecordShape.copies_of_read rfl (Node.readFields_ofValue h.vars) fun _ => rfl
    · exact RecordShape.copies_of_read rfl (fun _ => Node.readList_listToDocument h.actions) fun _ => rfl
  case required =>
    simp [shape, RecordField.text, RecordField.bool, RecordField.optionalText]
  case whole =>
    intro names h_names
    simp only [List.map_append, List.map_cons, List.append_subset, List.cons_subset] at h_names
    obtain ⟨⟨⟨⟨⟨⟨⟨h_id, h_name, -⟩, h_description⟩, h_group⟩, h_priority⟩, h_retries⟩, h_exception⟩, h_autostart,
      h_vars, h_actions, -⟩ := h_names
    ext1
    · exact get_foldl_copy ScriptDefinition.id "id" (fun _ _ => rfl) names _ (.inl h_id)
    · exact get_foldl_copy ScriptDefinition.name "name" (fun _ _ => rfl) names _ (.inl h_name)
    · exact get_foldl_copy description "description" (fun _ _ => rfl) names _
        (Action.mem_or_eq_none h_description)
    · exact get_foldl_copy group "group" (fun _ _ => rfl) names _
        (Action.mem_or_eq_none h_group)
    · refine get_foldl_copy priority "priority" (fun _ _ => rfl) names _ ?_
      cases h_p : s.priority with
      | none => exact .inr h_p.symm -- as in the blank script
      | some p => exact .inl (h_priority (by simp [h_p]))
    · refine get_foldl_copy maxRetries "max_retries" (fun _ _ => rfl) names _ ?_
      cases h_n : s.maxRetries with
      | none => exact .inr h_n.symm
      | some n => exact .inl (h_retries (by simp [h_n]))
    · exact get_foldl_copy exceptionScript "exception_script" (fun _ _ => rfl) names _
        (Action.mem_or_eq_none h_exception)
    · exact get_foldl_copy autostart "autostart" (fun _ _ => rfl) names _ (.inl h_autostart)
    · exact get_foldl_copy vars "variables" (fun _ _ => rfl) names _ (.inl h_vars)
    · exact get_foldl_copy actions "actions" (fun _ _ => rfl) names _ (.inl h_actions)

/-- A script of actions of known kinds is read back as it was written. -/
theorem read_toDocument {s : ScriptDefinition} (h : s.InRange)
    (h_known : ∀ kind, .unsupported kind ∉ Action.walkList s.actions) {src : Source}
    (h_depth : s.toDocument.sorted.depth ≤ src.depth) :
    shape.read src (Node.ofValue s.toDocument.sorted) = pure s := by
  rw [read_toDocument_eq h h_depth, reread_eq_self h_known]

end ScriptDefinition

/-! ### Libraries -/

namespace ScriptLibrary

/-- The library with the field of a name taken over from `l`. -/
def copy (l : ScriptLibrary) (name : String) (r : ScriptLibrary) : ScriptLibrary where
  groups := if name = "groups" then l.groups else r.groups
  scripts := if name = "scripts" then l.scripts else r.scripts

/-- The library with what is read of its scripts once they are written. -/
def reread (l : ScriptLibrary) : ScriptLibrary := { l with scripts := l.scripts.map ScriptDefinition.reread }

/-- **A library is read back as it was written**, as far as its scripts are. -/
theorem ofValue_toValue_eq {l : ScriptLibrary} (h : ∀ s ∈ l.scripts, s.InRange) :
    shape.ofValue l.toValue = .ok l.reread := by
  have h_read : shape.read (.value l.toValue) (Node.ofValue l.toValue) = pure l.reread := by
    refine RecordShape.read_sorted l.reread.copy ?copies ?required ?whole (le_refl l.toValue.depth)
    case copies =>
      simp only [List.forall_mem_cons, Value.sorted_array_map]
      refine ⟨?_, ?_, nofun⟩
      · -- groups are read as they are, scripts as what is left of their unknown kinds
        refine RecordShape.copies_of_read rfl (Node.readList_ofValue l.groups fun g _ src h_src => ?_) fun _ => rfl
        exact g.read_toDocument h_src
      · refine RecordShape.copies_of_read rfl (Node.readList_ofValue_map l.scripts fun s h_s src h_src => ?_)
          fun _ => rfl
        exact ScriptDefinition.read_toDocument_eq (h s h_s) h_src
    case required => simp [shape]
    case whole =>
      intro names h_names
      simp only [List.map_cons, List.cons_subset] at h_names
      obtain ⟨h_groups, h_scripts, -⟩ := h_names
      ext1
      · exact get_foldl_copy groups "groups" (fun _ _ => rfl) names _ (.inl h_groups)
      · exact get_foldl_copy scripts "scripts" (fun _ _ => rfl) names _ (.inl h_scripts)
  rw [RecordShape.ofValue, h_read]
  rfl

/-- A library of scripts of known kinds is read back as it was written. -/
theorem ofValue_toValue {l : ScriptLibrary} (h : ∀ s ∈ l.scripts, s.InRange)
    (h_known : ∀ s ∈ l.scripts, ∀ kind, .unsupported kind ∉ Action.walkList s.actions) :
    shape.ofValue l.toValue = .ok l := by
  have h_scripts : l.scripts.map ScriptDefinition.reread = l.scripts.map id :=
    List.map_congr_left fun s h_s => ScriptDefinition.reread_eq_self (h_known s h_s)
  rw [ofValue_toValue_eq h, reread, h_scripts, List.map_id]

end ScriptLibrary

/-! ### The whole -/

/-- **Written scripts are read back.** What is written for a tree of actions of known kinds is read as this tree,
and its objects are tagged with the canonical names of their kinds, which the reader knows; what is written for a
script or a library of such trees is read as this script or library. The integers have to be of the width that
they have in documents, and the values in key order; in a tree that was itself read from a well-formed value they
are. Floating-point numbers are finite by their type. -/
theorem written_scripts_are_read_back :
    (∀ a : Action, (∀ b ∈ a.walk, b.InRange) → (∀ kind, .unsupported kind ∉ a.walk) →
      (∀ b ∈ a.walk, b.toValue.get? "type" = some (.string b.kind) ∧
        (Action.KnownKind.ofName? b.kind).isSome = true) ∧
      Action.ofValue a.toValue = .ok a) ∧
    (∀ v : Value, v.WellFormed → ∀ a, Action.ofValue v = .ok a → ∀ b ∈ a.walk, b.InRange) ∧
    (∀ s : ScriptDefinition, s.InRange → (∀ kind, .unsupported kind ∉ Action.walkList s.actions) →
      ScriptDefinition.shape.ofValue s.toValue = .ok s) ∧
    (∀ l : ScriptLibrary, (∀ s ∈ l.scripts, s.InRange) →
      (∀ s ∈ l.scripts, ∀ kind, .unsupported kind ∉ Action.walkList s.actions) →
        ScriptLibrary.shape.ofValue l.toValue = .ok l) := by
  refine ⟨fun a h h_known => ⟨fun b h_b => ?_, a.ofValue_toValue h h_known⟩,
    fun v h_v a h_read => Action.inRange_of_ofValue v h_v h_read, fun s h h_known => ?_,
    fun l h h_known => ScriptLibrary.ofValue_toValue h h_known⟩
  · exact b.canonical_tag fun kind h_kind => h_known kind (h_kind ▸ h_b)
  · rw [RecordShape.ofValue, ScriptDefinition.toValue, ScriptDefinition.read_toDocument h h_known (le_refl _)]
    rfl

/-- A loop that reads a part of an image, until a variable is null. -/
def patience : Action :=
  .loop Finite64.one 3 [.readText ⟨none, some ⟨-1, 0, 10, 5⟩, some "text"⟩ none,
    .condition (.variableCompare "text" .ne .null) [.restart none] [] true (some "found")] none

/-- A script that is patient at a low priority. -/
def patientScript : ScriptDefinition :=
  { id := "s", priority := some (-1), vars := [("text", .null)], actions := [patience] }

theorem patience_inRange : ∀ b ∈ patience.walk, b.InRange := by
  have h_region : Region.InRange ⟨-1, 0, 10, 5⟩ := by constructor <;> decide
  simp [patience, Action.walk, Action.walkList, Action.InRange, Check.InRange, h_region, Value.WellFormed.null]
  decide

theorem patientScript_inRange : patientScript.InRange where
  priority p h_p := by
    cases h_p
    decide
  maxRetries n h_n := by cases h_n
  vars := .object _ (List.pairwise_singleton _ _) (List.forall_mem_singleton.mpr .null)
  actions := by simpa [patientScript, Action.walkList] using patience_inRange

/-- The tree, the script and a library of it are read back. -/
theorem patience_is_read_back :
    Action.ofValue patience.toValue = .ok patience ∧
      ScriptDefinition.shape.ofValue patientScript.toValue = .ok patientScript ∧
      ScriptLibrary.shape.ofValue (ScriptLibrary.toValue ⟨[{ id := "g" }], [patientScript]⟩) =
        .ok ⟨[{ id := "g" }], [patientScript]⟩ := by
  have h_known : ∀ kind, .unsupported kind ∉ patience.walk := by simp [patience, Action.walk, Action.walkList]
  have h_script_known : ∀ kind, .unsupported kind ∉ Action.walkList patientScript.actions := by
    simpa [patientScript, Action.walkList] using h_known
  obtain ⟨h_actions, -, h_scripts, h_libraries⟩ := written_scripts_are_read_back
  exact ⟨(h_actions patience patience_inRange h_known).2,
    h_scripts patientScript patientScript_inRange h_script_known,
    h_libraries _ (List.forall_mem_singleton.mpr patientScript_inRange)
      (List.forall_mem_singleton.mpr h_script_known)⟩

end ScriptYard
