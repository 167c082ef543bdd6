import Mathlib.Data.List.Forall2
import ScriptYard.Proofs.Script.RoundTrip

/-!
# Older spellings of actions

Four kinds of actions have an older name, and the capability of a call may stand under `plugin`. `Value.canonical`
writes the canonical names instead, at every place of an action (`Value.places`): in the value itself and in the
sequences of the conditions and loops there. What is given as data (parameters, values, images) is left alone, whatever
it looks like.

`older_spellings_mean_the_same` says that a document and its canonical spelling are read as the same tree, or neither is
read. Only the fields that are looked for under their names matter (`Action.toOption_ofFields_congr`), and a call
finds its capability under either name but not under both. That each action of the tree is of the kind that its place
names follows from the inversion of the reader (`Action.described_of_ofFields`). As for faults, `ReadError.Blames`
says what a name that nobody knows can be put down to: reading in steps, none of which looks at the name of an action
for more than its kind, leads to conditions and what they ask.
-/

namespace ScriptYard

/-! ### Canonical spelling -/

namespace Action

/-- The canonical one of the names of a kind; a name of no kind stands for itself. -/
def canonicalName : String → String
  | "plugin_action" => "plugin_call"
  | "polling_loop" => "loop"
  | "ocr_text" => "ocr"
  | "restart_script" => "restart"
  | name => name

/-- The fields in which an object of this name holds further actions, in the order of execution. -/
def sequenceNames (name : String) : List String :=
  match canonicalName name with
  | "condition" => ["on_true", "on_false"]
  | "loop" => ["actions"]
  | _ => []

/-- The fields of a call with its capability under the newer name. -/
def renamePlugin (fields : Fields Value) : Fields Value :=
  match fields.get? "plugin" with
  | some v => (fields.erase "plugin").insert "capability" v
  | none => fields

/-- The fields of an object of this name under canonical names. -/
def respell (name : String) (fields : Fields Value) : Fields Value :=
  if canonicalName name = "plugin_call" then
    renamePlugin (fields.insert "type" (.string (canonicalName name)))
  else fields.insert "type" (.string (canonicalName name))

end Action

namespace Value

/-- The name of the kind of action that a value stands for. -/
def actionName? (v : Value) : Option String := (v.get? "type").bind text?

mutual

/-- The canonical spelling of the value of an action. -/
def canonical : Value → Value
  | .object fields => match (Fields.get? fields "type").bind text? with
    | some name => .object (Action.respell name (canonicalFields (Action.sequenceNames name) fields))
    | none => .object fields
  | v => v

/-- The canonical spelling of fields of which those of some names hold actions. -/
def canonicalFields (names : List String) : List (String × Value) → List (String × Value)
  | [] => []
  | (n, v) :: rest => (n, if n ∈ names then canonicalSequence v else v) :: canonicalFields names rest

/-- The canonical spelling of the actions in an array. -/
def canonicalSequence : Value → Value
  | .array items => .array (canonicalItems items)
  | v => v

/-- `Value.canonical` item by item. -/
def canonicalItems : List Value → List Value
  | [] => []
  | v :: rest => canonical v :: canonicalItems rest

end

mutual

/-- The values that stand for an action and for the actions below it, in the order of execution. -/
def places : Value → List Value
  | .object fields => .object fields ::
      (((Fields.get? fields "type").bind text?).elim [] Action.sequenceNames).flatMap fun n =>
        (Fields.get? (placesOfFields fields) n).getD []
  | v => [v]

/-- What stands for actions in each of some fields. -/
def placesOfFields : List (String × Value) → List (String × List Value)
  | [] => []
  | (n, v) :: rest => (n, placesOfSequence v) :: placesOfFields rest

/-- What stands for actions in an array. -/
def placesOfSequence : Value → List Value
  | .array items => placesOfItems items
  | _ => []

/-- `Value.places` item by item. -/
def placesOfItems : List Value → List Value
  | [] => []
  | v :: rest => places v ++ placesOfItems rest

end

/-- A call names its capability under one of the two names only. -/
def SpellsOnce (v : Value) : Prop :=
  v.actionName?.map Action.canonicalName = some "plugin_call" →
    ¬((v.get? "plugin").isSome = true ∧ (v.get? "capability").isSome = true)

instance (v : Value) : Decidable v.SpellsOnce := inferInstanceAs (Decidable (_ → _))

end Value

/-! ### Readings up to faults -/

theorem Except.toOption_bind {ε α β : Type} (x : Except ε α) (f : α → Except ε β) :
    (x >>= f).toOption = x.toOption.bind fun a => (f a).toOption := by
  cases x <;> rfl

theorem Except.toOption_eq_some_iff {ε α : Type} {x : Except ε α} {a : α} : x.toOption = some a ↔ x = .ok a := by
  cases x <;> simp [Except.toOption]

namespace Fields

variable {fields fields' : Fields Value} {name : String}

theorem read?_error {α : Type} {read : Value → Except ReadError α} {v : Value} {e : ReadError}
    (h : fields.get? name = some v) (h_read : read v = .error e) : fields.read? name read = .error e := by
  unfold read?
  rw [h]
  simp only [h_read]
  rfl

theorem read?_congr {α : Type} {read : Value → Except ReadError α} (h : fields.get? name = fields'.get? name) :
    fields.read? name read = fields'.read? name read := by
  rw [read?, read?, h]

theorem readText?_congr (h : fields.get? name = fields'.get? name) :
    fields.readText? name = fields'.readText? name := by
  rw [readText?, readText?, h]

theorem contains_congr (h : fields.get? name = fields'.get? name) : fields.contains name = fields'.contains name := by
  rw [contains, contains, h]

end Fields

theorem Check.ofFields_congr {fields fields' : Fields Value}
    (h : ∀ n, n ∉ ["type", "on_true", "on_false", "actions"] → fields.get? n = fields'.get? n) :
    ofFields fields = ofFields fields' := by
  simp (disch := decide) only [ofFields, Fields.read?_congr (h _ _), Fields.readText?_congr (h _ _), h]

namespace Action

/-- Two objects of a kind stand for the same action, or neither stands for one, if they agree in the fields that hold
no actions and their sequences are the same up to faults. -/
theorem toOption_ofFields_congr {fields fields' : Fields Value} {sequences sequences' : Sequences} (kind : KnownKind)
    (h : ∀ n, n ∉ ["type", "on_true", "on_false", "actions"] → fields.get? n = fields'.get? n)
    (h_sequence : ∀ n ∈ ["on_true", "on_false", "actions"],
      (sequence sequences n).toOption = (sequence sequences' n).toOption) :
    (ofFields fields sequences kind).toOption = (ofFields fields' sequences' kind).toOption := by
  cases kind <;>
    simp (disch := decide) only [ofFields, Except.toOption_bind, Fields.read?_congr (h _ _),
      Fields.contains_congr (h _ _), Fields.readText?_congr (h _ _), Check.ofFields_congr h, h_sequence _, h]

/-- A call stands for the same action if its capability is called by the newer name. -/
theorem toOption_ofFields_renamePlugin {fields : Fields Value} (sequences : Sequences)
    (h : ¬((fields.get? "plugin").isSome = true ∧ (fields.get? "capability").isSome = true)) :
    (ofFields (renamePlugin fields) sequences .call).toOption = (ofFields fields sequences .call).toOption := by
  cases h_plugin : fields.get? "plugin" with
  | none => rw [renamePlugin, h_plugin]
  | some v =>
    have h_none : fields.get? "capability" = none := by simpa [h_plugin] using h
    have h_get (n : String) : (renamePlugin fields).get? n =
        if "capability" = n then some v else if "plugin" = n then none else fields.get? n := by
      simp only [renamePlugin, h_plugin, Fields.get?_insert, Fields.get?_erase]
    have h_same (n : String) (h_n : n ≠ "capability" ∧ n ≠ "plugin") :
        (renamePlugin fields).get? n = fields.get? n := by
      rw [h_get, if_neg (Ne.symm h_n.1), if_neg (Ne.symm h_n.2)]
    have h_capability : (renamePlugin fields).get? "capability" = some v := by rw [h_get, if_pos rfl]
    have h_plugin' : (renamePlugin fields).get? "plugin" = none := by
      rw [h_get, if_neg (by decide), if_pos rfl]
    simp (disch := decide) only [ofFields, Except.toOption_bind, Fields.read?_congr (h_same _ _), Fields.contains,
      Fields.readText?_congr (h_same _ _), Fields.read?_none h_none, Fields.read?_none h_plugin', h_plugin',
      pure_bind, Option.isSome_none, Bool.false_and, Bool.and_false, Bool.false_eq_true, if_false]
    -- the text is read at another point, which makes a difference to the first fault only
    cases h_read : v.readText with
    | error e =>
      simp only [Fields.read?_error h_capability h_read, Fields.read?_error h_plugin h_read, Except.toOption,
        Option.bind_none, Option.bind_fun_none]
    | ok s => rw [Fields.read?_eq h_capability h_read, Fields.read?_eq h_plugin h_read]; rfl

/-! ### Names and kinds -/

/-- The canonical name of a kind. -/
def KnownKind.name : KnownKind → String
  | .call => "plugin_call"
  | .condition => "condition"
  | .loop => "loop"
  | .templateMatch => "template_match"
  | .readText => "ocr"
  | .wait => "wait"
  | .setVariable => "set_variable"
  | .restart => "restart"

theorem KnownKind.name_injective : Function.Injective KnownKind.name := by
  intro kind kind' h
  cases kind <;> cases kind' <;> first | rfl | exact absurd h (by decide)

theorem canonicalName_of_ofName? {name : String} {kind : KnownKind} (h : KnownKind.ofName? name = some kind) :
    canonicalName name = kind.name := by
  unfold KnownKind.ofName? at h
  split at h <;> cases h <;> rfl

theorem canonicalName_of_unknown {name : String} (h : KnownKind.ofName? name = none) : canonicalName name = name := by
  unfold canonicalName
  split <;> first | cases h | rfl

theorem sequenceNames_of_unknown {name : String} (h : KnownKind.ofName? name = none) : sequenceNames name = [] := by
  rw [sequenceNames, canonicalName_of_unknown h]
  split <;> first | cases h | rfl

/-- Older names of a kind are names of the same kind. -/
theorem ofName?_canonicalName (name : String) : KnownKind.ofName? (canonicalName name) = KnownKind.ofName? name := by
  unfold canonicalName
  split <;> rfl

theorem ofName?_eq_none_iff {name : String} : KnownKind.ofName? name = none ↔ name ∉ knownNames := by
  rw [← Option.not_isSome_iff_eq_none, KnownKind.isSome_ofName?, List.contains_iff_mem]

/-- Which fields hold actions depends on the kind. -/
theorem sequenceNames_of_ofName? {name : String} {kind : KnownKind} (h : KnownKind.ofName? name = some kind) :
    sequenceNames name = sequenceNames kind.name := by
  unfold KnownKind.ofName? at h
  split at h <;> cases h <;> rfl

theorem mem_of_mem_sequenceNames {name n : String} (h : n ∈ sequenceNames name) :
    n ∈ ["on_true", "on_false", "actions"] := by
  unfold sequenceNames at h
  split at h
  · exact List.mem_append_left ["actions"] h
  · exact List.mem_append_right ["on_true", "on_false"] h
  · cases h

/-! ### The canonical spelling is read alike -/

end Action

namespace Value

theorem canonicalFields_eq_map (names : List String) (fields : List (String × Value)) :
    canonicalFields names fields =
      fields.map fun f => (f.1, if f.1 ∈ names then f.2.canonicalSequence else f.2) := by
  induction fields with
  | nil => rfl
  | cons f rest ih => rw [canonicalFields, ih, List.map_cons]

theorem get?_canonicalFields (names : List String) (fields : Fields Value) (n : String) :
    Fields.get? (canonicalFields names fields) n =
      (fields.get? n).map fun v => if n ∈ names then v.canonicalSequence else v := by
  rw [canonicalFields_eq_map]
  exact Fields.get?_map fields (fun f => if f.1 ∈ names then f.2.canonicalSequence else f.2) n

theorem placesOfFields_eq_map (fields : List (String × Value)) :
    placesOfFields fields = fields.map fun f => (f.1, f.2.placesOfSequence) := by
  induction fields with
  | nil => rfl
  | cons f rest ih => rw [placesOfFields, ih, List.map_cons]

/-- Behind the place of an object come those in its sequences. -/
theorem places_object {fields : Fields Value} {name : String} (h : (fields.get? "type").bind text? = some name) :
    places (.object fields) = .object fields ::
      (Action.sequenceNames name).flatMap fun n => (fields.get? n).elim [] placesOfSequence := by
  rw [places, h, placesOfFields_eq_map]
  congr 2
  funext n
  rw [Fields.get?_map fields (fun f => f.2.placesOfSequence)]
  cases fields.get? n <;> rfl

end Value

namespace Action

theorem get?_type_respell (name : String) (fields : Fields Value) :
    (respell name fields).get? "type" = some (.string (canonicalName name)) := by
  have h_get : (fields.insert "type" (.string (canonicalName name))).get? "type" =
      some (.string (canonicalName name)) := by
    rw [Fields.get?_insert, if_pos rfl]
  unfold respell renamePlugin
  split
  · split
    · rw [Fields.get?_insert, if_neg (by decide), Fields.get?_erase, if_neg (by decide), h_get]
    · exact h_get
  · exact h_get

theorem get?_respell (name : String) (fields : Fields Value) {n : String}
    (h : n ∉ ["type", "plugin", "capability"]) : (respell name fields).get? n = fields.get? n := by
  simp only [List.mem_cons, List.not_mem_nil, or_false, not_or] at h
  obtain ⟨h_type, h_plugin, h_capability⟩ := h
  have h_get : (fields.insert "type" (.string (canonicalName name))).get? n = fields.get? n := by
    rw [Fields.get?_insert, if_neg (Ne.symm h_type)]
  unfold respell renamePlugin
  split
  · split
    · rw [Fields.get?_insert, if_neg (Ne.symm h_capability), Fields.get?_erase, if_neg (Ne.symm h_plugin), h_get]
    · exact h_get
  · exact h_get

/-- What the fields of an object under canonical names stand for. -/
theorem toOption_ofFields_respell {name : String} {kind : KnownKind} {fields : Fields Value}
    (sequences : Sequences) (h_kind : KnownKind.ofName? name = some kind)
    (h : kind = .call → ¬((fields.get? "plugin").isSome = true ∧ (fields.get? "capability").isSome = true)) :
    (ofFields (respell name fields) sequences kind).toOption = (ofFields fields sequences kind).toOption := by
  have h_insert : (ofFields (fields.insert "type" (.string (canonicalName name))) sequences kind).toOption =
      (ofFields fields sequences kind).toOption := by
    refine toOption_ofFields_congr kind (fun n h_n => ?_) fun _ _ => rfl
    have h_ne : "type" ≠ n := fun h_eq => h_n (h_eq ▸ List.mem_cons_self)
    rw [Fields.get?_insert, if_neg h_ne]
  unfold respell
  split
  · -- a call gives its plugin the canonical name too, which is allowed as it has not both
    next h_call =>
    obtain rfl : kind = .call := KnownKind.name_injective ((canonicalName_of_ofName? h_kind).symm.trans h_call)
    rw [toOption_ofFields_renamePlugin, h_insert]
    rw [Fields.get?_insert, Fields.get?_insert, if_neg (by decide), if_neg (by decide)]
    exact h rfl
  · exact h_insert

theorem toOption_ofObject (fields : Fields Value) (sequences : Sequences) :
    (ofObject fields sequences).toOption = ((fields.get? "type").bind Value.text?).bind fun name =>
      (KnownKind.ofName? name).elim (some (.unsupported name)) fun kind =>
        (ofFields fields sequences kind).toOption := by
  rw [ofObject_eq]
  cases (fields.get? "type").bind Value.text? with
  | none => rfl
  | some name =>
    simp only [Option.bind_some]
    cases KnownKind.ofName? name with
    | none => rfl
    | some kind =>
      simp only [Option.elim_some]
      cases ofFields fields sequences kind <;> rfl

/-- So does an object of a known kind whose sequences under canonical names are read alike. -/
theorem toOption_ofFields_canonical {name : String} {kind : KnownKind} {fields : Fields Value}
    (h_kind : KnownKind.ofName? name = some kind) (h_name : (fields.get? "type").bind Value.text? = some name)
    (h_once : (Value.object fields).SpellsOnce)
    (h_sequences : ∀ n ∈ sequenceNames name, ∀ v, fields.get? n = some v →
      (listOfValue v.canonicalSequence).toOption = (listOfValue v).toOption) :
    let canonical := respell name (Value.canonicalFields (sequenceNames name) fields)
    (ofFields canonical (sequencesOfFields canonical) kind).toOption =
      (ofFields fields (sequencesOfFields fields) kind).toOption := by
  have h_get (n : String) (h_n : n ∉ ["on_true", "on_false", "actions"]) :
      Fields.get? (Value.canonicalFields (sequenceNames name) fields) n = fields.get? n := by
    have h_not : n ∉ sequenceNames name := fun h_mem => h_n (mem_of_mem_sequenceNames h_mem)
    simp only [Value.get?_canonicalFields, if_neg h_not, Option.map_id']
  intro canonical
  rw [toOption_ofFields_respell _ h_kind]
  · refine toOption_ofFields_congr kind (fun n h_n => h_get n fun h_mem => h_n (List.mem_cons_of_mem _ h_mem)) ?_
    intro n h_n
    have h_other : n ∉ ["type", "plugin", "capability"] := by revert n; decide
    -- the sequences are below names that keep their spelling, and are read alike
    rw [sequence_sequencesOfFields, sequence_sequencesOfFields, get?_respell name _ h_other,
      Value.get?_canonicalFields]
    cases h_v : fields.get? n with
    | none => rfl
    | some v =>
      simp only [Option.map_some, Option.elim_some]
      split
      · next h_mem => exact h_sequences n h_mem v h_v
      · rfl
  · intro h_call
    -- only a call can name its capability twice
    rw [h_get _ (by decide), h_get _ (by decide)]
    refine h_once ?_
    rw [Value.actionName?, Value.get?, h_name, Option.map_some, canonicalName_of_ofName? h_kind, h_call]
    rfl

mutual

/-- The canonical spelling of a value stands for the same action, or neither stands for one. -/
theorem toOption_ofValue_canonical (v : Value) (h : ∀ w ∈ v.places, w.SpellsOnce) :
    (ofValue v.canonical).toOption = (ofValue v).toOption := by
  match v with
  | .object fields =>
    cases h_name : (Fields.get? fields "type").bind Value.text? with
    | none => rw [Value.canonical, h_name]
    | some name =>
      rw [Value.places_object h_name, List.forall_mem_cons] at h
      rw [Value.canonical, h_name, ofValue, ofValue, toOption_ofObject, toOption_ofObject, get?_type_respell, h_name]
      simp only [Option.bind_some, Value.text?, ofName?_canonicalName]
      cases h_kind : KnownKind.ofName? name with
      -- an unknown kind keeps its name
      | none => rw [Option.elim_none, Option.elim_none, canonicalName_of_unknown h_kind]
      | some kind =>
        refine toOption_ofFields_canonical h_kind h_name h.1 fun n h_n v h_v => ?_
        refine toOption_canonicalFields fields n v h_v fun w h_w => h.2 w ?_
        exact List.mem_flatMap.mpr ⟨n, h_n, by rwa [h_v]⟩
  | .null | .bool _ | .number _ | .string _ | .array _ => rfl

theorem toOption_canonicalFields (fields : List (String × Value)) (n : String) (v : Value)
    (h_get : Fields.get? fields n = some v) (h : ∀ w ∈ v.placesOfSequence, w.SpellsOnce) :
    (listOfValue v.canonicalSequence).toOption = (listOfValue v).toOption := by
  match fields with
  | [] => cases h_get
  | (n', v') :: rest =>
    rw [Fields.get?] at h_get
    split at h_get
    · exact Option.some.inj h_get ▸ toOption_canonicalSequence v' (Option.some.inj h_get ▸ h)
    · exact toOption_canonicalFields rest n v h_get h

theorem toOption_canonicalSequence (v : Value) (h : ∀ w ∈ v.placesOfSequence, w.SpellsOnce) :
    (listOfValue v.canonicalSequence).toOption = (listOfValue v).toOption := by
  match v with
  | .array items => exact toOption_canonicalItems items h
  | .null | .bool _ | .number _ | .string _ | .object _ => rfl

theorem toOption_canonicalItems (items : List Value) (h : ∀ w ∈ Value.placesOfItems items, w.SpellsOnce) :
    (listOfItems (Value.canonicalItems items)).toOption = (listOfItems items).toOption := by
  match items with
  | [] => rfl
  | v :: rest =>
    obtain ⟨h_v, h_rest⟩ := List.forall_mem_append.mp h
    simp only [Value.canonicalItems, listOfItems, Except.toOption_bind, toOption_ofValue_canonical v h_v,
      toOption_canonicalItems rest h_rest]

end

end Action

/-! ### The tree names what the places name -/

/-- What a value stands for: the action that is read from it, of the kind that the value names, and of an unknown kind
if the name is none of those known. -/
def Value.StandsFor (v : Value) (a : Action) : Prop :=
  Action.ofValue v = .ok a ∧ ∃ name, v.actionName? = some name ∧ a.kind = Action.canonicalName name ∧
    ((∃ kind, a = .unsupported kind) ↔ name ∉ Action.knownNames)

namespace Action

/-- An action that the fields of an object describe is of the kind asked for, and below it are the sequences that were
read under the names that this kind has for them. -/
theorem exists_of_ofFields {fields : Fields Value} {sequences : Sequences} {kind : KnownKind} {a : Action}
    (h : ofFields fields sequences kind = .ok a) :
    a.kind = kind.name ∧ (∀ name, a ≠ .unsupported name) ∧ ∃ lists,
      List.Forall₂ (fun n actions => sequence sequences n = .ok actions) (sequenceNames kind.name) lists ∧
        a.walk = a :: lists.flatMap walkList := by
  cases described_of_ofFields h with
  | condition check onTrue onFalse breakOnTrue description h_check h_true h_false =>
    refine ⟨rfl, fun _ => Action.noConfusion, [onTrue, onFalse], .cons h_true (.cons h_false .nil), ?_⟩
    simp [walk]
  | loop interval most body description h_body h_most =>
    refine ⟨rfl, fun _ => Action.noConfusion, [body], .cons h_body .nil, ?_⟩
    simp [walk]
  | call | templateMatch | readText | wait | setVariable | restart =>
    exact ⟨rfl, fun _ => Action.noConfusion, [], .nil, rfl⟩

/-- An object from which an action is read has a name, and it is either of no kind or of the kind that is read. -/
theorem cases_of_ofObject {fields : Fields Value} {sequences : Sequences} {a : Action}
    (h : ofObject fields sequences = .ok a) : ∃ name, (fields.get? "type").bind Value.text? = some name ∧
      (KnownKind.ofName? name = none ∧ a = .unsupported name ∨
        ∃ kind, KnownKind.ofName? name = some kind ∧ ofFields fields sequences kind = .ok a) := by
  rw [ofObject_eq] at h
  -- without a name nothing is read
  split at h
  · cases h
  · next name h_name =>
    refine ⟨name, h_name, ?_⟩
    split at h
    · next h_kind =>
      cases h
      exact .inl ⟨h_kind, rfl⟩
    · next kind h_kind =>
      split at h
      · next h_fields =>
        cases h
        exact .inr ⟨kind, h_kind, h_fields⟩
      · cases h

mutual

/-- **Each place stands for its action**: those of the places of a value are those of the tree, in order. -/
theorem forall₂_places_walk {a : Action} (v : Value) (h : ofValue v = .ok a) :
    List.Forall₂ Value.StandsFor v.places a.walk := by
  match v with
  | .object fields =>
    obtain ⟨name, h_name, ⟨h_kind, rfl⟩ | ⟨kind, h_kind, h_fields⟩⟩ := cases_of_ofObject h
    · rw [Value.places_object h_name, sequenceNames_of_unknown h_kind]
      -- an unknown kind has no places below it
      refine .cons ⟨h, name, h_name, (canonicalName_of_unknown h_kind).symm, ?_⟩ .nil
      exact iff_of_true ⟨name, rfl⟩ (ofName?_eq_none_iff.mp h_kind)
    · obtain ⟨h_kind_eq, h_known, lists, h_lists, h_walk⟩ := exists_of_ofFields h_fields
      rw [Value.places_object h_name, sequenceNames_of_ofName? h_kind, h_walk]
      refine .cons ⟨h, name, h_name, h_kind_eq.trans (canonicalName_of_ofName? h_kind).symm, ?_⟩ ?_
      · refine iff_of_false (fun ⟨name', h_eq⟩ => h_known name' h_eq) fun h_not => ?_
        rw [ofName?_eq_none_iff.mpr h_not] at h_kind
        cases h_kind
      · -- a sequence that is missing is read as an empty one
        refine List.rel_flatMap h_lists fun n actions h_actions => ?_
        simp only [sequence_sequencesOfFields] at h_actions
        cases h_v : Fields.get? fields n with
        | none =>
          rw [h_v] at h_actions
          cases h_actions
          exact .nil
        | some w =>
          rw [h_v] at h_actions
          exact forall₂_placesOfFields fields n w h_v h_actions
  | .null | .bool _ | .number _ | .string _ | .array _ => cases h

theorem forall₂_placesOfFields {actions : List Action} (fields : List (String × Value)) (n : String) (v : Value)
    (h_get : Fields.get? fields n = some v) (h : listOfValue v = .ok actions) :
    List.Forall₂ Value.StandsFor v.placesOfSequence (walkList actions) := by
  match fields with
  | [] => cases h_get
  | (n', v') :: rest =>
    rw [Fields.get?] at h_get
    split at h_get
    · exact Option.some.inj h_get ▸ forall₂_placesOfSequence v' (Option.some.inj h_get ▸ h)
    · exact forall₂_placesOfFields rest n v h_get h

theorem forall₂_placesOfSequence {actions : List Action} (v : Value) (h : listOfValue v = .ok actions) :
    List.Forall₂ Value.StandsFor v.placesOfSequence (walkList actions) := by
  match v with
  | .array items => exact forall₂_placesOfItems items h
  | .null | .bool _ | .number _ | .string _ | .object _ => cases h

theorem forall₂_placesOfItems {actions : List Action} (items : List Value) (h : listOfItems items = .ok actions) :
    List.Forall₂ Value.StandsFor (Value.placesOfItems items) (walkList actions) := by
  match items with
  | [] =>
    cases h
    exact .nil
  | v :: rest =>
    obtain ⟨a, h_a, h⟩ := Except.bind_eq_ok_iff.mp h
    obtain ⟨others, h_others, h_eq⟩ := Except.bind_eq_ok_iff.mp h
    cases h_eq
    exact List.rel_append (forall₂_places_walk v h_a) (forall₂_placesOfItems rest h_others)

end

end Action

/-! ### What an unknown name is put down to -/

/-- What a reading stopped at, without the actions around it. -/
def ReadError.root : ReadError → ReadError
  | .inAction _ cause => cause.root
  | e => e

/-- A reading puts a name that nobody knows down to something that holds of the name. -/
def ReadError.Blames {α : Type} (P : String → Prop) (x : Except ReadError α) : Prop :=
  ∀ e s, x = .error e → e.root = .unknownVariant s → P s

namespace ReadError

variable {α β : Type} {P Q : String → Prop}

theorem Blames.mono {x : Except ReadError α} (h : Blames P x) (h_imp : ∀ s, P s → Q s) : Blames Q x :=
  fun e s h_e h_s => h_imp s (h e s h_e h_s)

theorem Blames.ok {a : α} : Blames P (.ok a : Except ReadError α) := nofun

theorem Blames.bind {x : Except ReadError α} {f : α → Except ReadError β} (h : Blames P x)
    (h_f : ∀ a, x = .ok a → Blames P (f a)) : Blames P (x >>= f) := by
  cases x with
  | error e => exact fun e' s h_e h_s => h e s rfl (Except.error.inj h_e ▸ h_s)
  | ok a => exact h_f a rfl

/-- A fault that is not about a name puts nothing down to anything. -/
theorem Blames.error {e : ReadError} (h : ∀ s, e.root ≠ .unknownVariant s) : Blames P (.error e : Except ReadError α) :=
  fun _ s h_e h_s => absurd (Except.error.inj h_e ▸ h_s) (h s)

theorem Blames.wrongValue : Blames P (.error .wrongValue : Except ReadError α) :=
  .error fun _ => ReadError.noConfusion

theorem Blames.missingField (name : String) : Blames P (.error (.missingField name) : Except ReadError α) :=
  .error fun _ => ReadError.noConfusion

theorem Blames.duplicateField (name : String) : Blames P (.error (.duplicateField name) : Except ReadError α) :=
  .error fun _ => ReadError.noConfusion

theorem Blames.mapM {f : α → Except ReadError β} (h : ∀ a, Blames P (f a)) (as : List α) : Blames P (as.mapM f) := by
  induction as with
  | nil => exact .ok
  | cons a rest ih =>
    rw [List.mapM_cons]
    exact (h a).bind fun _ _ => ih.bind fun _ _ => .ok

variable {fields : Fields Value} {name : String}

theorem Blames.read? {read : Value → Except ReadError α} (h : ∀ v, fields.get? name = some v → Blames P (read v)) :
    Blames P (fields.read? name read) := by
  unfold Fields.read?
  split
  · next v h_v => exact (h v h_v).bind fun _ _ => .ok
  · exact .ok

theorem Blames.required (o : Option α) : Blames P (Fields.required name o) := by
  cases o
  · exact .missingField name
  · exact .ok

theorem Blames.readText (v : Value) : Blames P v.readText := by
  cases v <;> first | exact .ok | exact .wrongValue

theorem Blames.readOptionalText (v : Value) : Blames P v.readOptionalText := by
  cases v <;> first | exact .ok | exact (Blames.readText _).bind fun _ _ => .ok

theorem Blames.readText? : Blames P (fields.readText? name) := by
  unfold Fields.readText?
  split
  · exact .readOptionalText _
  · exact .ok

theorem Blames.readBool (v : Value) : Blames P v.readBool := by
  cases v <;> first | exact .ok | exact .wrongValue

theorem Blames.readFloat (v : Value) : Blames P v.readFloat := by
  cases v <;> first | exact .ok | exact .wrongValue

theorem Blames.readObject (v : Value) : Blames P v.readObject := by
  cases v <;> first | exact .ok | exact .wrongValue

theorem Blames.readInt (low high : ℤ) (v : Value) : Blames P (v.readInt low high) := by
  unfold Value.readInt
  split
  · split
    · exact .ok
    · exact .wrongValue
  · exact .wrongValue

theorem Blames.readNat (bits : ℕ) (v : Value) : Blames P (v.readNat bits) :=
  (Blames.readInt _ _ v).bind fun _ _ => .ok

theorem Blames.region (v : Value) : Blames P (Region.ofValue v) := by
  unfold Region.ofValue
  split
  · refine (Blames.mapM (fun v => Blames.readInt _ _ v) _).bind fun edges _ => ?_
    split
    · exact .ok
    · exact .wrongValue
  · exact .wrongValue

end ReadError

open ReadError (Blames)

/-- What a condition asks, or how it compares, is spelled with a name. -/
def Value.AsksFor (v : Value) (s : String) : Prop :=
  v.get? "condition_type" = some (.string s) ∨ v.get? "operator" = some (.string s) ∨
    ∃ w, v.get? "operator" = some (.object [(s, w)])

theorem CompareOperator.blames_ofValue (v : Value) :
    Blames (fun s => v = .string s ∨ ∃ w, v = .object [(s, w)]) (ofValue v) := by
  unfold ofValue
  -- an operator is written as a text, or as an object with one field
  split
  · split
    · exact .ok
    · rintro _ s h_e h_s
      cases h_e
      cases h_s
      exact .inl rfl
  · split
    · split
      · exact .ok
      · exact .wrongValue
    · rintro _ s h_e h_s
      cases h_e
      cases h_s
      exact .inr ⟨_, rfl⟩
  · exact .wrongValue

theorem Check.Kind.blames_ofValue (v : Value) : Blames (fun s => v = .string s) (ofValue v) := by
  unfold ofValue
  split
  · exact .ok
  · exact .ok
  · rintro _ s h_e h_s
    cases h_e
    cases h_s
    rfl
  · exact .ok
  · exact .ok
  · exact .wrongValue

theorem Check.blames_ofFields (fields : Fields Value) : Blames (Value.object fields).AsksFor (ofFields fields) := by
  -- a name of no kind is blamed on the field it stands in, and so is one of no operator
  have h_kind (v : Value) (h_v : fields.get? "condition_type" = some v) :
      Blames (Value.object fields).AsksFor (Kind.ofValue v) :=
    (Kind.blames_ofValue v).mono fun s h_s => .inl (h_s ▸ h_v)
  have h_op (v : Value) (h_v : fields.get? "operator" = some v) :
      Blames (Value.object fields).AsksFor (CompareOperator.ofValue v) :=
    (CompareOperator.blames_ofValue v).mono fun s h_s => by
      rcases h_s with rfl | ⟨w, rfl⟩
      · exact .inr (.inl h_v)
      · exact .inr (.inr ⟨w, h_v⟩)
  refine (Blames.read? h_kind).bind fun _ _ => (Blames.required _).bind fun kind _ => ?_
  cases kind with
  | templateMatch =>
    refine Blames.readText?.bind fun _ _ => (Blames.read? fun v _ => .readText v).bind fun _ _ => ?_
    exact (Blames.read? fun v _ => .readFloat v).bind fun _ _ => (Blames.required _).bind fun _ _ => .ok
  | variableCompare =>
    refine (Blames.read? h_op).bind fun _ _ => (Blames.read? fun v _ => .readText v).bind fun _ _ => ?_
    exact (Blames.required _).bind fun _ _ => .ok

namespace Action

/-- Only a condition, or an action in a sequence, can hold a name that nobody knows. -/
theorem blames_ofFields {P : String → Prop} {fields : Fields Value} {sequences : Sequences} (kind : KnownKind)
    (h : kind = .condition → ∀ s, (Value.object fields).AsksFor s → P s)
    (h_sequences : ∀ n ∈ sequenceNames kind.name, Blames P (sequence sequences n)) :
    Blames P (ofFields fields sequences kind) := by
  cases kind with
  | call =>
    refine (Blames.read? fun v _ => .readText v).bind fun _ _ => ?_
    refine (Blames.read? fun v _ => .readText v).bind fun _ _ => ?_
    refine Blames.readText?.bind fun _ _ => (Blames.read? fun v _ => .readObject v).bind fun _ _ => ?_
    split
    · exact .duplicateField "capability"
    refine (Blames.read? fun v _ => .readText v).bind fun _ _ => Blames.readText?.bind fun _ _ => ?_
    exact (Blames.required _).bind fun _ _ => (Blames.required _).bind fun _ _ => .ok
  -- the only kind that asks for names itself; its fields are read in this order
  | condition =>
    refine (Blames.read? fun v _ => .readBool v).bind fun _ _ => Blames.readText?.bind fun _ _ => ?_
    refine (h_sequences "on_false" (by decide)).bind fun _ _ => (h_sequences "on_true" (by decide)).bind fun _ _ => ?_
    exact ((Check.blames_ofFields fields).mono (h rfl)).bind fun _ _ => .ok
  | loop =>
    refine (h_sequences "actions" (by decide)).bind fun _ _ => Blames.readText?.bind fun _ _ => ?_
    refine (Blames.read? fun v _ => .readFloat v).bind fun _ _ => ?_
    exact (Blames.read? fun v _ => .readNat 64 v).bind fun _ _ => .ok
  | templateMatch =>
    refine Blames.readText?.bind fun _ _ => Blames.readText?.bind fun _ _ => Blames.readText?.bind fun _ _ => ?_
    exact Blames.readText?.bind fun _ _ => (Blames.read? fun v _ => .readFloat v).bind fun _ _ => .ok
  | readText =>
    refine Blames.readText?.bind fun _ _ => Blames.readText?.bind fun _ _ => ?_
    split
    · exact Blames.ok.bind fun _ _ => Blames.readText?.bind fun _ _ => .ok
    · exact Blames.ok.bind fun _ _ => Blames.readText?.bind fun _ _ => .ok
    · refine (Blames.region _).bind fun _ _ => Blames.ok.bind fun _ _ => ?_
      exact Blames.readText?.bind fun _ _ => .ok
  | wait => exact Blames.readText?.bind fun _ _ => (Blames.read? fun v _ => .readFloat v).bind fun _ _ => .ok
  | setVariable =>
    refine Blames.readText?.bind fun _ _ => (Blames.read? fun v _ => .readText v).bind fun _ _ => ?_
    exact (Blames.required _).bind fun _ _ => .ok
  | restart => exact Blames.readText?.bind fun _ _ => .ok

theorem blames_ofObject {P : String → Prop} {fields : Fields Value} {sequences : Sequences}
    (h : ∀ name kind, (fields.get? "type").bind Value.text? = some name → KnownKind.ofName? name = some kind →
      Blames P (ofFields fields sequences kind)) : Blames P (ofObject fields sequences) := by
  rw [ofObject_eq]
  split
  · exact .missingField "type"
  · next name h_name =>
    split
    · exact .ok
    · next kind h_kind =>
      split
      · exact .ok
      · next e h_e =>
        -- the name of the action stands in front of the fault, whatever this is
        rintro _ s h_error h_s
        cases h_error
        exact h name kind h_name h_kind e s h_e h_s

end Action

/-- A condition at one of these places asks, or compares, by a name. -/
def Value.SomeAskFor (places : List Value) (s : String) : Prop :=
  ∃ w ∈ places, w.actionName? = some "condition" ∧ w.AsksFor s

namespace Action

mutual

/-- **A name that nobody knows is never that of an action**: it is what a condition at some place asks for. -/
theorem blames_ofValue (v : Value) : Blames (Value.SomeAskFor v.places) (ofValue v) := by
  match v with
  | .object fields =>
    refine blames_ofObject fun name kind h_name h_kind => blames_ofFields kind (fun h_condition s h_s => ?_) ?_
    · -- a condition at the top is the first place of the value
      subst h_condition
      have h_eq : name = "condition" := by
        unfold KnownKind.ofName? at h_kind
        split at h_kind <;> first | rfl | cases h_kind
      refine ⟨.object fields, ?_, h_eq ▸ h_name, h_s⟩
      exact Value.places_object h_name ▸ List.mem_cons_self
    · intro n h_n
      rw [← sequenceNames_of_ofName? h_kind] at h_n
      rw [sequence_sequencesOfFields, Value.places_object h_name]
      cases h_v : Fields.get? fields n with
      | none => exact .ok
      | some w =>
        -- what is asked for below is asked for at one of the further places
        refine (blames_placesOfFields fields n w h_v).mono fun s ⟨u, h_u, h_s⟩ => ⟨u, ?_, h_s⟩
        refine List.mem_cons_of_mem _ (List.mem_flatMap.mpr ⟨n, h_n, ?_⟩)
        rwa [h_v]
  | .null | .bool _ | .number _ | .string _ | .array _ => exact .missingField "type"

theorem blames_placesOfFields (fields : List (String × Value)) (n : String) (v : Value)
    (h_get : Fields.get? fields n = some v) : Blames (Value.SomeAskFor v.placesOfSequence) (listOfValue v) := by
  match fields with
  | [] => cases h_get
  | (n', v') :: rest =>
    rw [Fields.get?] at h_get
    split at h_get
    · exact Option.some.inj h_get ▸ blames_placesOfSequence v'
    · exact blames_placesOfFields rest n v h_get

theorem blames_placesOfSequence (v : Value) : Blames (Value.SomeAskFor v.placesOfSequence) (listOfValue v) := by
  match v with
  | .array items => exact blames_placesOfItems items
  | .null | .bool _ | .number _ | .string _ | .object _ => exact .wrongValue

theorem blames_placesOfItems (items : List Value) :
    Blames (Value.SomeAskFor (Value.placesOfItems items)) (listOfItems items) := by
  match items with
  | [] => exact .ok
  | v :: rest =>
    have h_first : Blames (Value.SomeAskFor (v.places ++ Value.placesOfItems rest)) (ofValue v) :=
      (blames_ofValue v).mono fun _ ⟨w, h_w, h_s⟩ => ⟨w, List.mem_append_left _ h_w, h_s⟩
    have h_rest : Blames (Value.SomeAskFor (v.places ++ Value.placesOfItems rest)) (listOfItems rest) :=
      (blames_placesOfItems rest).mono fun _ ⟨w, h_w, h_s⟩ => ⟨w, List.mem_append_right _ h_w, h_s⟩
    exact h_first.bind fun _ _ => h_rest.bind fun _ _ => .ok

end

end Action

/-! ### The canonical spelling is well formed -/

namespace Value

theorem WellFormed.insert {fields : Fields Value} (h : (Value.object fields).WellFormed) {v : Value}
    (h_v : v.WellFormed) (name : String) : (Value.object (fields.insert name v)).WellFormed := by
  obtain - | - | - | - | - | ⟨_, h_sorted, h_fields⟩ := h
  refine .object _ (h_sorted.insert name v) fun f h_f => ?_
  rcases Fields.mem_insert h_f with rfl | h_f
  · exact h_v
  · exact h_fields f h_f

theorem WellFormed.erase {fields : Fields Value} (h : (Value.object fields).WellFormed) (name : String) :
    (Value.object (fields.erase name)).WellFormed := by
  obtain - | - | - | - | - | ⟨_, h_sorted, h_fields⟩ := h
  exact .object _ (List.Pairwise.filter _ h_sorted) fun f h_f => h_fields f (List.mem_of_mem_filter h_f)

theorem WellFormed.respell {fields : Fields Value} (h : (Value.object fields).WellFormed) (name : String) :
    (Value.object (Action.respell name fields)).WellFormed := by
  have h_insert := h.insert (.string (Action.canonicalName name)) "type"
  unfold Action.respell Action.renamePlugin
  split
  · split
    · next v h_v => exact (h_insert.erase "plugin").insert (h_insert.of_mem (Fields.mem_of_get? h_v)) "capability"
    · exact h_insert
  · exact h_insert

theorem canonicalItems_eq_map (items : List Value) : canonicalItems items = items.map canonical := by
  induction items with
  | nil => rfl
  | cons v rest ih => rw [canonicalItems, ih, List.map_cons]

/-- The canonical spelling of a value is as well formed as the value, and so is that of a sequence. -/
theorem WellFormed.canonical_and_sequence {v : Value} (h : v.WellFormed) :
    v.canonical.WellFormed ∧ v.canonicalSequence.WellFormed := by
  induction h with
  | null => exact ⟨.null, .null⟩
  | bool b => exact ⟨.bool b, .bool b⟩
  | number n h_n => exact ⟨.number n h_n, .number n h_n⟩
  | string s => exact ⟨.string s, .string s⟩
  | array items h_items ih =>
    refine ⟨.array items h_items, .array _ fun w h_w => ?_⟩
    rw [canonicalItems_eq_map] at h_w
    obtain ⟨v, h_v, rfl⟩ := List.mem_map.mp h_w
    exact (ih v h_v).1
  | object fields h_sorted h_fields ih =>
    have h_self : (Value.object fields).WellFormed := .object fields h_sorted h_fields
    refine ⟨?_, h_self⟩
    unfold canonical
    split
    · -- the names are changed afterwards, so that here they are in order still
      refine WellFormed.respell (.object _ ?_ fun f h_f => ?_) _
      · exact canonicalFields_eq_map _ fields ▸ h_sorted.map _
      · rw [canonicalFields_eq_map] at h_f
        obtain ⟨e, h_e, rfl⟩ := List.mem_map.mp h_f
        dsimp only
        split
        · exact (ih e h_e).2
        · exact h_fields e h_e
    · exact h_self

end Value

/-! ### Documents of both spellings -/

/-- **Older spellings mean the same.** The canonical spelling of a value is a value of documents as well, and if no
call in it names its capability twice, both are read as the same tree or neither is read. The actions of a tree are
those that the places of the value stand for, and a name that nobody knows is never the name of one of them. -/
theorem older_spellings_mean_the_same (v : Value) :
    (v.WellFormed → v.canonical.WellFormed) ∧
      ((∀ w ∈ v.places, w.SpellsOnce) → ∀ a, Action.ofValue v.canonical = .ok a ↔ Action.ofValue v = .ok a) ∧
      (∀ a, Action.ofValue v = .ok a → List.Forall₂ Value.StandsFor v.places a.walk) ∧
      ∀ e s, Action.ofValue v = .error e → e.root = .unknownVariant s → Value.SomeAskFor v.places s := by
  refine ⟨fun h => h.canonical_and_sequence.1, fun h a => ?_, fun a => Action.forall₂_places_walk v,
    Action.blames_ofValue v⟩
  rw [← Except.toOption_eq_some_iff, ← Except.toOption_eq_some_iff, Action.toOption_ofValue_canonical v h]

/-- A loop under its older name around a call under its older name, with parameters that look like an action. -/
def olderDocument : Value :=
  .object [("actions", .array [.object [("action", .string "run"),
      ("params", .object [("plugin", .string "p"), ("type", .string "ocr_text")]), ("plugin", .string "shell"),
      ("type", .string "plugin_action")]]),
    ("max_iterations", .nat 1), ("type", .string "polling_loop")]

/-- The parameters stay as they are. -/
theorem older_document_means_the_same :
    olderDocument.canonical = .object [("actions", .array [.object [("action", .string "run"),
        ("capability", .string "shell"), ("params", .object [("plugin", .string "p"), ("type", .string "ocr_text")]),
        ("type", .string "plugin_call")]]),
      ("max_iterations", .nat 1), ("type", .string "loop")] ∧
    Action.ofValue olderDocument.canonical = .ok (.loop Finite64.one 1 [.call ⟨"shell", "run",
      [("plugin", .string "p"), ("type", .string "ocr_text")], none⟩ none] none) := by
  have h_once : ∀ w ∈ olderDocument.places, w.SpellsOnce := by decide
  exact ⟨rfl, ((older_spellings_mean_the_same olderDocument).2.1 h_once _).mpr rfl⟩

end ScriptYard
