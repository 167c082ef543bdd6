import ScriptYard.Proofs.Run.Independence
import ScriptYard.Proofs.Value.Fields

/-!
# Resolution as a substitution

Resolution replaces the strings `$name` of a value and nothing else. Where a value has an item or a field, the
resolved value has the resolved item or field (`Variables.at?_resolve`), so that what is said of a value at the
end of a path is said of it at any depth.

The pass is single: a bound value is put in as it stands. Resolving once more therefore changes nothing exactly
if it changes no bound value (`Variables.Settled`, `Variables.resolve_idempotent_iff`). That is so if the variables
are `Variables.Closed`, which means that no bound value refers to a bound name: a value is the same after its
resolution if it refers to no bound name (`Variables.resolve_eq_self`), and with closed variables a resolved
value never does (`Variables.unbound_of_mem_references_resolve`).
-/

namespace ScriptYard

/-- A step from a value to one that lies in it. -/
inductive PathStep where
  /-- To the item of an array at an index. -/
  | item (index : ℕ)
  /-- To the field of an object under a name. -/
  | field (name : String)
deriving DecidableEq, Repr

namespace Value

/-- The value that one step leads to. -/
def child? : Value → PathStep → Option Value
  | .array items, .item i => items[i]?
  | .object fields, .field name => Fields.get? fields name
  | _, _ => none

/-- The value at the end of a path. -/
def at? (v : Value) : List PathStep → Option Value
  | [] => some v
  | step :: path => (v.child? step).bind (·.at? path)

end Value

namespace Variables

/-- No bound value refers to a bound name, at any depth. -/
def Closed (vars : Variables) : Prop :=
  ∀ name bound, Fields.get? vars name = some bound → ∀ other ∈ bound.references, Fields.get? vars other = none

variable {vars : Variables}

/-! ### Item by item and field by field -/

theorem resolveItems_eq_map (vars : Variables) (items : List Value) :
    resolveItems vars items = items.map (resolve vars) := by
  induction items with
  | nil => rfl
  | cons v rest ih => rw [resolveItems, List.map_cons, ih]

theorem resolveFields_eq_map (vars : Variables) (fields : List (String × Value)) :
    resolveFields vars fields = fields.map fun f => (f.1, resolve vars f.2) := by
  induction fields with
  | nil => rfl
  | cons f rest ih => rw [resolveFields, List.map_cons, ih]

theorem child?_resolve {v u : Value} {step : PathStep} (h : v.child? step = some u) :
    (resolve vars v).child? step = some (resolve vars u) := by
  cases v with
  | array items =>
    cases step with
    -- a place that is there in the value is there in what it resolves to
    | item i =>
      have h_item : items[i]? = some u := h
      rw [resolve, resolveItems_eq_map, Value.child?, List.getElem?_map, h_item]
      rfl
    | field name => cases h
  | object fields =>
    cases step with
    | item i => cases h
    | field name =>
      have h_field : Fields.get? fields name = some u := h
      rw [resolve, resolveFields_eq_map, Value.child?, Fields.get?_map fields fun f => resolve vars f.2, h_field]
      rfl
  | null | bool _ | number _ | string _ => cases h

/-- **Resolution goes place by place.** -/
theorem at?_resolve {v u : Value} {path : List PathStep} (h : v.at? path = some u) :
    (resolve vars v).at? path = some (resolve vars u) := by
  induction path generalizing v with
  | nil =>
    cases h
    rfl
  | cons step path ih =>
    obtain ⟨w, h_step, h_path⟩ := Option.bind_eq_some_iff.mp h
    rw [Value.at?, child?_resolve h_step, Option.bind_some]
    exact ih h_path

/-! ### Values without references -/

theorem resolveText_eq_self {text : String} (h : ∀ name ∈ reference? text, Fields.get? vars name = none) :
    resolveText vars text = .string text := by
  unfold resolveText
  cases h_name : reference? text with
  | none => rfl
  | some name => rw [Option.bind_some, h name h_name]

mutual

/-- A value that refers to no bound name stays as it is. -/
theorem resolve_eq_self (v : Value) (h : ∀ name ∈ v.references, Fields.get? vars name = none) :
    resolve vars v = v := by
  match v with
  | .string s => exact resolveText_eq_self fun name h_name => h name (Option.mem_toList.mpr h_name)
  | .array items => exact congrArg Value.array (resolveItems_eq_self items h)
  | .object fields => exact congrArg Value.object (resolveFields_eq_self fields h)
  | .null | .bool _ | .number _ => rfl

theorem resolveItems_eq_self (items : List Value)
    (h : ∀ name ∈ Value.referencesOfItems items, Fields.get? vars name = none) : resolveItems vars items = items := by
  match items with
  | [] => rfl
  | v :: rest =>
    rw [resolveItems, resolve_eq_self v fun name h_name => h name (List.mem_append_left _ h_name),
      resolveItems_eq_self rest fun name h_name => h name (List.mem_append_right _ h_name)]

theorem resolveFields_eq_self (fields : List (String × Value))
    (h : ∀ name ∈ Value.referencesOfFields fields, Fields.get? vars name = none) :
    resolveFields vars fields = fields := by
  match fields with
  | [] => rfl
  | (n, v) :: rest =>
    rw [resolveFields, resolve_eq_self v fun name h_name => h name (List.mem_append_left _ h_name),
      resolveFields_eq_self rest fun name h_name => h name (List.mem_append_right _ h_name)]

end

/-! ### Closed variables -/

mutual

/-- What a resolved value still refers to is not bound, if bound values refer to nothing that is. -/
theorem unbound_of_mem_references_resolve (h : vars.Closed) (v : Value) :
    ∀ name ∈ (resolve vars v).references, Fields.get? vars name = none := by
  match v with
  | .string s =>
    intro name h_name
    rw [resolve, resolveText] at h_name
    split at h_name
    · next bound h_bound =>
      obtain ⟨n, -, h_n⟩ := Option.bind_eq_some_iff.mp h_bound
      exact h n bound h_n name h_name
    · next h_unbound =>
      -- the string itself is the reference
      rw [Option.mem_toList.mp h_name, Option.bind_some] at h_unbound
      exact h_unbound
  | .array items => exact unbound_of_mem_references_resolveItems h items
  | .object fields => exact unbound_of_mem_references_resolveFields h fields
  | .null | .bool _ | .number _ => exact fun _ h_name => absurd h_name List.not_mem_nil

theorem unbound_of_mem_references_resolveItems (h : vars.Closed) (items : List Value) :
    ∀ name ∈ Value.referencesOfItems (resolveItems vars items), Fields.get? vars name = none := by
  match items with
  | [] => exact fun _ h_name => absurd h_name List.not_mem_nil
  | v :: rest =>
    exact List.forall_mem_append.mpr
      ⟨unbound_of_mem_references_resolve h v, unbound_of_mem_references_resolveItems h rest⟩

theorem unbound_of_mem_references_resolveFields (h : vars.Closed) (fields : List (String × Value)) :
    ∀ name ∈ Value.referencesOfFields (resolveFields vars fields), Fields.get? vars name = none := by
  match fields with
  | [] => exact fun _ h_name => absurd h_name List.not_mem_nil
  | (_, v) :: rest =>
    exact List.forall_mem_append.mpr
      ⟨unbound_of_mem_references_resolve h v, unbound_of_mem_references_resolveFields h rest⟩

end

/-! ### Once more -/

theorem reference?_of_ne {name : String} (h : name ≠ "") : reference? ("$" ++ name) = some name := by
  unfold reference?
  rw [String.toList_append]
  cases h_chars : name.toList with
  | nil => exact absurd (String.toList_eq_nil_iff.mp h_chars) h
  | cons c rest =>
    change some (String.ofList (c :: rest)) = some name
    rw [← h_chars, String.ofList_toList]

theorem ne_of_reference? {text name : String} (h : reference? text = some name) : name ≠ "" := by
  unfold reference? at h
  split at h
  · cases h
    simp
  · cases h

/-- Resolution changes no value that is bound to a name that a string can refer to. -/
def Settled (vars : Variables) : Prop :=
  ∀ name bound, name ≠ "" → Fields.get? vars name = some bound → resolve vars bound = bound

mutual

theorem resolve_resolve (h : vars.Settled) (v : Value) : resolve vars (resolve vars v) = resolve vars v := by
  match v with
  | .string s =>
    rw [resolve]
    cases h_bound : (reference? s).bind (Fields.get? vars) with
    -- what a name is bound to is settled itself
    | some bound =>
      obtain ⟨name, h_name, h_get⟩ := Option.bind_eq_some_iff.mp h_bound
      rw [resolveText, h_bound]
      exact h name bound (ne_of_reference? h_name) h_get
    -- a text that is no bound reference stays, and is none the second time
    | none =>
      have h_text : resolveText vars s = .string s := by rw [resolveText, h_bound]
      rw [h_text, resolve, h_text]
  | .array items => exact congrArg Value.array (resolveItems_resolveItems h items)
  | .object fields => exact congrArg Value.object (resolveFields_resolveFields h fields)
  | .null | .bool _ | .number _ => rfl

theorem resolveItems_resolveItems (h : vars.Settled) (items : List Value) :
    resolveItems vars (resolveItems vars items) = resolveItems vars items := by
  match items with
  | [] => rfl
  | v :: rest => rw [resolveItems, resolveItems, resolve_resolve h v, resolveItems_resolveItems h rest]

theorem resolveFields_resolveFields (h : vars.Settled) (fields : List (String × Value)) :
    resolveFields vars (resolveFields vars fields) = resolveFields vars fields := by
  match fields with
  | [] => rfl
  | (n, v) :: rest => rw [resolveFields, resolveFields, resolve_resolve h v, resolveFields_resolveFields h rest]

end

/-- **Resolution is idempotent exactly where it changes no bound value.** -/
theorem resolve_idempotent_iff : (∀ v, resolve vars (resolve vars v) = resolve vars v) ↔ vars.Settled := by
  refine ⟨fun h name bound h_name h_get => ?_, fun h => resolve_resolve h⟩
  have h_put : resolve vars (.string ("$" ++ name)) = bound := by
    rw [resolve, resolveText, reference?_of_ne h_name, Option.bind_some, h_get]
  have h_twice := h (.string ("$" ++ name))
  rwa [h_put] at h_twice

/-- Closed variables are settled, but settled ones need not be closed: a variable may hold its own reference. -/
theorem Closed.settled (h : vars.Closed) : vars.Settled :=
  fun name bound _ h_get => resolve_eq_self bound (h name bound h_get)

/-- **Resolution is one substitution of bound values for references.** If no bound value refers to a bound name, then
resolving once more changes nothing, a resolved value refers to no bound name, and a value is changed exactly if it
refers to one. Whatever is bound, at every place of every value

* what stands there is replaced by what it resolves to by itself;
* a string stays that is no reference or refers to an unbound name;
* an array keeps its length;
* an object keeps its names in their order, and `Variables.resolveFields` says what is under them. -/
theorem resolution_is_substitution (vars : Variables) :
    (vars.Closed → ∀ v,
      resolve vars (resolve vars v) = resolve vars v ∧
      (∀ name ∈ (resolve vars v).references, Fields.get? vars name = none) ∧
      (resolve vars v = v ↔ ∀ name ∈ v.references, Fields.get? vars name = none)) ∧
    ∀ v path u, v.at? path = some u →
      (resolve vars v).at? path = some (resolve vars u) ∧
      (∀ s, u = .string s → (∀ name ∈ reference? s, Fields.get? vars name = none) → resolve vars u = u) ∧
      (∀ items, u = .array items →
        ∃ items', resolve vars u = .array items' ∧ items'.length = items.length) ∧
      ∀ fields, u = .object fields →
        resolve vars u = .object (resolveFields vars fields) ∧
        (resolveFields vars fields).map (·.1) = fields.map (·.1) ∧
        ∀ name, Fields.get? (resolveFields vars fields) name = (Fields.get? fields name).map (resolve vars) := by
  refine ⟨fun h v => ⟨?_, unbound_of_mem_references_resolve h v, fun h_same => ?_, resolve_eq_self v⟩,
    fun v path u h_u => ⟨at?_resolve h_u, ?_, ?_, ?_⟩⟩
  · exact resolve_resolve h.settled v
  · -- nothing bound is left after the resolution; if the value is the same, nothing was in it before
    have h_unbound := unbound_of_mem_references_resolve h v
    rwa [h_same] at h_unbound
  · rintro s rfl h_s
    exact resolveText_eq_self h_s
  · rintro items rfl
    exact ⟨resolveItems vars items, rfl, by rw [resolveItems_eq_map, List.length_map]⟩
  · rintro fields rfl
    refine ⟨rfl, ?_, fun name => ?_⟩
    · rw [resolveFields_eq_map, List.map_map]
      rfl
    · rw [resolveFields_eq_map]
      exact Fields.get?_map fields (fun f => resolve vars f.2) name

/-- Variables of which one holds an object with a reference to an unbound name. -/
def townVars : Variables :=
  [("hero", .object [("home", .string "$town")]), ("x", .nat 120)]

/-- With them a value with a reference under a name that looks like one itself is settled after one resolution. -/
theorem town_is_resolved_once :
    let v : Value := .object [("$x", .string "$x"), ("who", .array [.string "$hero", .string "$", .string "price: $x"])]
    townVars.Closed ∧ resolve townVars v = .object [("$x", .nat 120),
        ("who", .array [.object [("home", .string "$town")], .string "$", .string "price: $x"])] ∧
      resolve townVars (resolve townVars v) = resolve townVars v ∧
      (resolve townVars v).at? [.field "who", .item 2] = some (.string "price: $x") := by
  intro v
  have h_closed : townVars.Closed := by
    -- two names are bound, and only the first value has a reference in it
    intro name bound h_bound other h_other
    simp only [townVars, Fields.get?_cons, Fields.get?_nil] at h_bound
    split at h_bound
    · cases h_bound
      obtain rfl : other = "town" := by simpa [Value.references, Value.referencesOfFields, reference?] using h_other
      rfl
    · split at h_bound
      · cases h_bound
        exact absurd h_other List.not_mem_nil
      · cases h_bound
  have h_resolution := resolution_is_substitution townVars
  have h_price : v.at? [.field "who", .item 2] = some (.string "price: $x") := by decide
  exact ⟨h_closed, by decide, (h_resolution.1 h_closed v).1, (h_resolution.2 v _ _ h_price).1⟩

/-- Where a bound value refers to a bound name, the second resolution goes on where the first one stopped. -/
example : resolve [("a", .string "$b"), ("b", .nat 1)] (.string "$a") = .string "$b" ∧
    resolve [("a", .string "$b"), ("b", .nat 1)] (.string "$b") = .nat 1 := by decide

end Variables

end ScriptYard
