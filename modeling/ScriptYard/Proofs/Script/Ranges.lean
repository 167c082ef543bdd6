import Mathlib.Data.Nat.Notation
import ScriptYard.Proofs.Value.Fields
import ScriptYard.Script.ActionDocument

/-!
# The numbers of a script are in range

An action is `Action.InRange` if its integers are of the width that documents have for them and its values are
well formed. Every action of a tree that was read from a well-formed value is (`Action.inRange_of_ofValue`):
a reading that succeeds has read each of its parts from a value under a name (`Fields.exists_of_read?`), and the
sequences inside from the arrays under theirs (`Action.Described`).
-/

namespace ScriptYard

/-- The integers are of 64 bits. -/
structure Region.InRange (r : Region) : Prop where
  /-- The left edge is. -/
  x : -(twoTo 63) ≤ r.x ∧ r.x < twoTo 63
  /-- The upper edge is. -/
  y : -(twoTo 63) ≤ r.y ∧ r.y < twoTo 63
  width : -(twoTo 63) ≤ r.width ∧ r.width < twoTo 63
  height : -(twoTo 63) ≤ r.height ∧ r.height < twoTo 63

/-- The value that is compared with is well formed. -/
def Check.InRange : Check → Prop
  | .templateMatch .. => True
  | .variableCompare _ _ value => value.WellFormed

/-- The integers of the action are of 64 bits, and its values are well formed. -/
def Action.InRange : Action → Prop
  | .call c _ => (Value.object c.params).WellFormed
  | .condition check .. => check.InRange
  | .loop _ n _ _ => n < twoTo 64
  | .readText t _ => ∀ r ∈ t.region, r.InRange
  | .setVariable _ value _ => value.WellFormed
  | .templateMatch .. | .wait .. | .restart _ | .unsupported _ => True

/-! ### Readings that succeed -/

theorem Except.bind_eq_ok_iff {ε α β : Type} {x : Except ε α} {f : α → Except ε β} {b : β} :
    x >>= f = .ok b ↔ ∃ a, x = .ok a ∧ f a = .ok b := by
  cases x with
  | error e => exact ⟨nofun, nofun⟩
  | ok a => exact ⟨fun h => ⟨a, rfl, h⟩, fun ⟨_, h_a, h⟩ => Except.ok.inj h_a ▸ h⟩

/-- What all results of readings have in common, all items of a list have that is read item by item. -/
theorem Except.forall_of_mapM {ε α β : Type} {f : α → Except ε β} {P : β → Prop}
    (h : ∀ a b, f a = .ok b → P b) {as : List α} {bs : List β} (h_map : as.mapM f = .ok bs) : ∀ b ∈ bs, P b := by
  induction as generalizing bs with
  | nil =>
    cases h_map
    exact fun b h_b => absurd h_b List.not_mem_nil
  | cons a rest ih =>
    rw [List.mapM_cons] at h_map
    obtain ⟨b, h_b, h_map⟩ := Except.bind_eq_ok_iff.mp h_map
    obtain ⟨others, h_others, h_eq⟩ := Except.bind_eq_ok_iff.mp h_map
    cases h_eq
    exact List.forall_mem_cons.mpr ⟨h a b h_b, ih h_others⟩

/-- What is read under a name is read from the value that stands there. -/
theorem Fields.exists_of_read? {fields : Fields Value} {name : String} {α : Type} {read : Value → Except ReadError α}
    {a : α} (h : fields.read? name read = .ok (some a)) : ∃ v, (name, v) ∈ fields ∧ read v = .ok a := by
  unfold read? at h
  split at h
  · next v h_get =>
    obtain ⟨a', h_read, h_eq⟩ := Except.bind_eq_ok_iff.mp h
    cases h_eq
    exact ⟨v, mem_of_get? h_get, h_read⟩
  · cases h

theorem Value.WellFormed.of_mem {fields : Fields Value} (h : (Value.object fields).WellFormed) {name : String}
    {v : Value} (h_mem : (name, v) ∈ fields) : v.WellFormed := by
  obtain - | - | - | - | - | ⟨_, -, h_fields⟩ := h
  exact h_fields _ h_mem

/-- The value under a name, or null where there is none. -/
theorem Value.WellFormed.getD_get? {fields : Fields Value} (h : (Value.object fields).WellFormed) (name : String) :
    ((fields.get? name).getD .null).WellFormed := by
  cases h_get : fields.get? name with
  | none => exact .null
  | some v => exact h.of_mem (Fields.mem_of_get? h_get)

theorem Value.mem_range_of_readInt {low high i : ℤ} {v : Value} (h : v.readInt low high = .ok i) :
    low ≤ i ∧ i ≤ high := by
  unfold readInt at h
  split at h
  · split at h
    · next h_in =>
      cases h
      simpa using h_in
    · cases h
  · cases h

theorem Value.lt_of_readNat {bits n : ℕ} {v : Value} (h : v.readNat bits = .ok n) : n < twoTo bits := by
  obtain ⟨i, h_int, h_eq⟩ := Except.bind_eq_ok_iff.mp h
  have h_range := Value.mem_range_of_readInt h_int
  cases h_eq
  omega

theorem Value.mem_range_of_readInt64 {i : ℤ} {v : Value} (h : v.readInt64 = .ok i) :
    -(twoTo 63) ≤ i ∧ i < twoTo 63 := by
  have h_range := Value.mem_range_of_readInt h
  omega

theorem Value.eq_object_of_readObject {fields : Fields Value} {v : Value} (h : v.readObject = .ok fields) :
    v = .object fields := by
  cases v with
  | object content => exact congrArg Value.object (Except.ok.inj h)
  | null | bool _ | number _ | string _ | array _ => cases h

/-! ### Actions that were read -/

theorem Region.inRange_of_ofValue {r : Region} {v : Value} (h : ofValue v = .ok r) : r.InRange := by
  unfold ofValue at h
  split at h
  · next items =>
    obtain ⟨edges, h_edges, h⟩ := Except.bind_eq_ok_iff.mp h
    have h_all := Except.forall_of_mapM (fun _ _ => Value.mem_range_of_readInt64) h_edges
    split at h
    · cases h
      simp only [List.forall_mem_cons] at h_all
      exact ⟨h_all.1, h_all.2.1, h_all.2.2.1, h_all.2.2.2.1⟩
    · cases h
  · cases h

theorem Check.inRange_of_ofFields {fields : Fields Value} {check : Check} (h : (Value.object fields).WellFormed)
    (h_read : ofFields fields = .ok check) : check.InRange := by
  simp only [ofFields, Except.bind_eq_ok_iff] at h_read
  obtain ⟨_, _, kind, _, h_read⟩ := h_read
  cases kind with
  | templateMatch =>
    simp only [Except.bind_eq_ok_iff] at h_read
    obtain ⟨_, _, _, _, _, _, _, _, h_eq⟩ := h_read
    cases h_eq
    trivial
  | variableCompare =>
    simp only [Except.bind_eq_ok_iff] at h_read
    obtain ⟨_, _, _, _, _, _, h_eq⟩ := h_read
    cases h_eq
    -- the value of the comparison is the only part that has a range
    exact h.getD_get? "value"

namespace Action

/-- A sequence that is read is empty, or it was read under its name. -/
theorem sequence_cases {sequences : Sequences} {name : String} {actions : List Action}
    (h : sequence sequences name = .ok actions) : actions = [] ∨ ∃ s ∈ sequences, s.2 = .ok actions := by
  unfold sequence at h
  split at h
  · next s h_find => exact .inr ⟨s, List.mem_of_find?_eq_some h_find, h⟩
  · cases h
    exact .inl rfl

/-- An action of a known kind as the fields of an object and its sequences describe it: which parts are read from which
names, so far as they are checks, sequences, numbers of limited width, or values. -/
inductive Described (fields : Fields Value) (sequences : Sequences) : KnownKind → Action → Prop where
  | call (c : CapabilityCall) (description : Option String)
    (h_params : c.params = [] ∨ ("params", .object c.params) ∈ fields) :
    Described fields sequences .call (.call c description)
  | condition (check : Check) (onTrue onFalse : List Action) (breakOnTrue : Bool) (description : Option String)
    (h_check : Check.ofFields fields = .ok check) (h_true : sequence sequences "on_true" = .ok onTrue)
    (h_false : sequence sequences "on_false" = .ok onFalse) :
    Described fields sequences .condition (.condition check onTrue onFalse breakOnTrue description)
  | loop (interval : Finite64) (most : ℕ) (body : List Action) (description : Option String)
    (h_body : sequence sequences "actions" = .ok body) (h_most : most < twoTo 64) :
    Described fields sequences .loop (.loop interval most body description)
  | templateMatch (search : TemplateSearch) (description : Option String) :
    Described fields sequences .templateMatch (.templateMatch search description)
  | readText (reading : TextReading) (description : Option String)
    (h_region : ∀ r ∈ reading.region, ∃ v, Region.ofValue v = .ok r) :
    Described fields sequences .readText (.readText reading description)
  | wait (duration : Finite64) (description : Option String) :
    Described fields sequences .wait (.wait duration description)
  | setVariable (name : String) (description : Option String) :
    Described fields sequences .setVariable (.setVariable name ((fields.get? "value").getD .null) description)
  | restart (description : Option String) : Described fields sequences .restart (.restart description)

/-- **Reading, inverted.** What is read from the fields of an object is an action that they describe. -/
theorem described_of_ofFields {fields : Fields Value} {sequences : Sequences} {kind : KnownKind} {a : Action}
    (h : ofFields fields sequences kind = .ok a) : Described fields sequences kind a := by
  -- kind by kind, along the fields in the order in which they are read
  cases kind with
  | call =>
    simp only [ofFields, Except.bind_eq_ok_iff] at h
    obtain ⟨_, _, _, _, _, _, params, h_params, h⟩ := h
    split at h
    · cases h
    simp only [Except.bind_eq_ok_iff] at h
    obtain ⟨_, _, _, _, _, _, _, _, h_eq⟩ := h
    cases h_eq
    cases params with
    | none => exact .call _ _ (.inl rfl)
    | some content =>
      obtain ⟨v, h_v, h_content⟩ := Fields.exists_of_read? h_params
      obtain rfl := Value.eq_object_of_readObject h_content
      exact .call _ _ (.inr h_v)
  | condition =>
    simp only [ofFields, Except.bind_eq_ok_iff] at h
    obtain ⟨_, _, _, _, _, h_false, _, h_true, _, h_check, h_eq⟩ := h
    cases h_eq
    exact .condition _ _ _ _ _ h_check h_true h_false
  | loop =>
    simp only [ofFields, Except.bind_eq_ok_iff] at h
    obtain ⟨_, h_body, _, _, _, _, most, h_most, h_eq⟩ := h
    cases h_eq
    refine .loop _ _ _ _ h_body ?_
    cases most with
    -- the default
    | none => exact (by decide : 100 < twoTo 64)
    | some n =>
      obtain ⟨v, -, h_n⟩ := Fields.exists_of_read? h_most
      exact Value.lt_of_readNat h_n
  | readText =>
    simp only [ofFields, Except.bind_eq_ok_iff] at h
    obtain ⟨_, _, _, _, h⟩ := h
    -- there is a region only where one was read
    split at h <;> simp only [Except.bind_eq_ok_iff] at h
    · obtain ⟨_, h_region, _, _, h_eq⟩ := h
      cases h_region
      cases h_eq
      exact .readText _ _ nofun
    · obtain ⟨_, h_region, _, _, h_eq⟩ := h
      cases h_region
      cases h_eq
      exact .readText _ _ nofun
    · next v _ _ =>
      obtain ⟨r, h_r, _, h_region, _, _, h_eq⟩ := h
      cases h_region
      cases h_eq
      refine .readText _ _ fun r' h_r' => ⟨v, ?_⟩
      exact Option.some.inj h_r' ▸ h_r
  | setVariable =>
    simp only [ofFields, Except.bind_eq_ok_iff] at h
    obtain ⟨_, _, _, _, _, _, h_eq⟩ := h
    cases h_eq
    exact .setVariable _ _
  | templateMatch =>
    simp only [ofFields, Except.bind_eq_ok_iff] at h
    obtain ⟨_, _, _, _, _, _, _, _, _, _, h_eq⟩ := h
    cases h_eq
    exact .templateMatch _ _
  | wait =>
    simp only [ofFields, Except.bind_eq_ok_iff] at h
    obtain ⟨_, _, _, _, h_eq⟩ := h
    cases h_eq
    exact .wait _ _
  | restart =>
    simp only [ofFields, Except.bind_eq_ok_iff] at h
    obtain ⟨_, _, h_eq⟩ := h
    cases h_eq
    exact .restart _

/-- The fields of an object give actions in range if its sequences are. -/
theorem inRange_of_ofFields {fields : Fields Value} {sequences : Sequences} {kind : KnownKind} {a : Action}
    (h : (Value.object fields).WellFormed)
    (h_sequences : ∀ s ∈ sequences, ∀ actions, s.2 = .ok actions → ∀ b ∈ walkList actions, b.InRange)
    (h_read : ofFields fields sequences kind = .ok a) : ∀ b ∈ a.walk, b.InRange := by
  have h_sequence {name : String} {actions : List Action} (h_eq : sequence sequences name = .ok actions) :
      ∀ b ∈ walkList actions, b.InRange := by
    rcases sequence_cases h_eq with rfl | ⟨s, h_s, h_s_eq⟩
    · exact fun b h_b => absurd h_b List.not_mem_nil
    · exact h_sequences s h_s actions h_s_eq
  -- what is read in place has its range from the reader, and sequences have theirs by hypothesis
  cases described_of_ofFields h_read with
  | call c description h_params =>
    refine List.forall_mem_singleton.mpr ?_
    obtain h_none | h_some := h_params
    · rw [InRange, h_none]
      exact .object [] List.Pairwise.nil fun _ h_f => absurd h_f List.not_mem_nil
    · exact h.of_mem h_some
  | condition check onTrue onFalse breakOnTrue description h_check h_true h_false =>
    refine List.forall_mem_cons.mpr ⟨Check.inRange_of_ofFields h h_check, ?_⟩
    exact List.forall_mem_append.mpr ⟨h_sequence h_true, h_sequence h_false⟩
  | loop interval most body description h_body h_most =>
    exact List.forall_mem_cons.mpr ⟨h_most, h_sequence h_body⟩
  | readText reading description h_region =>
    refine List.forall_mem_singleton.mpr fun r h_r => ?_
    obtain ⟨v, h_v⟩ := h_region r h_r
    exact Region.inRange_of_ofValue h_v
  | setVariable => exact List.forall_mem_singleton.mpr (h.getD_get? "value")
  | templateMatch | wait | restart => exact List.forall_mem_singleton.mpr trivial

mutual

/-- **Reading leads to actions in range.** -/
theorem inRange_of_ofValue {a : Action} (v : Value) (h : v.WellFormed) (h_read : ofValue v = .ok a) :
    ∀ b ∈ a.walk, b.InRange := by
  match v with
  | .object fields =>
    rw [ofValue, ofObject_eq] at h_read
    split at h_read
    · cases h_read
    split at h_read
    · -- an object of an unknown type
      cases h_read
      exact List.forall_mem_singleton.mpr trivial
    split at h_read
    · next h_fields =>
      cases h_read
      refine inRange_of_ofFields h (inRange_of_sequences fields ?_) h_fields
      obtain - | - | - | - | - | ⟨_, -, h_all⟩ := h
      exact h_all
    · cases h_read
  | .null | .bool _ | .number _ | .string _ | .array _ => cases h_read

theorem inRange_of_sequences (fields : List (String × Value)) (h : ∀ f ∈ fields, f.2.WellFormed) :
    ∀ s ∈ sequencesOfFields fields, ∀ actions, s.2 = .ok actions → ∀ b ∈ walkList actions, b.InRange := by
  match fields with
  | [] => exact fun s h_s => absurd h_s List.not_mem_nil
  | (name, v) :: rest =>
    obtain ⟨h_v, h_rest⟩ := List.forall_mem_cons.mp h
    refine List.forall_mem_cons.mpr ⟨fun actions h_read => ?_, inRange_of_sequences rest h_rest⟩
    exact inRange_of_listOfValue v h_v h_read

theorem inRange_of_listOfValue {actions : List Action} (v : Value) (h : v.WellFormed)
    (h_read : listOfValue v = .ok actions) : ∀ b ∈ walkList actions, b.InRange := by
  match v with
  | .array items =>
    refine inRange_of_listOfItems items ?_ h_read
    obtain - | - | - | - | ⟨_, h_all⟩ := h
    exact h_all
  | .null | .bool _ | .number _ | .string _ | .object _ => cases h_read

theorem inRange_of_listOfItems {actions : List Action} (items : List Value) (h : ∀ v ∈ items, v.WellFormed)
    (h_read : listOfItems items = .ok actions) : ∀ b ∈ walkList actions, b.InRange := by
  match items with
  | [] =>
    cases h_read
    exact fun b h_b => absurd h_b List.not_mem_nil
  | v :: rest =>
    obtain ⟨h_v, h_rest⟩ := List.forall_mem_cons.mp h
    obtain ⟨a, h_a, h_read⟩ := Except.bind_eq_ok_iff.mp h_read
    obtain ⟨others, h_others, h_eq⟩ := Except.bind_eq_ok_iff.mp h_read
    cases h_eq
    exact List.forall_mem_append.mpr ⟨inRange_of_ofValue v h_v h_a, inRange_of_listOfItems rest h_rest h_others⟩

end

end Action

end ScriptYard
