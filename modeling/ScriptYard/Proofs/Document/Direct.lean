import ScriptYard.Proofs.Yaml.Outlines

/-!
# Readings that follow no references

A reading that follows no reference answers alike whatever supply of references it has (`Reading.Direct`). An outline
has no references, so its value is read in this way (`Outline.direct_readValue`), and a reading that has an answer can
be taken apart into the readings of its parts (`Reading.Direct.of_bind_eq_pure`).
-/

namespace ScriptYard

/-- A reading that follows no reference. -/
def Reading.Direct {α : Type} (reading : Reading α) : Prop := ∃ a : Except ReadError α, reading = liftM a

namespace Reading.Direct

variable {α β : Type} {reading : Reading α} {f : α → Reading β}

theorem pure (a : α) : Direct (Pure.pure a) := ⟨.ok a, rfl⟩

theorem bind (h : Direct reading) (h_f : ∀ a, Direct (f a)) : Direct (reading >>= f) := by
  obtain ⟨a | a, rfl⟩ := h
  · exact ⟨.error a, rfl⟩
  · obtain ⟨b, h_b⟩ := h_f a
    exact ⟨b, by rw [← h_b]; rfl⟩

/-- What goes on from a result to an answer had a result. -/
theorem ok_of_bind_eq_pure {result : Except ReadError α} {b : β}
    (h : (liftM result : Reading α) >>= f = Pure.pure b) : ∃ a, result = .ok a ∧ f a = Pure.pure b := by
  cases result with
  | error e => exact nomatch (congrFun h 0 : Except.error e = Except.ok (b, 0))
  | ok a => exact ⟨a, rfl, h⟩

/-- A reading that others go on from to an answer has an answer. -/
theorem of_bind_eq_pure (h : Direct reading) {b : β} (h_bind : reading >>= f = Pure.pure b) :
    ∃ a, reading = Pure.pure a ∧ f a = Pure.pure b := by
  obtain ⟨result, rfl⟩ := h
  obtain ⟨a, rfl, h_a⟩ := ok_of_bind_eq_pure h_bind
  exact ⟨a, rfl, h_a⟩

/-- What answers once answers always. -/
theorem eq_pure_of_answer (h : Direct reading) (references : ℕ) {a : α} (h_answer : reading.answer references = .ok a) :
    reading = Pure.pure a := by
  obtain ⟨e | a', rfl⟩ := h
  · exact nomatch (h_answer : Except.error e = Except.ok a)
  · cases (h_answer : Except.ok a' = Except.ok a)
    rfl

end Reading.Direct

theorem Reading.eq_of_pure {α : Type} {a b : α} (h : (Pure.pure a : Reading α) = Pure.pure b) : a = b := by
  cases (congrFun h 0 : Except.ok (a, 0) = Except.ok (b, 0))
  rfl

theorem Reading.answer_pure {α : Type} (a : α) (references : ℕ) : (Pure.pure a : Reading α).answer references = .ok a :=
  rfl

/-- A document with nothing wrong behind its contents is read as they are. -/
theorem Document.read_eq_answer {α : Type} (n : Node) (references : ℕ) (read : Node → Reading α) :
    Document.read ⟨n, none, references⟩ read = (read n).answer references := by
  unfold Document.read
  dsimp only
  cases (read n).answer references <;> rfl

namespace Node

open Reading

theorem direct_readValues {src : Source} {items : List Node} (h : ∀ n ∈ items, Direct (readValue src n)) :
    Direct (readValues src items) := by
  induction items with
  | nil => exact .pure []
  | cons n items ih =>
    rw [readValues]
    exact .bind (h n List.mem_cons_self) fun v =>
      .bind (ih fun n h_n => h n (List.mem_cons_of_mem _ h_n)) fun vs => .pure (v :: vs)

/-- The entries of scalars as names are read without following a reference if their values are. -/
theorem direct_readValueEntries {src : Source} {entries : List (Node × Node)}
    (h : ∀ e ∈ entries, (∃ s, e.1 = .scalar s) ∧ Direct (readValue src e.2)) :
    Direct (readValueEntries src entries) := by
  induction entries with
  | nil => exact .pure []
  | cons e entries ih =>
    obtain ⟨k, n⟩ := e
    obtain ⟨⟨s, rfl⟩, h_n⟩ := h _ List.mem_cons_self
    rw [readValueEntries]
    exact .bind ⟨s.readText, rfl⟩ fun name => .bind h_n fun v =>
      .bind (ih fun e h_e => h e (List.mem_cons_of_mem _ h_e)) fun fields => .pure ((name, v) :: fields)

theorem direct_readValue_seq {src : Source} {items : List Node}
    (h : ∀ inner, ∀ n ∈ items, Direct (readValue inner n)) : Direct (readValue src (.seq none items)) := by
  rw [readValue]
  exact .bind ⟨src.inner, rfl⟩ fun inner => .bind (direct_readValues (h inner)) fun vs => .pure (Value.array vs)

theorem direct_readValue_map {src : Source} {entries : List (Node × Node)}
    (h : ∀ inner, ∀ e ∈ entries, (∃ s, e.1 = .scalar s) ∧ Direct (readValue inner e.2)) :
    Direct (readValue src (.map none entries)) := by
  rw [readValue]
  exact .bind ⟨src.inner, rfl⟩ fun inner => .bind (direct_readValueEntries (h inner)) fun fields =>
    .pure (Value.object (Fields.ofList fields))

end Node

namespace Yaml

namespace Outline

open Reading Node

/-- A leaf is read without following a reference. -/
theorem direct_leaf (src : Source) (content : Leaf) : Direct (content.node.readValue src) := by
  cases content with
  | scalar text form => exact ⟨_, rfl⟩
  | braces => exact direct_readValue_map fun inner e h_e => absurd h_e List.not_mem_nil
  | list items =>
    refine direct_readValue_seq fun inner n h_n => ?_
    obtain ⟨cs, -, rfl⟩ := List.mem_map.mp h_n
    exact ⟨_, rfl⟩

mutual

/-- What an outline says is read without following a reference. -/
theorem direct_readValue (src : Source) : (o : Outline) → Direct (o.node.readValue src)
  | .leaf _ _ content => direct_leaf src content
  | .seq items => direct_readValue_seq fun inner => direct_itemsNode inner items
  | .map fields => direct_readValue_map fun inner => direct_fieldsNode inner fields

/-- `direct_readValue` item by item. -/
theorem direct_itemsNode (src : Source) : (items : List Outline) → ∀ n ∈ itemsNode items, Direct (n.readValue src)
  | [] => fun _ h_n => absurd h_n List.not_mem_nil
  | o :: rest => List.forall_mem_cons.mpr ⟨direct_readValue src o, direct_itemsNode src rest⟩

/-- `direct_readValue` field by field; the names are scalars. -/
theorem direct_fieldsNode (src : Source) : (fields : List ((ℕ → Name) × Outline)) →
    ∀ e ∈ fieldsNode fields, (∃ s, e.1 = .scalar s) ∧ Direct (e.2.readValue src)
  | [] => fun _ h_e => absurd h_e List.not_mem_nil
  | (_, o) :: rest => List.forall_mem_cons.mpr ⟨⟨⟨_, rfl⟩, direct_readValue src o⟩, direct_fieldsNode src rest⟩

end

end Outline

end Yaml

end ScriptYard
