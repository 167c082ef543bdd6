import ScriptYard.Output.Format
import ScriptYard.Proofs.Document.Direct
import ScriptYard.Proofs.Document.Entries
import ScriptYard.Proofs.Value.Fields
import ScriptYard.Proofs.Yaml.Remnants

/-!
# Reading rendered values

`OutputFormat.render` cuts the blanks off the end of a YAML document, and with them the blanks at the end of a literal
block that stands last. If the document itself is read as its value, then what is rendered is read as what is left of
the value: it comes back exactly if its last string, where it is written as a literal block, ends in no blank
(`parse_render_yaml`). Reports of captured output, which ends in a line feed, come back without it
(`parse_render_captured`).

The reading is taken apart along the outline of the value (`of_readValues_cons`, `of_readValueEntries_cons`), and put
together again with another last part (`readValue_cutOutline`).
-/

namespace ScriptYard

namespace Yaml

section

open Reading Node Outline

/-- A key is read as itself. -/
theorem readText_keyName (key : String) :
    readText (.scalar (scalarOf (keyName key 0).key (keyName key 0).form)) = pure key := by
  have h_key : (keyName key 0).key = key.toList := by
    unfold keyName
    dsimp only
    split <;> rfl
  rw [h_key]
  show (pure (String.ofList key.toList) : Reading String) = _
  rw [String.ofList_toList]

/-- Items that are read were each read. -/
theorem of_readValues_cons {src : Source} {v : Value} {rest vs : List Value}
    (h : readValues src (itemsNode (outlineItems (v :: rest))) = pure vs) :
    ∃ w others, vs = w :: others ∧ readValue src (outline v).node = pure w ∧
      readValues src (itemsNode (outlineItems rest)) = pure others := by
  rw [outlineItems, itemsNode, readValues] at h
  obtain ⟨w, h_w, h⟩ := (direct_readValue src (outline v)).of_bind_eq_pure h
  obtain ⟨others, h_others, h⟩ := (direct_readValues (direct_itemsNode src (outlineItems rest))).of_bind_eq_pure h
  exact ⟨w, others, (Reading.eq_of_pure h).symm, h_w, h_others⟩

/-- Fields that are read were each read under its own name. -/
theorem of_readValueEntries_cons {src : Source} {key : String} {v : Value} {rest fields : List (String × Value)}
    (h : readValueEntries src (fieldsNode (outlineFields ((key, v) :: rest))) = pure fields) :
    ∃ w others, fields = (key, w) :: others ∧ readValue src (outline v).node = pure w ∧
      readValueEntries src (fieldsNode (outlineFields rest)) = pure others := by
  rw [outlineFields, fieldsNode, readValueEntries, readText_keyName, pure_bind] at h
  obtain ⟨w, h_w, h⟩ := (direct_readValue src (outline v)).of_bind_eq_pure h
  obtain ⟨others, h_others, h⟩ :=
    (direct_readValueEntries (direct_fieldsNode src (outlineFields rest))).of_bind_eq_pure h
  exact ⟨w, others, (Reading.eq_of_pure h).symm, h_w, h_others⟩

/-- Fields are read under the names they are written with, in the same order. -/
theorem names_readValueEntries {src : Source} (fields : List (String × Value)) {fields' : List (String × Value)}
    (h : readValueEntries src (fieldsNode (outlineFields fields)) = pure fields') :
    fields'.map Prod.fst = fields.map Prod.fst := by
  induction fields generalizing fields' with
  | nil =>
    obtain rfl := Reading.eq_of_pure h
    rfl
  | cons f fields ih =>
    obtain ⟨w, others, rfl, -, h_others⟩ := of_readValueEntries_cons h
    rw [List.map_cons, List.map_cons, ih h_others]

theorem sorted_of_names {fields fields' : List (String × Value)} (h : fields'.map Prod.fst = fields.map Prod.fst)
    (h_sorted : Fields.Sorted fields) : Fields.Sorted fields' := by
  rw [Fields.Sorted, ← List.pairwise_map] at h_sorted ⊢
  rwa [h]

/-- Entries whose names are those of the fields they are put together to are these fields. -/
theorem eq_of_ofList {fields fields' : List (String × Value)} (h : fields'.map Prod.fst = fields.map Prod.fst)
    (h_ofList : Fields.ofList fields' = fields) : fields' = fields := by
  have h_sorted : Fields.Sorted fields := by
    rw [← h_ofList]
    exact Fields.sorted_ofList fields'
  rw [← h_ofList, Fields.ofList_of_sorted (sorted_of_names h h_sorted)]

theorem names_cutFields (fields : List (String × Value)) : (cutFields fields).map Prod.fst = fields.map Prod.fst := by
  induction fields with
  | nil => rfl
  | cons f rest ih =>
    rw [cutFields]
    cases rest with
    | nil => rfl
    | cons g rest =>
      rw [List.isEmpty_cons, if_neg Bool.false_ne_true, List.map_cons, ih]
      rfl

/-- The text that is left of a string is read as what is left of the string. -/
theorem readValue_cutString (src : Source) {s : String}
    (h : readValue src (outline (.string s)).node = pure (.string s)) :
    readValue src (cutOutline (.string s)).node = pure (cutValue (.string s)) := by
  rw [cutOutline, cutValue]
  split
  · rfl
  · exact h

mutual

/-- **What is left of an outline is read as what is left of the value**, if the whole is read as the value. -/
theorem readValue_cutOutline (v : Value) (src : Source) (h : readValue src (outline v).node = pure v) :
    readValue src (cutOutline v).node = pure (cutValue v) := by
  match v with
  | .null | .bool _ | .number _ => exact h
  | .array [] | .object [] => exact h
  | .string s => exact readValue_cutString src h
  | .array (w :: rest) =>
    rw [outline, Outline.node, Node.readValue] at h
    obtain ⟨inner, h_inner, h⟩ := Direct.ok_of_bind_eq_pure h
    obtain ⟨vs, h_vs, h⟩ := (direct_readValues (direct_itemsNode inner (outlineItems (w :: rest)))).of_bind_eq_pure h
    cases Reading.eq_of_pure h
    exact readValue_seq inner h_inner (readValues_cutItems w rest inner h_vs)
  | .object ((key, w) :: rest) =>
    rw [outline, Outline.node, Node.readValue] at h
    obtain ⟨inner, h_inner, h⟩ := Direct.ok_of_bind_eq_pure h
    obtain ⟨fields, h_fields, h⟩ :=
      (direct_readValueEntries (direct_fieldsNode inner (outlineFields ((key, w) :: rest)))).of_bind_eq_pure h
    have h_ofList : Fields.ofList fields = (key, w) :: rest := Value.object.inj (Reading.eq_of_pure h)
    obtain rfl := eq_of_ofList (names_readValueEntries _ h_fields) h_ofList
    -- The fields come out of the document in the order of their names, which is not changed.
    have h_sorted : Fields.Sorted (cutFields ((key, w) :: rest)) := by
      refine sorted_of_names (names_cutFields _) ?_
      rw [← h_ofList]
      exact Fields.sorted_ofList _
    have h_cut := readValue_map inner h_inner (readValueEntries_cutFields key w rest inner h_fields)
    rwa [Fields.ofList_of_sorted h_sorted] at h_cut
  termination_by sizeOf v

/-- `readValue_cutOutline` of the last item. -/
theorem readValues_cutItems (v : Value) (rest : List Value) (src : Source)
    (h : readValues src (itemsNode (outlineItems (v :: rest))) = pure (v :: rest)) :
    readValues src (itemsNode (cutOutlineItems (v :: rest))) = pure (cutItems (v :: rest)) := by
  obtain ⟨w, others, h_eq, h_v, h_rest⟩ := of_readValues_cons h
  cases h_eq
  match rest with
  | [] => exact readValues_cons (readValue_cutOutline v src h_v) rfl
  | w :: others =>
    rw [cutOutlineItems_cons]
    exact readValues_cons h_v (readValues_cutItems w others src h_rest)
  termination_by sizeOf (v :: rest)

/-- `readValue_cutOutline` of the last field. -/
theorem readValueEntries_cutFields (key : String) (v : Value) (rest : List (String × Value)) (src : Source)
    (h : readValueEntries src (fieldsNode (outlineFields ((key, v) :: rest))) = pure ((key, v) :: rest)) :
    readValueEntries src (fieldsNode (cutOutlineFields ((key, v) :: rest))) = pure (cutFields ((key, v) :: rest)) := by
  obtain ⟨w, others, h_eq, h_v, h_rest⟩ := of_readValueEntries_cons h
  cases h_eq
  match rest with
  | [] => exact readValueEntries_cons (readText_keyName key) (readValue_cutOutline v src h_v) rfl
  | (name, w) :: others =>
    rw [cutOutlineFields_cons]
    exact readValueEntries_cons (readText_keyName key) h_v (readValueEntries_cutFields name w others src h_rest)
  termination_by sizeOf ((key, v) :: rest)

end

end

/-! ### Reading what is rendered -/

/-- The value of a YAML text. -/
def parse (text : String) : Except ReadError Value := (readDocument text).read (Node.readValue Source.yaml)

/-- What is written of a value is read as the value exactly if its outline is. -/
theorem parse_write_eq_ok_iff (v : Value) :
    parse (write v) = .ok v ↔ Node.readValue .yaml (outline v).node = pure v := by
  obtain ⟨references, h_document⟩ : ∃ references, readDocument (String.ofList ((outline v).top 0 true).text) =
      ⟨(outline v).node, none, references⟩ := Outline.readDocument_top (topSound_outline true v)
  rw [write_eq, parse, h_document, Document.read_eq_answer]
  refine ⟨(Outline.direct_readValue .yaml (outline v)).eq_pure_of_answer references, fun h => ?_⟩
  rw [h, Reading.answer_pure]

/-- What is rendered of a value that its document is read as is read as what is left of the value. -/
theorem parse_render_cutValue {v : Value} (h : parse (write v) = .ok v) (h_plain : EndsInkIn .plain (lastString? v)) :
    parse (OutputFormat.yaml.render v) = .ok (cutValue v) := by
  obtain ⟨references, h_document⟩ := readDocument_cut h_plain
  rw [OutputFormat.render, parse, h_document, Document.read_eq_answer,
    readValue_cutOutline v .yaml ((parse_write_eq_ok_iff v).mp h), Reading.answer_pure]

/-! ### Captured output -/

/-- A report of the output of a command. -/
def captured (output : String) : Value := .object [("stdout", .string output)]

section

variable {output : String}

/-- The document of a report is read as the report. -/
theorem parse_write_captured (h : styleOf output = .literal) :
    parse (write (captured output)) = .ok (captured output) := by
  obtain ⟨inner, h_inner⟩ : ∃ inner, Source.yaml.inner = .ok inner := ⟨_, rfl⟩
  have h_output : Node.readValue inner (outline (.string output)).node = pure (.string output) := by
    rw [outline, h]
    show (pure (.string (String.ofList output.toList)) : Reading Value) = _
    rw [String.ofList_toList]
  have h_fields : Node.readValueEntries inner (Outline.fieldsNode (outlineFields [("stdout", .string output)])) =
      pure [("stdout", .string output)] := Node.readValueEntries_cons (readText_keyName "stdout") h_output rfl
  rw [parse_write_eq_ok_iff]
  exact Node.readValue_map inner h_inner h_fields

theorem endsInkIn_captured (h : styleOf output = .literal) : EndsInkIn .plain (lastString? (captured output)) := by
  rintro s h_s h_plain
  cases h_s
  rw [h] at h_plain
  cases h_plain

/-- **Output that is written as a literal block loses the blanks at its end in a report.** -/
theorem parse_render_captured (h : styleOf output = .literal) :
    parse (OutputFormat.yaml.render (captured output)) = .ok (captured (trimBlanksEnd output)) := by
  rw [parse_render_cutValue (parse_write_captured h) (endsInkIn_captured h)]
  simp [captured, cutValue, cutFields, h]

end

/-! ### What comes back -/

/-- **What is rendered as YAML loses the blanks at the end of a literal block that stands last, and nothing else.** The
value comes back exactly if its last string, where it is written as a literal block, ends in no blank. -/
theorem parse_render_yaml {v : Value} (h : parse (write v) = .ok v) (h_plain : EndsInkIn .plain (lastString? v)) :
    parse (OutputFormat.yaml.render v) = .ok (cutValue v) ∧
      (parse (OutputFormat.yaml.render v) = .ok v ↔ EndsInkIn .literal (lastString? v)) := by
  have h_render := parse_render_cutValue h h_plain
  refine ⟨h_render, ?_⟩
  rw [h_render, Except.ok.injEq, cutValue_eq_self_iff]

/-- A report of a line is read without its line feed. -/
theorem line_is_read_without_its_feed :
    parse (write (captured "done\n")) = .ok (captured "done\n") ∧
      EndsInkIn .plain (lastString? (captured "done\n")) ∧
        parse (OutputFormat.yaml.render (captured "done\n")) = .ok (captured "done") := by
  have h_literal : styleOf "done\n" = .literal := by decide +kernel
  have h_write := parse_write_captured h_literal
  have h_plain := endsInkIn_captured h_literal
  have h_cut : cutValue (captured "done\n") = captured "done" := by decide +kernel
  have h_render := (parse_render_yaml h_write h_plain).1
  rw [h_cut] at h_render
  exact ⟨h_write, h_plain, h_render⟩

/-- The line feed at the end of captured output is lost, though the document it is cut off is read as the report. -/
theorem captured_line_feed_is_lost :
    ¬∀ v : Value, parse (write v) = .ok v → parse (OutputFormat.yaml.render v) = .ok v := by
  intro h_all
  have h_literal : styleOf "done\n" = .literal := by decide +kernel
  have h_kept := h_all (captured "done\n") (parse_write_captured h_literal)
  rw [parse_render_captured h_literal, Except.ok.injEq] at h_kept
  exact absurd h_kept (by decide +kernel)

end Yaml

end ScriptYard
