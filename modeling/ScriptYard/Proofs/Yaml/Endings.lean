import ScriptYard.Proofs.Yaml.Styles
import ScriptYard.Text

/-!
# Documents whose blanks at the end are cut off

Without the blanks at its end a text lacks the end of its last line, and more than that where the last scalar ends in
blanks of its own. What stands in front of the last leaf is not touched: if the last leaf of an outline is exchanged for
one without these blanks (`Outline.TrimsTo`), then what is left of the text is the text of the new outline without the
end of its last line (`Outline.trimEnd_top`).

Such a text is read as what the outline says if its last leaf can be read where nothing follows (`EndStanding`), and all
its other parts in every place (`Outline.readDocument_end`). The inductions follow the outline along its last parts, and
what stands before them is placed as in a whole document (`Outline.place_some`).
-/

namespace ScriptYard

namespace Yaml

open Scanner Layout

/-! ### Blanks at the end -/

theorem trimEnd_append {cs g : List Char} (h_g : ∀ x ∈ g, isBlank x = true)
    (h_cs : ∀ x ∈ cs.getLast?, isBlank x = false) : trimEnd (cs ++ g) = cs := by
  rw [trimEnd, List.reverse_append, List.dropWhile_append_of_pos fun x h_x => h_g x (List.mem_reverse.mp h_x)]
  cases h_reverse : cs.reverse with
  | nil => simpa using h_reverse.symm
  | cons x xs =>
    have h_x := h_cs x (by rw [← List.head?_reverse, h_reverse]; rfl)
    rw [List.dropWhile_cons_of_neg (by simp [h_x]), ← h_reverse, List.reverse_reverse]

/-- A text is what is left without the blanks at its end, and these. -/
theorem exists_trimEnd (cs : List Char) : ∃ g, cs = trimEnd cs ++ g ∧ (∀ x ∈ g, isBlank x = true) ∧
    ∀ x ∈ (trimEnd cs).getLast?, isBlank x = false := by
  refine ⟨(cs.reverse.takeWhile isBlank).reverse, ?_, fun x h_x => ?_, fun x h_x => ?_⟩
  · rw [trimEnd, ← List.reverse_append, List.takeWhile_append_dropWhile, List.reverse_reverse]
  · exact List.mem_takeWhile_imp (List.mem_reverse.mp h_x)
  · rw [trimEnd, List.getLast?_reverse] at h_x
    have h_head := List.head?_dropWhile_not isBlank cs.reverse
    rw [Option.mem_def.mp h_x] at h_head
    exact h_head

namespace Outline

section

variable {cs cs' : List Char}

/-- A text that ends in a character that is no blank. -/
def EndsInk (cs : List Char) : Prop := ∃ x ∈ cs.getLast?, isBlank x = false

theorem EndsInk.append (h : EndsInk cs) (front : List Char) : EndsInk (front ++ cs) := by
  obtain ⟨x, h_x, h_ink⟩ := h
  refine ⟨x, ?_, h_ink⟩
  rw [List.getLast?_append, h_x]
  rfl

theorem EndsInk.cons (h : EndsInk cs) (c : Char) : EndsInk (c :: cs) := h.append [c]

/-- A text is another one, which ends in ink, with blanks behind it. -/
def EndsIn (cs cs' : List Char) : Prop := EndsInk cs' ∧ ∃ g, cs = cs' ++ g ∧ ∀ x ∈ g, isBlank x = true

theorem EndsIn.append (h : EndsIn cs cs') (front : List Char) : EndsIn (front ++ cs) (front ++ cs') := by
  obtain ⟨h_ink, g, rfl, h_g⟩ := h
  exact ⟨h_ink.append front, g, by simp, h_g⟩

theorem EndsIn.behind {g : List Char} (h : EndsIn cs cs') (h_g : ∀ x ∈ g, isBlank x = true) : EndsIn (cs ++ g) cs' := by
  obtain ⟨h_ink, g', rfl, h_g'⟩ := h
  exact ⟨h_ink, g' ++ g, by simp, List.forall_mem_append.mpr ⟨h_g', h_g⟩⟩

theorem EndsIn.trimEnd_eq (h : EndsIn cs cs') : trimEnd cs = cs' := by
  obtain ⟨⟨x, h_x, h_ink⟩, g, rfl, h_g⟩ := h
  exact trimEnd_append h_g fun y h_y => by rw [Option.mem_unique h_y h_x, h_ink]

end

mutual

/-- Two outlines are the same but for the text that stands last, of which the blanks at its end are cut off. -/
def TrimsTo : Outline → Outline → Prop
  | .leaf text _ _, .leaf text' _ _ => ∀ n, EndsIn (text n) (text' n)
  | .seq items, .seq items' => ItemsTrimTo items items'
  | .map fields, .map fields' => FieldsTrimTo fields fields'
  | _, _ => False

/-- `TrimsTo` of the last items, where all others are the same. -/
def ItemsTrimTo : List Outline → List Outline → Prop
  | o :: rest, o' :: rest' =>
    if rest.isEmpty then o.TrimsTo o' ∧ rest' = [] else o = o' ∧ rest'.isEmpty = false ∧ ItemsTrimTo rest rest'
  | _, _ => False

/-- `TrimsTo` of the last fields, where all others are the same. -/
def FieldsTrimTo : List ((ℕ → Name) × Outline) → List ((ℕ → Name) × Outline) → Prop
  | (k, o) :: rest, (k', o') :: rest' =>
    k = k' ∧
      if rest.isEmpty then o.TrimsTo o' ∧ rest' = [] else o = o' ∧ rest'.isEmpty = false ∧ FieldsTrimTo rest rest'
  | _, _ => False

end

section

variable {shift holder column n : ℕ} {lineOpen : Bool}

mutual

/-- What is followed by something else does not depend on the end of the last line. -/
theorem place_some {holder column : ℕ} {lineOpen : Bool} (m : ℕ) (final final' : Bool) : (o : Outline) →
    place shift final holder lineOpen column (some m) o = place shift final' holder lineOpen column (some m) o
  | .leaf .. => rfl
  | .seq items => by simp only [place, placeItems_some m final final' items]
  | .map fields => by simp only [place, placeFields_some m final final' fields]

/-- `place_some` item by item. -/
theorem placeItems_some {n : ℕ} (m : ℕ) (final final' : Bool) : (items : List Outline) →
    placeItems shift final n (some m) items = placeItems shift final' n (some m) items
  | [] => rfl
  | o :: rest => by
    rw [placeItems, placeItems, placeItems_some m final final' rest]
    split <;> rw [place_some _ final final' o]

/-- `place_some` field by field. -/
theorem placeFields_some {n : ℕ} (m : ℕ) (final final' : Bool) : (fields : List ((ℕ → Name) × Outline)) →
    placeFields shift final n (some m) fields = placeFields shift final' n (some m) fields
  | [] => rfl
  | (k, o) :: rest => by
    rw [placeFields, placeFields, placeFields_some m final final' rest]
    split <;> rw [place_some _ final final' o]

end

theorem isBlank_gapBehind (final closed : Bool) : ∀ x ∈ gapBehind final closed none, isBlank x = true := by
  cases final <;> cases closed <;> exact List.all_eq_true.mp (by decide)

mutual

/-- The end of the last line is all that stands behind the last text. -/
theorem text_place {holder column : ℕ} {lineOpen : Bool} : (o o' : Outline) → o.TrimsTo o' →
    EndsIn (place shift true holder lineOpen column none o).text (place shift false holder lineOpen column none o').text
  | .leaf text closed content, .leaf text' closed' content', h => by
    have h_ends : EndsIn (text (holder + 2)) (text' (holder + 2)) := h (holder + 2)
    simpa [place, Layout.text] using (h_ends.behind (isBlank_gapBehind true closed)).append [' ']
  | .seq items, .seq items', h => (text_placeItems items items' h).append _
  | .map fields, .map fields', h => (text_placeFields fields fields' h).append _

/-- `text_place` of the last item. -/
theorem text_placeItems {n : ℕ} : (items items' : List Outline) → ItemsTrimTo items items' →
    EndsIn (Layout.itemsText (placeItems shift true n none items))
      (Layout.itemsText (placeItems shift false n none items'))
  | o :: rest, o' :: rest', h => by
    rw [ItemsTrimTo] at h
    cases rest with
    | nil =>
      obtain ⟨h_trims, rfl⟩ := h
      have h_ends : EndsIn (place shift true n true (n + 1) none o).text
          (place shift false n true (n + 1) none o').text := text_place o o' h_trims
      simpa [placeItems, Layout.itemsText] using h_ends.append ['-']
    | cons p rest =>
      obtain ⟨rfl, h_ne, h_trims⟩ := h
      have h_ends := text_placeItems (n := n) (p :: rest) rest' h_trims
      have h_cons : Layout.itemsText (placeItems shift false n none (o :: rest')) =
          '-' :: ((place shift false n true (n + 1) (some n) o).text ++
            Layout.itemsText (placeItems shift false n none rest')) := by
        rw [placeItems, Layout.itemsText, h_ne, if_neg (by decide)]
      -- An item that another one follows is written alike in both.
      rw [h_cons, ← place_some n true false o]
      exact (h_ends.append _).append ['-']

/-- `text_place` of the last field. -/
theorem text_placeFields {n : ℕ} : (fields fields' : List ((ℕ → Name) × Outline)) → FieldsTrimTo fields fields' →
    EndsIn (Layout.fieldsText (placeFields shift true n none fields))
      (Layout.fieldsText (placeFields shift false n none fields'))
  | (k, o) :: rest, (k', o') :: rest', h => by
    rw [FieldsTrimTo] at h
    obtain ⟨rfl, h⟩ := h
    cases rest with
    -- the last field ends the text, its value in what is left of it
    | nil =>
      obtain ⟨h_trims, rfl⟩ := h
      have h_ends : EndsIn (place shift true n (!(k n).simple) (behindName n (k n)) none o).text
          (place shift false n (!(k n).simple) (behindName n (k n)) none o').text := text_place o o' h_trims
      simpa [placeFields, Layout.fieldsText] using h_ends.append (k n).marked
    -- the fields in front are the same on both sides
    | cons f rest =>
      obtain ⟨rfl, h_ne, h_trims⟩ := h
      have h_ends := text_placeFields (n := n) (f :: rest) rest' h_trims
      have h_cons : Layout.fieldsText (placeFields shift false n none ((k, o) :: rest')) =
          (k n).marked ++ ((place shift false n (!(k n).simple) (behindName n (k n)) (some n) o).text ++
            Layout.fieldsText (placeFields shift false n none rest')) := by
        rw [placeFields, Layout.fieldsText, h_ne, if_neg (by decide)]
      rw [h_cons, ← place_some n true false o]
      exact (h_ends.append _).append _

end

/-- Without the blanks at its end a text is the one of the outline that is trimmed. -/
theorem trimEnd_top {o o' : Outline} (h : o.TrimsTo o') :
    trimEnd (o.top shift true).text = (o'.top shift false).text := by
  refine EndsIn.trimEnd_eq ?_
  match o, o', h with
  | .leaf text closed content, .leaf text' closed' content', h =>
    have h_ends : EndsIn (text 2) (text' 2) := h 2
    simpa [top, Layout.text] using h_ends.behind (isBlank_gapBehind true closed)
  | .seq items, .seq items', h => exact (text_placeItems items items' h).append []
  | .map fields, .map fields', h => exact (text_placeFields fields fields' h).append []

end

end Outline

/-! ### The last text by itself -/

/-- The text of a leaf is read in every block and in none where nothing follows it. -/
structure EndStanding (text : ℕ → List Char) (content : Leaf) : Prop where
  starts : ∀ n, StartsToken (text n)
  allowed : ∀ n, ∀ x ∈ text n, isAllowed x = true
  reads : ∀ (indent : ℤ) (column : ℕ) (keyAllowed : Bool), indent < column →
    Reads indent keyAllowed column (text (lineColumn indent)) content.tokens [] 0

namespace Outline

mutual

/-- All parts are read for themselves, the last one where nothing follows it. -/
def EndSound : Outline → Prop
  | .leaf text _ content => EndStanding text content
  | .seq items => ItemsEndSound items
  | .map fields => FieldsEndSound fields

/-- `EndSound` of the last item, behind items that are sound. -/
def ItemsEndSound : List Outline → Prop
  | [] => False
  | o :: rest => if rest.isEmpty then o.EndSound else o.Sound false ∧ ItemsEndSound rest

/-- `EndSound` of the last field, behind fields that are sound. -/
def FieldsEndSound : List ((ℕ → Name) × Outline) → Prop
  | [] => False
  | (k, o) :: rest => NameSound k ∧ if rest.isEmpty then o.EndSound else o.Sound false ∧ FieldsEndSound rest

end

variable {shift : ℕ}

mutual

/-- The parts of an outline at the end are placed where they fit. -/
theorem fits_end {holder column : ℕ} {lineOpen : Bool} (h_column : holder < column)
    (h_open : lineOpen = true → column = holder + 1) : (o : Outline) → o.EndSound →
      (place shift false holder lineOpen column none o).Fits holder lineOpen column none
  | .leaf text closed content, h => by
    intro rest h_rest
    -- nothing follows a leaf at the end
    obtain rfl : rest = [] := h_rest
    have h_reads := h.reads holder (column + 1) lineOpen (by omega)
    rw [lineColumn_natCast] at h_reads
    rw [gapBehind_end, List.append_nil]
    exact Reads.spaces (k := 1) (AtToken.of_startsToken (h.starts (holder + 2))) h_reads
  | .seq items, h => by
    refine ⟨?_, by push_cast; omega, lead_leadText fun h_lineOpen => ?_, fits_endItems items h⟩
    · cases items with
      | nil => exact h.elim
      | cons o items => exact List.cons_ne_nil _ _
    · rw [h_open h_lineOpen, if_pos h_lineOpen]
      omega
  | .map fields, h => by
    refine ⟨?_, by push_cast; omega, lead_leadText fun h_lineOpen => ?_, fits_endFields fields h⟩
    · cases fields with
      | nil => exact h.elim
      | cons f fields => exact List.cons_ne_nil _ _
    · rw [h_open h_lineOpen]
      omega

/-- `fits_end` of the last item. -/
theorem fits_endItems {n : ℕ} : (items : List Outline) → ItemsEndSound items →
    ItemsFit n none (placeItems shift false n none items)
  | [], h => h.elim
  | o :: rest, h => by
    rw [ItemsEndSound] at h
    refine ⟨startsGap_place (fun _ => rfl) o, not_blockless_place n o, ?_⟩
    rw [placeItems_isEmpty]
    cases rest with
    | nil => exact ⟨fits_end (Nat.lt_succ_self n) (fun _ => rfl) o h, trivial⟩
    | cons p rest =>
      exact ⟨fits_place (Nat.lt_succ_self n) (fun _ => rfl) (fun m h_m => by cases h_m; exact Nat.le_refl n) o h.1,
        fits_endItems (p :: rest) h.2⟩

/-- `fits_end` of the last field. -/
theorem fits_endFields {n : ℕ} : (fields : List ((ℕ → Name) × Outline)) → FieldsEndSound fields →
    FieldsFit n none (placeFields shift false n none fields)
  | [], h => h.elim
  | (k, o) :: rest, h => by
    rw [FieldsEndSound] at h
    obtain ⟨h_name, h⟩ := h
    refine ⟨h_name.fits n, startsGap_place behindName_of_explicit o, ?_⟩
    rw [placeFields_isEmpty]
    cases rest with
    | nil => exact ⟨fits_end (lt_behindName n (k n)) behindName_of_explicit o h, trivial⟩
    | cons f rest =>
      refine ⟨fits_place (lt_behindName n (k n)) behindName_of_explicit ?_ o h.1, fits_endFields (f :: rest) h.2⟩
      exact fun m h_m => by cases h_m; exact Nat.le_refl n

end

mutual

/-- Where an outline is placed at the end, it says what it says. -/
theorem node_end {holder column : ℕ} {lineOpen : Bool} : (o : Outline) → o.EndSound →
    (place shift false holder lineOpen column none o).node = o.node
  | .leaf .., _ => rfl
  | .seq items, h => congrArg (Node.seq none) (node_endItems items h)
  | .map fields, h => congrArg (Node.map none) (node_endFields fields h)

/-- `node_end` of the last item. -/
theorem node_endItems {n : ℕ} : (items : List Outline) → ItemsEndSound items →
    Layout.itemsNode (placeItems shift false n none items) = itemsNode items
  | [], _ => rfl
  | o :: rest, h => by
    rw [ItemsEndSound] at h
    cases rest with
    | nil => exact congrArg (fun x => [x]) (node_end o h)
    | cons p rest => exact congrArg₂ List.cons (node_place o h.1) (node_endItems (p :: rest) h.2)

/-- `node_end` of the last field. -/
theorem node_endFields {n : ℕ} : (fields : List ((ℕ → Name) × Outline)) → FieldsEndSound fields →
    Layout.fieldsNode (placeFields shift false n none fields) = fieldsNode fields
  | [], _ => rfl
  | (k, o) :: rest, h => by
    rw [FieldsEndSound] at h
    obtain ⟨h_name, h⟩ := h
    have h_key : Node.scalar (scalarOf (k n).key (k n).form) = .scalar (scalarOf (k 0).key (k 0).form) := by
      rw [(h_name.same n).1, (h_name.same n).2]
    cases rest with
    | nil => exact congrArg₂ (fun x y => [(x, y)]) h_key (node_end o h)
    | cons f rest =>
      exact congrArg₂ List.cons (congrArg₂ Prod.mk h_key (node_place o h.1)) (node_endFields (f :: rest) h.2)

end

mutual

/-- An outline at the end is written in characters that every text may hold. -/
theorem allowed_end {holder column : ℕ} {lineOpen : Bool} : (o : Outline) → o.EndSound →
    ∀ x ∈ (place shift false holder lineOpen column none o).text, isAllowed x = true
  | .leaf text closed content, h => by
    rw [place, Layout.text, gapBehind_end, List.append_nil]
    exact List.forall_mem_cons.mpr ⟨by decide, h.allowed (holder + 2)⟩
  | .seq items, h => List.forall_mem_append.mpr ⟨fun _ => allowed_leadText, allowed_endItems items h⟩
  | .map fields, h => List.forall_mem_append.mpr ⟨fun _ => allowed_leadText, allowed_endFields fields h⟩

/-- `allowed_end` of the last item. -/
theorem allowed_endItems {n : ℕ} : (items : List Outline) → ItemsEndSound items →
    ∀ x ∈ itemsText (placeItems shift false n none items), isAllowed x = true
  | [], h => h.elim
  | o :: rest, h => by
    rw [ItemsEndSound] at h
    refine List.forall_mem_cons.mpr ⟨by decide, List.forall_mem_append.mpr ?_⟩
    cases rest with
    | nil => exact ⟨allowed_end o h, fun x h_x => absurd h_x List.not_mem_nil⟩
    | cons p rest => exact ⟨allowed_place o h.1, allowed_endItems (p :: rest) h.2⟩

/-- `allowed_end` of the last field. -/
theorem allowed_endFields {n : ℕ} : (fields : List ((ℕ → Name) × Outline)) → FieldsEndSound fields →
    ∀ x ∈ fieldsText (placeFields shift false n none fields), isAllowed x = true
  | [], h => h.elim
  | (k, o) :: rest, h => by
    rw [FieldsEndSound] at h
    obtain ⟨h_name, h⟩ := h
    refine List.forall_mem_append.mpr ⟨allowed_marked (h_name.allowed n), List.forall_mem_append.mpr ?_⟩
    cases rest with
    | nil => exact ⟨allowed_end o h, fun x h_x => absurd h_x List.not_mem_nil⟩
    | cons f rest => exact ⟨allowed_place o h.1, allowed_endFields (f :: rest) h.2⟩

end

/-- **A text whose last line is not ended is read as what the outline says.** -/
theorem readDocument_end {o : Outline} (h : o.EndSound) :
    ∃ references, readDocument (String.ofList (o.top shift false).text) = ⟨o.node, none, references⟩ := by
  have h_parts : (o.top shift false).Fits (-1) true 0 none ∧ (∀ x ∈ (o.top shift false).text, isAllowed x = true) ∧
      (o.top shift false).node = o.node := by
    cases o with
    | leaf text closed content =>
      -- a leaf alone starts in the first column, with no block around it
      refine ⟨fun rest h_rest => ?_, ?_, rfl⟩
      · obtain rfl : rest = [] := h_rest
        rw [gapBehind_end, List.append_nil]
        exact h.reads (-1) 0 true (by decide)
      · rw [top, Layout.text, gapBehind_end, List.append_nil]
        exact h.allowed 2
    | seq items =>
      refine ⟨⟨?_, by decide, Lead.spaces 0 0, fits_endItems items h⟩, allowed_endItems items h,
        congrArg (Node.seq none) (node_endItems items h)⟩
      cases items with
      | nil => exact h.elim
      | cons o items => exact List.cons_ne_nil _ _
    | map fields =>
      refine ⟨⟨?_, by decide, Lead.spaces 0 0, fits_endFields fields h⟩, allowed_endFields fields h,
        congrArg (Node.map none) (node_endFields fields h)⟩
      cases fields with
      | nil => exact h.elim
      | cons f fields => exact List.cons_ne_nil _ _
  obtain ⟨h_fits, h_allowed, h_node⟩ := h_parts
  rw [← h_node]
  exact readDocument_of_fits h_fits h_allowed

end Outline

end Yaml

end ScriptYard
