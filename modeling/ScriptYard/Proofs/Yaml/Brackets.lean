import ScriptYard.Proofs.Yaml.Marks

/-!
# Lists in brackets

Inside brackets indentation means nothing, and a scalar holds its place as a name that is given up at the comma behind it
(`Inside`). A list of texts in double quotes is read as the tokens of its items with the commas between them
(`reads_list`); an empty array and an empty object are the brackets alone.
-/

namespace ScriptYard

namespace Yaml

namespace Scanner

variable {c : Cursor} {indent : ℤ} {outer : List ℤ} {keyAllowed : Bool} {reversed : List Token} {rest : List Char}
  {column next : ℕ} {s : Scanner}

/-- A scanner inside one pair of brackets, with a place that is held inside and one that is held around. -/
def flow (c : Cursor) (indent : ℤ) (outer : List ℤ) (keyAllowed : Bool) (place around : Option KeyPlace)
    (reversed : List Token) : Scanner :=
  ⟨c, indent, outer, keyAllowed, place, [around], reversed, reversed.length⟩

/-- A scanner inside one pair of brackets that holds no place but such as it may give up. -/
def Inside (c : Cursor) (indent : ℤ) (outer : List ℤ) (keyAllowed : Bool) (reversed : List Token) (s : Scanner) : Prop :=
  ∃ place around, Droppable place c.line ∧ Droppable around c.line ∧ s = flow c indent outer keyAllowed place around reversed

theorem dropStalePlace_of_droppable {place : Option KeyPlace} (h : Droppable place c.line) :
    ∃ place', Droppable place' c.line ∧ dropStalePlace c place = some place' := by
  cases place with
  | none => exact ⟨none, h, rfl⟩
  | some p =>
    by_cases h_stale : isStale c p = true
    · exact ⟨none, droppable_none _, by simp [dropStalePlace, h_stale, (h p rfl).1]⟩
    · exact ⟨some p, h, by simp [dropStalePlace, h_stale]⟩

theorem Inside.dropStale (h : Inside c indent outer keyAllowed reversed s) :
    ∃ s', Inside c indent outer keyAllowed reversed s' ∧ s.dropStale = some s' := by
  obtain ⟨place, around, h_place, h_around, rfl⟩ := h
  obtain ⟨place', h_place', h_drop⟩ := dropStalePlace_of_droppable h_place
  obtain ⟨around', h_around', h_drop'⟩ := dropStalePlace_of_droppable h_around
  exact ⟨_, ⟨place', around', h_place', h_around', rfl⟩, by simp [Scanner.dropStale, flow, h_drop, h_drop']⟩

/-- Spaces inside brackets are skipped, and the next token is cut wherever it stands. -/
theorem Inside.token {k : ℕ} {x : Char} {after : Scanner → Prop} (h : Inside c indent outer keyAllowed reversed s)
    (h_rest : c.rest = List.replicate k ' ' ++ x :: rest) (h_x : isGap x = false ∧ x ≠ '#' ∧ x ≠ '\ufeff')
    (h_next : ∀ s', Inside (c.skip k) indent outer keyAllowed reversed s' →
      ∃ s₁ s₂, s'.nextToken x = some s₁ ∧ s₁.dropStale = some s₂ ∧ after s₂) : ∃ s₂, after s₂ ∧ Passes 1 s s₂ := by
  obtain ⟨place, around, h_place, h_around, rfl⟩ := h
  have h_token : AtToken (x :: rest) := fun y h_y => by cases h_y; exact h_x
  have h_skip := skipGaps_spaces (s := flow c indent outer keyAllowed place around reversed) c.rest.length h_rest h_token
  obtain ⟨s', h_inside, h_drop⟩ := Inside.dropStale (c := c.skip k)
    ⟨place, around, h_place, h_around, (rfl : flow (c.skip k) indent outer keyAllowed place around reversed = _)⟩
  obtain ⟨s₁, s₂, h_cut, h_drop', h_after⟩ := h_next s' h_inside
  obtain ⟨place', around', -, -, rfl⟩ := h_inside
  have h_behind : (c.skip k).rest = x :: rest := by
    have h_behind := Cursor.skip_rest_of_append h_rest
    rwa [List.length_replicate] at h_behind
  refine ⟨s₂, h_after, Passes.of_advance ?_⟩
  -- one step: skip the gap, give up stale places, cut the token, and give up places again
  rw [advance_eq]
  rw [show skipGaps ((flow c indent outer keyAllowed place around reversed).cursor.rest.length + 1) _ =
    flow (c.skip k) indent outer keyAllowed place around reversed from h_skip, h_drop, Option.bind_some]
  show cut (flow (c.skip k) indent outer keyAllowed place' around' reversed) = _
  rw [cut, show (flow (c.skip k) indent outer keyAllowed place' around' reversed).cursor.peek = some x from
    Cursor.peek_of_rest h_behind]
  show Option.bind ((flow (c.skip k) indent outer keyAllowed place' around' reversed).nextToken x)
    (fun s : Scanner => s.dropStale.bind fun s => some (s, false)) = _
  rw [h_cut, Option.bind_some, h_drop']
  rfl

/-- A character that starts no marker of a document. -/
theorem markers_of_peek {x : Char} (h : s.cursor.rest = x :: rest) (h_dash : x ≠ '-') (h_dot : x ≠ '.') :
    s.cursor.atMarker '-' = false ∧ s.cursor.atMarker '.' = false :=
  Bool.or_eq_false_iff.mp (Cursor.atDocumentMarker_of_rest h h_dash h_dot)

/-- The opening brackets with their tokens. -/
def Opens (x : Char) (t : Token) : Prop := (x = '[' ∧ t = .openSequence) ∨ (x = '{' ∧ t = .openMapping)

/-- The closing brackets with their tokens. -/
def Closes (x : Char) (t : Token) : Prop := (x = ']' ∧ t = .closeSequence) ∨ (x = '}' ∧ t = .closeMapping)

/-- An opening bracket. -/
theorem inside_of_open (outer : List ℤ) (keyAllowed : Bool) (reversed : List Token) {x : Char} {t : Token}
    (h_x : Opens x t) (h : c.rest = x :: rest) (h_column : indent < c.column) :
    ∃ s, Inside (c.skip 1) indent outer true (t :: reversed) s ∧
      Passes 1 (block c indent outer keyAllowed reversed) s := by
  have h_around : Droppable (placeOf c indent keyAllowed reversed) (c.skip 1).line :=
    droppable_placeOf h_column (Nat.le_refl _)
  have h_inside : Inside (c.skip 1) indent outer true (t :: reversed)
      (flow (c.skip 1) indent outer true none (placeOf c indent keyAllowed reversed) (t :: reversed)) :=
    ⟨none, _, droppable_none _, h_around, rfl⟩
  obtain ⟨s, h_s, h_drop⟩ := h_inside.dropStale
  have h_next : (block c indent outer keyAllowed reversed).nextToken x = some
      (flow (c.skip 1) indent outer true none (placeOf c indent keyAllowed reversed) (t :: reversed)) := by
    -- both brackets go the same way, each with its own token
    have h_open : (block c indent outer keyAllowed reversed).nextToken x =
        (block c indent outer keyAllowed reversed).openBracket t := by
      obtain ⟨rfl, rfl⟩ | ⟨rfl, rfl⟩ := h_x
      · have h_markers := markers_of_peek (s := block c indent outer keyAllowed reversed) h (by decide) (by decide)
        simp [nextToken, h_markers]
      · have h_markers := markers_of_peek (s := block c indent outer keyAllowed reversed) h (by decide) (by decide)
        simp [nextToken, h_markers]
    rw [h_open, openBracket, savePlace_block]
    rfl
  have h_token : AtToken c.rest := by
    rw [h]
    intro y h_y
    cases h_y
    obtain ⟨rfl, -⟩ | ⟨rfl, -⟩ := h_x <;> decide
  exact ⟨s, h_s, Passes.token h h_token (by omega) h_next h_drop⟩

/-- The comma behind an item. -/
theorem Inside.comma (h : Inside c indent outer keyAllowed reversed s) (h_rest : c.rest = ',' :: rest) :
    ∃ s', Inside (c.skip 1) indent outer true (.comma :: reversed) s' ∧ Passes 1 s s' := by
  refine h.token (k := 0) h_rest (by decide) fun s' h_s' => ?_
  obtain ⟨place, around, h_place, h_around, rfl⟩ := h_s'
  have h_markers := markers_of_peek (s := flow c indent outer keyAllowed place around reversed) h_rest (by decide)
    (by decide)
  have h_next : (flow c indent outer keyAllowed place around reversed).nextToken ',' =
      some (flow (c.skip 1) indent outer true none around (.comma :: reversed)) := by
    have h_mark : (flow c indent outer keyAllowed place around reversed).nextToken ',' =
        (flow c indent outer keyAllowed place around reversed).mark .comma 1 true := by simp [nextToken, h_markers]
    rw [h_mark, mark]
    -- a place that is held is not required, so the comma may drop it
    cases place with
    | none => rfl
    | some p => simp [dropPlace, flow, (h_place p rfl).1, emitTo, emit]
  obtain ⟨s₂, h_s₂, h_drop⟩ := Inside.dropStale
    (⟨none, around, droppable_none _, h_around, rfl⟩ : Inside (c.skip 1) indent outer true (.comma :: reversed) _)
  exact ⟨_, s₂, h_next, h_drop, h_s₂⟩

/-- A text in double quotes, with spaces in front of it. -/
theorem Inside.quoted {k n : ℕ} {text cs : List Char} (h : Inside c indent outer true reversed s)
    (h_quotes : Quotes false n text cs) (h_n : 0 < n)
    (h_rest : c.rest = List.replicate k ' ' ++ '"' :: (text ++ '"' :: rest)) (h_tail : rest.head? ≠ some '\'') :
    ∃ c' s', c'.rest = rest ∧ Inside c' indent outer false (.scalar (String.ofList cs) .quoted :: reversed) s' ∧
      Passes 1 s s' := by
  have h_mark : (c.skip k).rest = '"' :: (text ++ '"' :: rest) := by
    have h_behind := Cursor.skip_rest_of_append h_rest
    rwa [List.length_replicate] at h_behind
  have h_text : ((c.skip k).skip 1).rest = text ++ quoteMark false :: rest := by rw [Cursor.skip_rest, h_mark]; rfl
  obtain ⟨c', h_read, h_c', h_line, -⟩ := readQuotedTail_quotes h_quotes h_n h_tail ((c.skip k).skip 1) []
    ((c.skip k).rest.length + 1) h_text (by simp only [Cursor.skip_column]; omega) (by
      have h_le := h_quotes.length_le
      rw [h_mark]
      simp
      omega)
  suffices h_pass : ∃ s', Inside c' indent outer false (.scalar (String.ofList cs) .quoted :: reversed) s' ∧
      Passes 1 s s' by
    obtain ⟨s', h_s', h_pass⟩ := h_pass
    exact ⟨c', s', h_c', h_s', h_pass⟩
  refine h.token h_rest (by decide) fun s' h_s' => ?_
  obtain ⟨place, around, h_place, h_around, rfl⟩ := h_s'
  have h_markers := markers_of_peek (s := flow (c.skip k) indent outer true place around reversed) h_mark (by decide)
    (by decide)
  -- the place of the text is held until the comma
  have h_held : Droppable (some (⟨false, reversed.length, c.line, c.column + k, c.index + k⟩ : KeyPlace)) c'.line :=
    fun p h_p => by cases h_p; exact ⟨rfl, h_line⟩
  have h_around' : Droppable around c'.line := fun p h_p => ⟨(h_around p h_p).1, Nat.le_trans (h_around p h_p).2 h_line⟩
  have h_next : (flow (c.skip k) indent outer true place around reversed).nextToken '"' =
      some (flow c' indent outer false (some ⟨false, reversed.length, c.line, c.column + k, c.index + k⟩) around
        (.scalar (String.ofList cs) .quoted :: reversed)) := by
    have h_quote : (flow (c.skip k) indent outer true place around reversed).nextToken '"' =
        (flow (c.skip k) indent outer true place around reversed).quotedScalar false := by
      simp [nextToken, h_markers]
    have h_save : (flow (c.skip k) indent outer true place around reversed).savePlace =
        some (flow (c.skip k) indent outer true (some ⟨false, reversed.length, c.line, c.column + k, c.index + k⟩)
          around reversed) := by
      cases place with
      | none => rfl
      | some p => simp [savePlace, dropPlace, flow, (h_place p rfl).1, inFlow, Cursor.skip]
    rw [h_quote, quotedScalar, h_save, Option.bind_eq_bind, Option.bind_some]
    rw [show readQuoted false (flow (c.skip k) indent outer true _ around reversed).cursor = _ from h_read]
    rfl
  obtain ⟨s₂, h_s₂, h_drop⟩ := Inside.dropStale
    (⟨_, around, h_held, h_around', rfl⟩ : Inside c' indent outer false
      (.scalar (String.ofList cs) .quoted :: reversed) _)
  exact ⟨_, s₂, h_next, h_drop, h_s₂⟩

/-- A closing bracket. -/
theorem Inside.close {x : Char} {t : Token} (h_x : Closes x t) (h : Inside c indent outer keyAllowed reversed s)
    (h_rest : c.rest = x :: rest) :
    ∃ place, Droppable place c.line ∧ Passes 1 s (held (c.skip 1) indent outer false place (t :: reversed)) := by
  have h_closed : ∃ s', (∃ place, Droppable place c.line ∧
      s' = held (c.skip 1) indent outer false place (t :: reversed)) ∧ Passes 1 s s' := by
    refine h.token (k := 0) h_rest (by obtain ⟨rfl, -⟩ | ⟨rfl, -⟩ := h_x <;> decide) fun s' h_s' => ?_
    obtain ⟨place, around, h_place, h_around, rfl⟩ := h_s'
    have h_next : (flow c indent outer keyAllowed place around reversed).nextToken x =
        some (held (c.skip 1) indent outer false around (t :: reversed)) := by
      have h_bracket : (flow c indent outer keyAllowed place around reversed).nextToken x =
          (flow c indent outer keyAllowed place around reversed).closeBracket t := by
        obtain ⟨rfl, rfl⟩ | ⟨rfl, rfl⟩ := h_x
        · have h_markers := markers_of_peek (s := flow c indent outer keyAllowed place around reversed) h_rest (by decide)
            (by decide)
          simp [nextToken, h_markers]
        · have h_markers := markers_of_peek (s := flow c indent outer keyAllowed place around reversed) h_rest (by decide)
            (by decide)
          simp [nextToken, h_markers]
      rw [h_bracket, closeBracket]
      -- the innermost place is dropped, and the one around it is held again
      cases place with
      | none => rfl
      | some p => simp [dropPlace, flow, (h_place p rfl).1, emitTo, emit, held]
    obtain ⟨place', h_place', h_drop⟩ := dropStale_held (c := c.skip 1) indent outer false (t :: reversed) h_around
    exact ⟨_, _, h_next, h_drop, place', h_place', rfl⟩
  obtain ⟨s', ⟨place, h_place, rfl⟩, h_pass⟩ := h_closed
  exact ⟨place, h_place, h_pass⟩

/-! ### Lists -/

/-- A text in double quotes. -/
def doubleQuoted (cs : List Char) : List Char := '"' :: (cs.flatMap Page.doubleChar ++ ['"'])

/-- The items of a list behind its opening bracket. -/
def listText : List (List Char) → List Char
  | [] => [']']
  | cs :: [] => doubleQuoted cs ++ [']']
  | cs :: rest => doubleQuoted cs ++ ',' :: ' ' :: listText rest

/-- The tokens of a list behind its opening bracket. -/
def listTokens : List (List Char) → List Token
  | [] => [.closeSequence]
  | cs :: [] => [.scalar (String.ofList cs) .quoted, .closeSequence]
  | cs :: rest => .scalar (String.ofList cs) .quoted :: .comma :: listTokens rest

/-- The items of a list are passed up to the bracket that closes it. -/
theorem Inside.items (cs : List Char) (items : List (List Char)) :
    ∀ {k : ℕ} {c : Cursor} {reversed : List Token} {s : Scanner}, Inside c indent outer true reversed s →
      c.rest = List.replicate k ' ' ++ (listText (cs :: items) ++ rest) →
        ∃ c' place, c'.rest = rest ∧ Droppable place c'.line ∧ Passes (listText (cs :: items)).length s
          (held c' indent outer false place ((listTokens (cs :: items)).reverse ++ reversed)) := by
  induction items generalizing cs with
  | nil =>
    intro k c reversed s h h_rest
    -- an item in quotes, and behind it the closing bracket
    have h_quoted : c.rest = List.replicate k ' ' ++ '"' :: (cs.flatMap Page.doubleChar ++ '"' :: (']' :: rest)) := by
      rw [h_rest]
      simp [listText, doubleQuoted]
    obtain ⟨c₁, s₁, h_c₁, h_s₁, h_pass₁⟩ := h.quoted (quotes_double 1 cs) (by decide) h_quoted (by simp)
    obtain ⟨place, h_place, h_pass₂⟩ := h_s₁.close (.inl ⟨rfl, rfl⟩) h_c₁
    refine ⟨c₁.skip 1, place, by rw [Cursor.skip_rest, h_c₁]; rfl, h_place, (h_pass₁.trans h_pass₂ rfl).mono ?_⟩
    simp [listText, doubleQuoted]
  | cons item items ih =>
    intro k c reversed s h h_rest
    -- an item in quotes, and behind it a comma with a space
    have h_quoted : c.rest = List.replicate k ' ' ++
        '"' :: (cs.flatMap Page.doubleChar ++ '"' :: (',' :: ' ' :: (listText (item :: items) ++ rest))) := by
      rw [h_rest]
      simp [listText, doubleQuoted]
    obtain ⟨c₁, s₁, h_c₁, h_s₁, h_pass₁⟩ := h.quoted (quotes_double 1 cs) (by decide) h_quoted (by simp)
    obtain ⟨s₂, h_s₂, h_pass₂⟩ := h_s₁.comma h_c₁
    obtain ⟨c₃, place, h_c₃, h_place, h_pass₃⟩ := ih item (k := 1) h_s₂ (by rw [Cursor.skip_rest, h_c₁]; rfl)
    refine ⟨c₃, place, h_c₃, h_place, ?_⟩
    have h_pass := ((h_pass₁.trans h_pass₂ rfl).trans h_pass₃ rfl).mono
      (show 1 + 1 + (listText (item :: items)).length ≤ (listText (cs :: item :: items)).length by
        simp [listText, doubleQuoted]
        omega)
    simpa [listTokens] using h_pass

/-- A list of texts in double quotes is read with the gap behind it. -/
theorem reads_list {gap : List Char} (items : List (List Char)) (h_gap : Gap.Leads gap rest next)
    (h_column : indent < column) : Reads indent keyAllowed column ('[' :: listText items ++ gap)
      (.openSequence :: listTokens items) rest next := by
  intro c outer reversed h_rest h_c
  have h_open : c.rest = '[' :: (listText items ++ (gap ++ rest)) := by simpa using h_rest
  obtain ⟨s, h_s, h_pass⟩ := inside_of_open outer keyAllowed reversed (.inl ⟨rfl, rfl⟩) h_open
    (show indent < c.column by omega)
  have h_inside : ∃ c' place, c'.rest = gap ++ rest ∧ Droppable place c'.line ∧ Passes (listText items).length s
      (held c' indent outer false place ((listTokens items).reverse ++ .openSequence :: reversed)) := by
    have h_behind : (c.skip 1).rest = listText items ++ (gap ++ rest) := by rw [Cursor.skip_rest, h_open]; rfl
    -- the brackets may be empty
    cases items with
    | nil =>
      obtain ⟨place, h_place, h_close⟩ := h_s.close (.inl ⟨rfl, rfl⟩) h_behind
      exact ⟨(c.skip 1).skip 1, place, by rw [Cursor.skip_rest, h_behind]; rfl, h_place, h_close⟩
    | cons cs items => exact Inside.items cs items (k := 0) h_s h_behind
  obtain ⟨c', place, h_c', h_place, h_items⟩ := h_inside
  obtain ⟨c'', h_c'', h_n, h_end⟩ := Passes.gap indent outer false ((listTokens items).reverse ++ .openSequence :: reversed)
    h_place h_c' h_gap
  refine ⟨c'', h_c'', h_n, ?_⟩
  have h_all := ((h_pass.trans h_items rfl).trans h_end rfl).mono
    (show 1 + (listText items).length + 0 ≤ ('[' :: listText items ++ gap).length by simp; omega)
  simpa using h_all

/-- An empty object is read with the gap behind it. -/
theorem reads_braces {gap : List Char} (h_gap : Gap.Leads gap rest next) (h_column : indent < column) :
    Reads indent keyAllowed column ('\x7b' :: '\x7d' :: gap) [.openMapping, .closeMapping] rest next := by
  intro c outer reversed h_rest h_c
  have h_open : c.rest = '\x7b' :: '\x7d' :: (gap ++ rest) := h_rest
  obtain ⟨s, h_s, h_pass⟩ := inside_of_open outer keyAllowed reversed (.inr ⟨rfl, rfl⟩) h_open
    (show indent < c.column by omega)
  have h_behind : (c.skip 1).rest = '\x7d' :: (gap ++ rest) := by rw [Cursor.skip_rest, h_open]; rfl
  obtain ⟨place, h_place, h_close⟩ := h_s.close (.inr ⟨rfl, rfl⟩) h_behind
  obtain ⟨c', h_c', h_n, h_end⟩ := Passes.gap indent outer false (.closeMapping :: .openMapping :: reversed)
    (show Droppable place ((c.skip 1).skip 1).line from h_place)
    (show ((c.skip 1).skip 1).rest = gap ++ rest by rw [Cursor.skip_rest, h_behind]; rfl) h_gap
  exact ⟨c', h_c', h_n, ((h_pass.trans h_close rfl).trans h_end rfl).mono (by simp)⟩

end Scanner

end Yaml

end ScriptYard
