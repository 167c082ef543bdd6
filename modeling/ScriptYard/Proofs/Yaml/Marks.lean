import ScriptYard.Proofs.Yaml.Quotes
import ScriptYard.Proofs.Yaml.Literals

/-!
# Scalars and marks in a block

A part of a text that stands for tokens in a block is read (`Reads`) where the scanner passes over it and comes to the
next token with these tokens cut and no name of a field in doubt. Scalars are read as the values of fields and as items,
in each of their notations; a scalar on one line is also cut as the name of a field (`Scans`). The marks in front of
items and fields open the block in which they are the first (`Passes.dash`, `Passes.simpleKey`, …).
-/

namespace ScriptYard

namespace Yaml

namespace Scanner

variable {c : Cursor} {indent : ℤ} {outer : List ℤ} {keyAllowed : Bool} {reversed : List Token} {rest : List Char}
  {column next : ℕ}

/-- A text in front of `rest` is read as tokens, from a column of a block on. -/
def Reads (indent : ℤ) (keyAllowed : Bool) (column : ℕ) (cs : List Char) (tokens : List Token) (rest : List Char)
    (next : ℕ) : Prop :=
  ∀ c outer reversed, c.rest = cs ++ rest → c.column = column → ∃ c', c'.rest = rest ∧ c'.column = next ∧
    Passes cs.length (block c indent outer keyAllowed reversed)
      (block c' indent outer true (tokens.reverse ++ reversed))

/-- Spaces may stand in front of what is read. -/
theorem Reads.spaces {k : ℕ} {cs : List Char} {tokens : List Token} (h_cs : AtToken (cs ++ rest))
    (h : Reads indent keyAllowed (column + k) cs tokens rest next) :
    Reads indent keyAllowed column (List.replicate k ' ' ++ cs) tokens rest next := by
  intro c outer reversed h_rest h_column
  have h_rest' : c.rest = List.replicate k ' ' ++ (cs ++ rest) := by simpa using h_rest
  have h_behind := Cursor.skip_rest_of_append h_rest'
  rw [List.length_replicate] at h_behind
  obtain ⟨c', h_c', h_next, h_pass⟩ := h (c.skip k) outer reversed h_behind (by rw [Cursor.skip_column, h_column])
  exact ⟨c', h_c', h_next, ((Passes.spaces h_rest' h_cs).trans h_pass rfl).mono (by simp)⟩

/-- The place where a scalar starts, as one that may be the name of a field. -/
def keyPlace (c : Cursor) (indent : ℤ) (number : ℕ) : KeyPlace :=
  ⟨indent == (c.column : ℤ), number, c.line, c.column, c.index⟩

/-- The place is held where the name of a field may start. -/
def placeOf (c : Cursor) (indent : ℤ) (keyAllowed : Bool) (reversed : List Token) : Option KeyPlace :=
  if keyAllowed then some (keyPlace c indent reversed.length) else none

theorem savePlace_block : (block c indent outer keyAllowed reversed).savePlace =
    some (held c indent outer keyAllowed (placeOf c indent keyAllowed reversed) reversed) := by
  cases keyAllowed <;> rfl

/-- Further in than its block no scalar has to be a name. -/
theorem droppable_placeOf (h : indent < c.column) {line : ℕ} (h_line : c.line ≤ line) :
    Droppable (placeOf c indent keyAllowed reversed) line := by
  intro p h_p
  cases keyAllowed with
  | false => cases h_p
  | true =>
    cases h_p
    refine ⟨?_, h_line⟩
    show (indent == (c.column : ℤ)) = false
    rw [beq_eq_false_iff_ne]
    omega

/-- A token is cut from a text on one line, in front of `tail`. The place of the token is held as a name. -/
def Scans (cs : List Char) (t : Token) (tail : List Char) : Prop :=
  StartsToken cs ∧ ∀ c indent outer keyAllowed reversed, c.rest = cs ++ tail → (indent : ℤ) ≤ c.column →
    c.atDocumentMarker = false → ∃ keyAllowed', ∀ x ∈ cs.head?,
      (block c indent outer keyAllowed reversed).nextToken x =
        some (held (c.skip cs.length) indent outer keyAllowed' (placeOf c indent keyAllowed reversed) (t :: reversed))

theorem startsToken_of_isPlain {cs : List Char} (h : IsPlain cs) (h_mark : cs.head? ≠ some '\ufeff') :
    StartsToken cs := by
  obtain ⟨x, xs, rfl, h_gap, h_opening⟩ := h.starts
  refine ⟨x, xs, rfl, h_gap, ?_, ?_⟩
  · rintro rfl
    cases h_opening
  · rintro rfl
    exact h_mark rfl

theorem AtToken.of_startsToken {cs tail : List Char} (h : StartsToken cs) : AtToken (cs ++ tail) := by
  obtain ⟨x, xs, rfl, h_x⟩ := h
  intro y h_y
  cases h_y
  exact h_x

/-! ### Scalars -/

theorem plainScalar_block {r : ScalarRead} (h : readPlain false (indent + 1).toNat c = some r) :
    (block c indent outer keyAllowed reversed).plainScalar =
      some (held r.cursor indent outer r.endsLine (placeOf c indent keyAllowed reversed)
        (.scalar (String.ofList r.text) .plain :: reversed)) := by
  rw [plainScalar, savePlace_block]
  show (readPlain false (indent + 1).toNat c).bind _ = _
  rw [h]
  rfl

theorem quotedScalar_block {single : Bool} {r : ScalarRead} (h : readQuoted single c = some r) :
    (block c indent outer keyAllowed reversed).quotedScalar single =
      some (held r.cursor indent outer false (placeOf c indent keyAllowed reversed)
        (.scalar (String.ofList r.text) .quoted :: reversed)) := by
  rw [quotedScalar, savePlace_block]
  show (readQuoted single c).bind _ = _
  rw [h]
  rfl

theorem blockScalar_block (outer : List ℤ) (keyAllowed : Bool) (reversed : List Token) {r : ScalarRead} (h : readBlock true indent c = some r) :
    (block c indent outer keyAllowed reversed).blockScalar true =
      some (block r.cursor indent outer true (.scalar (String.ofList r.text) .literal :: reversed)) := by
  rw [blockScalar, dropPlace_block]
  show (readBlock true indent c).bind _ = _
  rw [h]
  rfl

/-- Quotes start a scalar. -/
theorem nextToken_quote (single : Bool) (h_marker : c.atDocumentMarker = false) :
    (block c indent outer keyAllowed reversed).nextToken (quoteMark single) =
      (block c indent outer keyAllowed reversed).quotedScalar single := by
  obtain ⟨h_dash, h_dot⟩ := Bool.or_eq_false_iff.mp h_marker
  have h_cursor : (block c indent outer keyAllowed reversed).cursor = c := rfl
  have h_flow : (block c indent outer keyAllowed reversed).inFlow = false := rfl
  cases single <;> simp [nextToken, quoteMark, h_cursor, h_flow, h_dash, h_dot]

/-- A bar starts a literal block. -/
theorem nextToken_bar (h_marker : c.atDocumentMarker = false) :
    (block c indent outer keyAllowed reversed).nextToken '|' =
      (block c indent outer keyAllowed reversed).blockScalar true := by
  obtain ⟨h_dash, h_dot⟩ := Bool.or_eq_false_iff.mp h_marker
  have h_cursor : (block c indent outer keyAllowed reversed).cursor = c := rfl
  have h_flow : (block c indent outer keyAllowed reversed).inFlow = false := rfl
  simp [nextToken, h_cursor, h_flow, h_dash, h_dot]

/-- A scalar without quotes, at its end or in front of a colon. -/
theorem scans_plain {cs tail : List Char} (h : IsPlain cs) (h_mark : cs.head? ≠ some '\ufeff') (h_tail : EndsWord tail)
    (h_stop : StartsWord tail) : Scans cs (.scalar (String.ofList cs) .plain) tail := by
  refine ⟨startsToken_of_isPlain h h_mark, fun c indent outer keyAllowed reversed h_rest h_column h_marker => ?_⟩
  refine ⟨false, fun x h_x => ?_⟩
  have h_behind := Cursor.skip_rest_of_append h_rest
  have h_read : readPlain false (indent + 1).toNat c = some ⟨cs, c.skip cs.length, false⟩ :=
    readPlain_of_isPlain (fun acc => ⟨acc, c.skip cs.length, false⟩) h h_rest h_tail (by omega)
      fun acc fuel _ => readPlainTail_stop (by rw [h_behind]; exact h_stop)
  rw [nextToken_of_isPlain (s := block c indent outer keyAllowed reversed) h h_rest rfl h_marker h_x,
    plainScalar_block h_read]

/-- A scalar in quotes on one line. -/
theorem scans_quoted {single : Bool} {n : ℕ} {text cs tail : List Char} (h : Quotes single n text cs) (h_n : 0 < n)
    (h_cs : ∀ x ∈ cs, isQuotedGap single x = true → x = ' ') (h_tail : tail.head? ≠ some '\'') :
    Scans (quoteMark single :: (text ++ [quoteMark single])) (.scalar (String.ofList cs) .quoted) tail := by
  have h_starts : StartsToken (quoteMark single :: (text ++ [quoteMark single])) := by
    cases single <;> exact ⟨_, _, rfl, by decide⟩
  refine ⟨h_starts, fun c indent outer keyAllowed reversed h_rest h_column h_marker => ⟨false, fun x h_x => ?_⟩⟩
  obtain rfl : quoteMark single = x := Option.some.inj h_x
  have h_behind : (c.skip 1).rest = text ++ quoteMark single :: tail := by
    rw [Cursor.skip_rest, h_rest]
    simp
  -- on one line each character of the text is one column
  obtain ⟨c', h_read, -, -, h_c'⟩ := readQuotedTail_quotes h h_n h_tail (c.skip 1) [] (c.rest.length + 1) h_behind
    (by rw [Cursor.skip_column]; omega) (by
      have h_le := h.length_le
      rw [h_rest]
      simp
      omega)
  rw [nextToken_quote single h_marker, quotedScalar_block h_read, h_c' h_cs]
  simp [Nat.add_comm 1]

/-- Further in than its block a token with a gap behind it is read, whatever place it holds as a name. -/
theorem reads_of_nextToken {cs gap : List Char} {t : Token} (h_starts : StartsToken cs) (h_gap : Gap.Leads gap rest next)
    (h_column : indent < column) (h_next : ∀ c outer reversed, c.rest = cs ++ (gap ++ rest) → c.column = column →
      ∃ c' keyAllowed', c'.rest = gap ++ rest ∧ c.line ≤ c'.line ∧ ∀ x ∈ cs.head?,
        (block c indent outer keyAllowed reversed).nextToken x =
          some (held c' indent outer keyAllowed' (placeOf c indent keyAllowed reversed) (t :: reversed))) :
    Reads indent keyAllowed column (cs ++ gap) [t] rest next := by
  intro c outer reversed h_rest h_c
  have h_rest' : c.rest = cs ++ (gap ++ rest) := by simpa using h_rest
  obtain ⟨x, xs, rfl, h_x⟩ := h_starts
  obtain ⟨c', keyAllowed', h_c', h_line, h_next⟩ := h_next c outer reversed h_rest' h_c
  -- further in than its block the token is no key that must come
  have h_place : Droppable (placeOf c indent keyAllowed reversed) c'.line := droppable_placeOf (by omega) h_line
  obtain ⟨place, h_place', h_drop⟩ := dropStale_held indent outer keyAllowed' (t :: reversed) h_place
  have h_token : AtToken c.rest := by
    rw [h_rest']
    intro y h_y
    cases h_y
    exact h_x
  have h_pass := Passes.token h_rest' h_token (by omega) (h_next x rfl) h_drop
  obtain ⟨c'', h_c'', h_n, h_gap_pass⟩ := Passes.gap indent outer keyAllowed' (t :: reversed) h_place' h_c' h_gap
  exact ⟨c'', h_c'', h_n, (h_pass.trans h_gap_pass rfl).mono (by simp)⟩

/-- A scalar that is cut on one line is read, and so is one where no marker of a document can stand. -/
theorem reads_of_scans {cs gap : List Char} {t : Token} (h : Scans cs t (gap ++ rest)) (h_gap : Gap.Leads gap rest next)
    (h_column : indent < column) (h_marker : ∀ c : Cursor, c.rest = cs ++ (gap ++ rest) → c.column = column →
      c.atDocumentMarker = false) : Reads indent keyAllowed column (cs ++ gap) [t] rest next := by
  refine reads_of_nextToken h.1 h_gap h_column fun c outer reversed h_rest h_c => ?_
  obtain ⟨keyAllowed', h_next⟩ := h.2 c indent outer keyAllowed reversed h_rest (by omega) (h_marker c h_rest h_c)
  exact ⟨c.skip cs.length, keyAllowed', Cursor.skip_rest_of_append h_rest, Nat.le_refl _, h_next⟩

/-- A scalar without quotes is read with the gap behind it, where the next line does not stand further in. -/
theorem reads_plain {cs gap : List Char} (h : IsPlain cs) (h_mark : cs.head? ≠ some '\ufeff')
    (h_gap : Gap.Leads gap rest next) (h_out : rest ≠ [] → (next : ℤ) ≤ indent) (h_column : indent < column)
    (h_marker : ∀ c : Cursor, c.rest = cs ++ (gap ++ rest) → c.column = column → c.atDocumentMarker = false) :
    Reads indent keyAllowed column (cs ++ gap) [.scalar (String.ofList cs) .plain] rest next := by
  cases h_gap with
  | nothing =>
    have h_scans : Scans cs (.scalar (String.ofList cs) .plain) ([] ++ []) :=
      scans_plain h h_mark (fun x xs h_eq => absurd h_eq.symm (List.cons_ne_nil x xs)) (by simp [StartsWord])
    exact reads_of_scans h_scans .nothing h_column h_marker
  | @line b g _ _ h_b h_g h_rest =>
    intro c outer reversed h_c h_c_column
    have h_c' : c.rest = cs ++ (b :: (g ++ rest)) := by simpa using h_c
    have h_ends : EndsWord (b :: (g ++ rest)) := by
      intro x xs h_eq
      obtain ⟨rfl, -⟩ := List.cons.inj h_eq
      exact .inl (isGap_of_isBreak h_b.1)
    obtain ⟨c', h_line, h_at, h_stop⟩ := readPlainTail_line (indent + 1).toNat
      (Cursor.skip_rest_of_append h_c') h_b h_g h_rest
      fun h_ne => by have h_le := h_out h_ne; omega
    have h_read := readPlain_of_isPlain (fun acc => ⟨acc, c', true⟩) h h_c' h_ends (by omega) h_stop
    obtain ⟨x, xs, h_eq, -⟩ := h.starts
    have h_head : cs.head? = some x := by rw [h_eq]; rfl
    have h_next : (block c indent outer keyAllowed reversed).nextToken x = _ :=
      (nextToken_of_isPlain (s := block c indent outer keyAllowed reversed) h h_c' rfl (h_marker c h_c' h_c_column)
        h_head).trans (plainScalar_block h_read)
    -- the place of the scalar is on the line before
    have h_place : Droppable (placeOf c indent keyAllowed reversed) c.line :=
      droppable_placeOf (by omega) (Nat.le_refl _)
    have h_token : AtToken c.rest := by
      rw [h_c']
      exact AtToken.of_startsToken (startsToken_of_isPlain h h_mark)
    have h_first : c.rest = x :: (xs ++ b :: (g ++ rest)) := by rw [h_c', h_eq]; rfl
    have h_pass := Passes.token h_first h_token (by omega) h_next (dropStale_later h_place
      (by rw [h_line, Cursor.skip_line]; omega))
    have h_pos : 1 ≤ (cs ++ b :: g).length := by simp; omega
    obtain ⟨h_c'_rest, h_n⟩ | ⟨h_c'_rest, h_zero⟩ := h_at
    · exact ⟨c', h_c'_rest, h_n, h_pass.mono h_pos⟩
    · obtain ⟨c'', h_c'', h_n, h_indentation⟩ := Passes.indentation indent outer
        (.scalar (String.ofList cs) .plain :: reversed) (fun p h_p => absurd h_p (Option.not_mem_none p)) h_c'_rest h_zero
        h_g h_rest
      exact ⟨c'', h_c'', h_n, (h_pass.trans h_indentation rfl).mono h_pos⟩

/-- A scalar in quotes is read with the gap behind it, however many lines it takes. -/
theorem reads_quoted {single : Bool} {n : ℕ} {text cs gap : List Char} (h : Quotes single n text cs) (h_n : 0 < n)
    (h_gap : Gap.Leads gap rest next) (h_column : indent < column) :
    Reads indent keyAllowed column (quoteMark single :: (text ++ [quoteMark single]) ++ gap)
      [.scalar (String.ofList cs) .quoted] rest next := by
  have h_mark : isGap (quoteMark single) = false ∧ quoteMark single ≠ '#' ∧ quoteMark single ≠ '\ufeff' ∧
      quoteMark single ≠ '-' ∧ quoteMark single ≠ '.' := by cases single <;> decide
  obtain ⟨h_mark_gap, h_hash, h_order, h_dash, h_dot⟩ := h_mark
  -- a quote behind the closing one would be read as part of the text
  have h_tail : (gap ++ rest).head? ≠ some '\'' := by
    cases h_gap with
    | nothing => simp
    | line h_b =>
      intro h_eq
      rw [Option.some.inj h_eq] at h_b
      exact absurd h_b.1 (by decide)
  refine reads_of_nextToken ⟨_, _, rfl, h_mark_gap, h_hash, h_order⟩ h_gap h_column
    fun c outer reversed h_rest h_c => ?_
  have h_behind : (c.skip 1).rest = text ++ quoteMark single :: (gap ++ rest) := by
    rw [Cursor.skip_rest, h_rest]
    simp
  obtain ⟨c', h_read, h_c', h_line, -⟩ := readQuotedTail_quotes h h_n h_tail (c.skip 1) [] (c.rest.length + 1) h_behind
    (by rw [Cursor.skip_column]; omega) (by
      have h_le := h.length_le
      rw [h_rest]
      simp
      omega)
  refine ⟨c', false, h_c', h_line, fun x h_x => ?_⟩
  obtain rfl : quoteMark single = x := Option.some.inj h_x
  rw [nextToken_quote single (Cursor.atDocumentMarker_of_rest h_rest h_dash h_dot), quotedScalar_block h_read]
  rfl

/-- A literal block is read with the indentation of what follows. -/
theorem reads_literal {given : Bool} {chomping : Chomping} {n : ℕ} {ls gap text : List Char}
    (h_own : ∀ x ∈ ls, isBreak x = true → IsOwnBreak x) (h_tab : ∀ x ∈ ls, x ≠ '\t')
    (h_indent : Indents indent given ls n) (h_end : EndsBlock n (gap ++ rest) rest next)
    (h_last : (∀ x ∈ ls.getLast?, isBreak x = false) → gap ++ rest = [])
    (h_keep : (∀ x ∈ ls, isBreak x = true) → chomping = .keep) (h_column : indent < column)
    (h_text : ∀ u v, EndBreaks ls u v → chomping.leave u v = text) :
    Reads indent keyAllowed column (headerText given chomping ++ '\n' :: (linesText n true ls ++ gap))
      [.scalar (String.ofList text) .literal] rest next := by
  intro c outer reversed h_rest h_c
  have h_rest' : c.rest = headerText given chomping ++ '\n' :: (linesText n true ls ++ (gap ++ rest)) := by
    simpa using h_rest
  obtain ⟨u, v, c', h_uv, ⟨h_c', h_next, h_line⟩, h_read⟩ :=
    readBlock_literal h_own h_tab h_indent h_end h_last h_keep h_rest'
  obtain ⟨xs, h_first⟩ : ∃ xs, c.rest = '|' :: xs := ⟨_, h_rest'⟩
  have h_token := (nextToken_bar (Cursor.atDocumentMarker_of_rest h_first (by decide) (by decide))).trans
    (blockScalar_block outer keyAllowed reversed h_read)
  have h_pass := Passes.token h_first (by rw [h_first]; intro x h_x; cases h_x; decide) (by omega) h_token
    dropStale_block
  rw [h_text u v h_uv] at h_pass
  have h_pos : 1 ≤ (headerText given chomping ++ '\n' :: (linesText n true ls ++ gap)).length := by simp; omega
  -- at the end of the text the block ends with it, else in the column of the next token
  by_cases h_ne : rest = []
  · subst h_ne
    obtain h_starts | ⟨-, rfl⟩ := h_end.arrives
    · obtain ⟨x, xs, h_nil, -⟩ := h_starts
      cases h_nil
    · obtain ⟨c'', h_c'', h_zero, h_end_pass⟩ := Passes.gap indent outer true
        (.scalar (String.ofList text) .literal :: reversed) (droppable_none c'.line) (show c'.rest = [] ++ [] from h_c')
        .nothing
      exact ⟨c'', h_c'', h_zero, (h_pass.trans h_end_pass rfl).mono h_pos⟩
  · exact ⟨c', h_c', h_next h_ne, h_pass.mono h_pos⟩

/-! ### Marks -/

/-- The columns around a block at a column that was entered from another one. -/
def entered (indent : ℤ) (column : ℕ) (outer : List ℤ) : List ℤ :=
  if indent < column then indent :: outer else outer

/-- The tokens with the one that opens a block, where it was entered. -/
def opened (indent : ℤ) (column : ℕ) (t : Token) (reversed : List Token) : List Token :=
  if indent < column then t :: reversed else reversed

theorem entered_self (column : ℕ) (outer : List ℤ) : entered column column outer = outer := if_neg (Int.lt_irrefl _)

theorem opened_self (column : ℕ) (t : Token) (reversed : List Token) : opened column column t reversed = reversed :=
  if_neg (Int.lt_irrefl _)

theorem roll_block {column : ℕ} (h : indent ≤ column) (t : Token) :
    (block c indent outer keyAllowed reversed).roll column reversed.length t =
      block c column (entered indent column outer) keyAllowed (opened indent column t reversed) := by
  unfold roll entered opened
  rw [if_neg (show ¬ (block c indent outer keyAllowed reversed).inFlow = true from Bool.false_ne_true)]
  by_cases h_lt : indent < column
  · rw [if_pos h_lt, if_pos h_lt, if_pos (show (block c indent outer keyAllowed reversed).indent < column from h_lt)]
    simp [block, held, insertAt]
  · obtain rfl : indent = column := by omega
    rw [if_neg h_lt, if_neg h_lt, if_neg (show ¬ (block c _ outer keyAllowed reversed).indent < column from h_lt)]

theorem mark_block (t : Token) (length : ℕ) (keyAllowed' : Bool) :
    (block c indent outer keyAllowed reversed).mark t length keyAllowed' =
      some (block (c.skip length) indent outer keyAllowed' (t :: reversed)) := rfl

/-- In front of a gap a dash is no marker of a document. -/
theorem atDocumentMarker_of_gap {x : Char} {tail : List Char} (h : c.rest = x :: tail)
    (h_tail : Cursor.endsOr isGap tail.head? = true) : c.atDocumentMarker = false := by
  have h_at : c.peekAt 1 = tail.head? := by rw [Cursor.peekAt, h]; cases tail <;> rfl
  have h_ne : ∀ y, isGap y = false → (tail.head? == some y) = false := by
    intro y h_y
    rw [beq_eq_false_iff_ne]
    intro h_eq
    rw [h_eq] at h_tail
    exact absurd (show isGap y = true from h_tail) (by rw [h_y]; decide)
  simp [Cursor.atDocumentMarker, Cursor.atMarker, h_at, h_ne '-' (by decide), h_ne '.' (by decide)]

/-- A mark in front of a gap is cut as a token of its own. -/
theorem nextToken_mark {s : Scanner} {x : Char} {tail : List Char} (h : s.cursor.rest = x :: tail)
    (h_tail : Cursor.endsOr isGap tail.head? = true) (h_flow : s.inFlow = false) (h_x : x = '-' ∨ x = '?' ∨ x = ':') :
    s.nextToken x = if x = '-' then s.blockItem else if x = '?' then s.explicitKey else s.fieldValue := by
  obtain ⟨h_dash, h_dot⟩ := Bool.or_eq_false_iff.mp (atDocumentMarker_of_gap h h_tail)
  have h_at : s.cursor.peekAt 1 = tail.head? := by rw [Cursor.peekAt, h]; cases tail <;> rfl
  obtain rfl | rfl | rfl := h_x <;> simp [nextToken, h_flow, h_dash, h_dot, h_at, h_tail]

/-- At a colon the place that is held becomes a name, in a block of its column. -/
theorem fieldValue_held (c' : Cursor) (outer : List ℤ) (keyAllowed : Bool) (t : Token) (reversed : List Token)
    (h : indent ≤ c.column) :
    (held c' indent outer keyAllowed (some (keyPlace c indent reversed.length)) (t :: reversed)).fieldValue =
      some (block (c'.skip 1) c.column (entered indent c.column outer) false
        (.value :: t :: .key :: opened indent c.column .openBlockMapping reversed)) := by
  unfold entered opened
  by_cases h_lt : indent < c.column
  · have h_two : reversed.length + 1 + 1 - reversed.length = 2 := by omega
    rw [if_pos h_lt, if_pos h_lt]
    simp [fieldValue, held, block, keyPlace, roll, inFlow, insertAt, emitTo, emit, h_lt, h_two]
  · obtain h_eq : indent = c.column := by omega
    rw [if_neg h_lt, if_neg h_lt]
    simp [fieldValue, held, block, keyPlace, roll, inFlow, insertAt, emitTo, emit, h_eq]

namespace Passes

/-- The dash in front of an item. -/
theorem dash (outer : List ℤ) (reversed : List Token) {tail : List Char} (h : c.rest = '-' :: tail) (h_tail : Cursor.endsOr isGap tail.head? = true)
    (h_column : indent ≤ c.column) : Passes 1 (block c indent outer true reversed)
      (block (c.skip 1) c.column (entered indent c.column outer) true
        (.blockItem :: opened indent c.column .openBlockSequence reversed)) := by
  have h_token : AtToken c.rest := by
    rw [h]
    intro x h_x
    cases h_x
    decide
  refine token h h_token h_column ((nextToken_mark h h_tail rfl (.inl rfl)).trans ?_) dropStale_block
  rw [if_pos rfl]
  show ((block c indent outer true reversed).roll c.column reversed.length .openBlockSequence).mark _ _ _ = _
  rw [roll_block h_column, mark_block]

/-- The question mark in front of a name. -/
theorem question (outer : List ℤ) (reversed : List Token) {tail : List Char} (h : c.rest = '?' :: tail) (h_tail : Cursor.endsOr isGap tail.head? = true)
    (h_column : indent ≤ c.column) : Passes 1 (block c indent outer true reversed)
      (block (c.skip 1) c.column (entered indent c.column outer) true
        (.key :: opened indent c.column .openBlockMapping reversed)) := by
  have h_token : AtToken c.rest := by
    rw [h]
    intro x h_x
    cases h_x
    decide
  refine token h h_token h_column ((nextToken_mark h h_tail rfl (.inr (.inl rfl))).trans ?_) dropStale_block
  rw [if_neg (by decide), if_pos rfl]
  show ((block c indent outer true reversed).roll c.column reversed.length .openBlockMapping).mark _ _ _ = _
  rw [roll_block h_column, mark_block]

/-- The colon behind a name with a question mark, in the column of the block. -/
theorem colon (outer : List ℤ) (reversed : List Token) {tail : List Char} (h : c.rest = ':' :: tail) (h_tail : Cursor.endsOr isGap tail.head? = true)
    (h_column : indent = c.column) : Passes 1 (block c indent outer true reversed)
      (block (c.skip 1) indent outer true (.value :: reversed)) := by
  have h_token : AtToken c.rest := by
    rw [h]
    intro x h_x
    cases h_x
    decide
  refine token h h_token (by omega) ((nextToken_mark h h_tail rfl (.inr (.inr rfl))).trans ?_) dropStale_block
  rw [if_neg (by decide), if_neg (by decide)]
  -- the block is open in this column, so no other is opened
  have h_roll : (block c indent outer true reversed).roll c.column reversed.length .openBlockMapping =
      block c indent outer true reversed := by
    rw [roll_block (by omega), entered, opened, if_neg (by omega), if_neg (by omega), h_column]
  show some { ((block c indent outer true reversed).roll c.column reversed.length .openBlockMapping).emitTo .value
    (((block c indent outer true reversed).roll c.column reversed.length .openBlockMapping).cursor.skip 1) with
    keyAllowed := true } = _
  rw [h_roll]
  rfl

/-- A name on one line with the colon behind it. Its place was held, so that the tokens in front of it are put in. -/
theorem simpleKey (outer : List ℤ) (reversed : List Token) {cs tail : List Char} {t : Token} (h : Scans cs t (':' :: tail))
    (h_tail : Cursor.endsOr isGap tail.head? = true) (h_rest : c.rest = cs ++ ':' :: tail) (h_column : indent ≤ c.column)
    (h_marker : c.atDocumentMarker = false) (h_length : cs.length ≤ 1024) :
    Passes (cs.length + 1) (block c indent outer true reversed)
      (block (c.skip (cs.length + 1)) c.column (entered indent c.column outer) false
        (.value :: t :: .key :: opened indent c.column .openBlockMapping reversed)) := by
  obtain ⟨⟨x, xs, rfl, h_x⟩, h_scan⟩ := h
  obtain ⟨keyAllowed', h_next⟩ := h_scan c indent outer true reversed h_rest h_column h_marker
  have h_behind : (c.skip (x :: xs).length).rest = ':' :: tail := Cursor.skip_rest_of_append h_rest
  -- the name is still held at the colon
  have h_fresh : isStale (c.skip (x :: xs).length) (keyPlace c indent reversed.length) = false := by
    rw [isStale, Bool.or_eq_false_iff, decide_eq_false_iff_not, decide_eq_false_iff_not]
    refine ⟨Nat.lt_irrefl _, ?_⟩
    show ¬ c.index + 1024 < c.index + (x :: xs).length
    omega
  have h_name := token h_rest (by rw [h_rest]; intro y h_y; cases h_y; exact h_x) h_column (h_next x rfl)
    (dropStale_fresh h_fresh)
  -- the colon makes it a name
  have h_value := fieldValue_held (c.skip (x :: xs).length) outer keyAllowed' t reversed h_column
  have h_colon := token_held h_behind (by rw [h_behind]; intro y h_y; cases h_y; decide)
    (by rw [Cursor.skip_column]; omega) (dropStale_fresh h_fresh)
    ((nextToken_mark h_behind h_tail rfl (.inr (.inr rfl))).trans h_value) dropStale_block
  rw [Cursor.skip_skip] at h_colon
  exact (h_name.trans h_colon rfl).mono (by simp)

end Passes

end Scanner

end Yaml

end ScriptYard
