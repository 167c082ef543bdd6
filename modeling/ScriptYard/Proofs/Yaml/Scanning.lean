import Mathlib.Data.Nat.Notation
import Mathlib.Data.Int.Notation
import ScriptYard.Yaml.Token

/-!
# Scanning a part of a text

What is said here of the scanner is said of a part of a text, whatever stands behind the part. `Scanner.Cuts` names the
tokens that a scanner cuts in the end, and `Scanner.Passes` leads from one scanner to another one that cuts the same
tokens. A pass carries the length of the part that it passes over, and since no token is empty, this length is fuel
enough for it.

Outside brackets and with no name of a field in doubt a scanner is `Scanner.block`: its place, the columns of the open
blocks, whether a name may start, and the tokens so far. Behind a scalar the place of the scalar may still be held as a
name (`Scanner.held`). Neither the held place nor where in a gap the scanner stands makes a difference to what it cuts
(`Passes.gap`): a gap is a line break, comments on lines of their own, and the indentation of the next line
(`Gap`).
-/

namespace ScriptYard

namespace Yaml

/-! ### Characters -/

theorem isGap_of_isBreak {c : Char} (h : isBreak c = true) : isGap c = true := by
  rw [isGap, h, Bool.or_true]

theorem isBreak_eq_false_of_isGap {c : Char} (h : isGap c = false) : isBreak c = false := by
  rw [isGap, Bool.or_eq_false_iff] at h
  exact h.2

/-- A break that stands for itself or for a line feed, and is not half of another one. -/
def IsLineBreak (b : Char) : Prop := isBreak b = true ∧ b ≠ '\r'

theorem isLineBreak_feed : IsLineBreak '\n' := ⟨rfl, by decide⟩

/-- A text that starts with a token, and not with a gap, a comment or a byte order mark. -/
def StartsToken (rest : List Char) : Prop :=
  ∃ x xs, rest = x :: xs ∧ isGap x = false ∧ x ≠ '#' ∧ x ≠ '\ufeff'

/-- The text behind a gap: a token in some column, or nothing at all. -/
def Arrives (rest : List Char) (column : ℕ) : Prop := StartsToken rest ∨ (rest = [] ∧ column = 0)

/-- The blanks in front of the next token, which stands in some column. Before them there may be comments, each on a
line of its own. -/
inductive Indentation : List Char → ℕ → Prop where
  | spaces (n : ℕ) : Indentation (List.replicate n ' ') n
  | comment {cs g : List Char} {b : Char} {n : ℕ} (h_cs : ∀ x ∈ cs, isBreak x = false) (h_b : IsLineBreak b)
      (h_g : Indentation g n) : Indentation ('#' :: (cs ++ b :: g)) n

/-- What stands behind the contents of a line, and in front of `rest` in some column: the end of the line and
indentation. At the end of the text the line need not end. -/
inductive Gap.Leads : List Char → List Char → ℕ → Prop where
  | line {b : Char} {g rest : List Char} {n : ℕ} (h_b : IsLineBreak b) (h_g : Indentation g n) (h : Arrives rest n) :
      Leads (b :: g) rest n
  | nothing : Leads [] [] 0

/-! ### Places -/

namespace Cursor

variable {c : Cursor}

@[simp] theorem skip_rest (c : Cursor) (n : ℕ) : (c.skip n).rest = c.rest.drop n := rfl

@[simp] theorem skip_column (c : Cursor) (n : ℕ) : (c.skip n).column = c.column + n := rfl

@[simp] theorem skip_line (c : Cursor) (n : ℕ) : (c.skip n).line = c.line := rfl

@[simp] theorem skip_zero (c : Cursor) : c.skip 0 = c := rfl

@[simp] theorem skip_skip (c : Cursor) (m n : ℕ) : (c.skip m).skip n = c.skip (m + n) := by
  simp [skip, Nat.add_assoc]

/-- Behind a text that the place starts with. -/
theorem skip_rest_of_append {cs tail : List Char} (h : c.rest = cs ++ tail) : (c.skip cs.length).rest = tail := by
  rw [skip_rest, h, List.drop_left]

/-- All characters that pass a test are skipped. -/
theorem skipWhile_of_append {test : Char → Bool} {cs tail : List Char} (h : c.rest = cs ++ tail)
    (h_cs : ∀ x ∈ cs, test x = true) (h_tail : ∀ x ∈ tail.head?, test x = false) :
    c.skipWhile test = c.skip cs.length := by
  have h_none : tail.takeWhile test = [] := by
    cases tail with
    | nil => rfl
    | cons x xs => exact List.takeWhile_cons_of_neg (by simp [h_tail x rfl])
  unfold skipWhile
  rw [h, List.takeWhile_append_of_pos h_cs, h_none, List.append_nil]

/-- The place behind a line break. -/
def nextLine (c : Cursor) (rest : List Char) : Cursor := ⟨rest, c.line + 1, 0, c.index + 1⟩

@[simp] theorem nextLine_rest (c : Cursor) (rest : List Char) : (c.nextLine rest).rest = rest := rfl

@[simp] theorem nextLine_column (c : Cursor) (rest : List Char) : (c.nextLine rest).column = 0 := rfl

@[simp] theorem nextLine_line (c : Cursor) (rest : List Char) : (c.nextLine rest).line = c.line + 1 := rfl

/-- What a line break stands for in a scalar. -/
def breakText (b : Char) : List Char := [if b == '\u2028' || b == '\u2029' then b else '\n']

theorem readBreak_eq {b : Char} {rest : List Char} (h : c.rest = b :: rest) (h_b : IsLineBreak b) :
    c.readBreak = (breakText b, c.nextLine rest) := by
  unfold readBreak
  rw [h]
  split
  · next h_eq => exact absurd (List.cons.inj h_eq).1 h_b.2
  · next b' rest' _ h_eq =>
    obtain ⟨rfl, rfl⟩ := List.cons.inj h_eq
    rw [if_pos h_b.1]
    rfl
  · next h_eq => cases h_eq

theorem skipBreak_eq {b : Char} {rest : List Char} (h : c.rest = b :: rest) (h_b : IsLineBreak b) :
    c.skipBreak = c.nextLine rest := by
  unfold skipBreak
  rw [readBreak_eq h h_b]

theorem peek_of_rest {x : Char} {rest : List Char} (h : c.rest = x :: rest) : c.peek = some x := by
  rw [peek, h, List.head?_cons]

theorem peek_of_nil (h : c.rest = []) : c.peek = none := by
  rw [peek, h, List.head?_nil]

theorem skipComment_of_ne (h : c.peek ≠ some '#') : c.skipComment = c := by
  unfold skipComment
  rw [if_neg (by simpa using h)]

/-- No marker stands further in than at the start of a line. -/
theorem atMarker_of_pos (h : 0 < c.column) (mark : Char) : c.atMarker mark = false := by
  have h_column : (c.column == 0) = false := by simp; omega
  rw [atMarker, h_column]
  rfl

theorem atDocumentMarker_of_pos (h : 0 < c.column) : c.atDocumentMarker = false := by
  rw [atDocumentMarker, atMarker_of_pos h, atMarker_of_pos h]
  rfl

/-- A marker is made of dashes or dots. -/
theorem atDocumentMarker_of_rest {x : Char} {rest : List Char} (h : c.rest = x :: rest) (h_dash : x ≠ '-')
    (h_dot : x ≠ '.') : c.atDocumentMarker = false := by
  simp [atDocumentMarker, atMarker, peek_of_rest h, h_dash, h_dot]

/-- A comment reaches to the end of its line. -/
theorem skipComment_of_rest {cs rest : List Char} {b : Char} (h : c.rest = '#' :: (cs ++ b :: rest))
    (h_cs : ∀ x ∈ cs, isBreak x = false) (h_b : isBreak b = true) : c.skipComment = c.skip (cs.length + 1) := by
  unfold skipComment
  rw [peek_of_rest h, if_pos (by decide), skipWhile_of_append (show c.rest = ('#' :: cs) ++ b :: rest from h)]
  · rfl
  · intro x h_x
    obtain rfl | h_x := List.mem_cons.mp h_x
    · decide
    · rw [h_cs x h_x]
      rfl
  · intro x h_x
    obtain rfl : b = x := by simpa using h_x
    rw [h_b]
    rfl

end Cursor

namespace Scanner

variable {s s' s'' : Scanner} {m n : ℕ}

/-! ### What is cut in the end -/

/-- A scanner cuts these tokens without a fault, if it has so much fuel. -/
def Cuts (n : ℕ) (s : Scanner) (tokens : List Token) : Prop := ∀ fuel, n ≤ fuel → run fuel s = (tokens, false)

theorem Cuts.mono {tokens : List Token} (h : Cuts m s tokens) (h_le : m ≤ n) : Cuts n s tokens :=
  fun fuel h_fuel => h fuel (Nat.le_trans h_le h_fuel)

theorem finish_true_snd (s : Scanner) : (s.finish true).2 = true := by
  unfold finish
  rw [if_pos rfl]

/-- Without fuel nothing is cut without a fault. -/
theorem Cuts.pos {tokens : List Token} (h : Cuts n s tokens) : 0 < n := by
  refine Nat.pos_of_ne_zero fun h_zero => ?_
  have h_run := congrArg Prod.snd (h 0 (Nat.le_of_eq h_zero))
  rw [run, finish_true_snd] at h_run
  exact Bool.noConfusion h_run

theorem run_of_advance {fuel : ℕ} (h : s.advance = some (s', false)) : run (fuel + 1) s = run fuel s' := by
  rw [run, h]

/-- A scanner cuts what another one cuts, with fuel for `n` more characters. -/
def Passes (n : ℕ) (s s' : Scanner) : Prop := ∀ m tokens, Cuts m s' tokens → Cuts (m + n) s tokens

namespace Passes

theorem refl (s : Scanner) : Passes 0 s s := fun _ _ h => h

theorem trans {l : ℕ} (h : Passes m s s') (h' : Passes n s' s'') (h_l : l = m + n) : Passes l s s'' := by
  intro k tokens h_cuts
  exact (h _ _ (h' _ _ h_cuts)).mono (by omega)

theorem mono (h : Passes m s s') (h_le : m ≤ n) : Passes n s s' :=
  fun k tokens h_cuts => (h k tokens h_cuts).mono (Nat.add_le_add_left h_le k)

/-- One token. -/
theorem of_advance (h : s.advance = some (s', false)) : Passes 1 s s' := by
  intro m tokens h_cuts fuel h_fuel
  obtain ⟨fuel, rfl⟩ : ∃ more, fuel = more + 1 := ⟨fuel - 1, by omega⟩
  rw [run_of_advance h]
  exact h_cuts fuel (by omega)

/-- No token: the next step ends in the same. -/
theorem of_run (h : ∀ fuel, run (fuel + 1) s = run (fuel + 1) s') : Passes 0 s s' := by
  intro m tokens h_cuts fuel h_fuel
  obtain ⟨fuel, rfl⟩ : ∃ more, fuel = more + 1 := ⟨fuel - 1, by have := h_cuts.pos; omega⟩
  rw [h]
  exact h_cuts (fuel + 1) h_fuel

/-- Two scanners with the same next step pass into each other, up to the tokens that a fault would leave. -/
theorem of_eq (h : s.advance = s'.advance) : Passes 0 s s' := by
  intro m tokens h_cuts fuel h_fuel
  obtain ⟨fuel, rfl⟩ : ∃ more, fuel = more + 1 := ⟨fuel - 1, by have := h_cuts.pos; omega⟩
  have h_run := h_cuts (fuel + 1) h_fuel
  rw [run] at h_run ⊢
  rw [h]
  -- where the step faults, both leave the tokens that they have
  cases h_advance : s'.advance with
  | none =>
    rw [h_advance] at h_run
    have h_fault := congrArg Prod.snd h_run
    rw [finish_true_snd] at h_fault
    exact Bool.noConfusion h_fault
  | some next =>
    obtain ⟨next, last⟩ := next
    rw [h_advance] at h_run
    cases last <;> exact h_run

end Passes

/-! ### Gaps -/

/-- A text whose first character, if there is one, starts a token. -/
def AtToken (rest : List Char) : Prop := ∀ x ∈ rest.head?, isGap x = false ∧ x ≠ '#' ∧ x ≠ '\ufeff'

theorem atToken_of_arrives {rest : List Char} (h : Arrives rest n) : AtToken rest := by
  obtain ⟨x, xs, rfl, h_x⟩ | ⟨rfl, -⟩ := h
  · intro y h_y
    obtain rfl : x = y := by simpa using h_y
    exact h_x
  · intro y h_y
    cases h_y

/-- One line of a gap, where no byte order mark stands in front. -/
theorem skipGaps_succ (fuel : ℕ) (h : s.cursor.peek ≠ some '\ufeff') :
    skipGaps (fuel + 1) s =
      (let c := (s.cursor.skipWhile (fun d => d == ' ' || ((s.inFlow || !s.keyAllowed) && d == '\t'))).skipComment
      match c.peek with
      | some d =>
        if isBreak d then skipGaps fuel { s with cursor := c.skipBreak, keyAllowed := s.keyAllowed || !s.inFlow }
        else { s with cursor := c }
      | none => { s with cursor := c }) := by
  rewrite [skipGaps, if_neg (by simp [h])]
  rfl

/-- Spaces are skipped up to the next token or the end. -/
theorem skipGaps_spaces {k : ℕ} {rest : List Char} (fuel : ℕ) (h : s.cursor.rest = List.replicate k ' ' ++ rest)
    (h_rest : AtToken rest) : skipGaps (fuel + 1) s = { s with cursor := s.cursor.skip k } := by
  -- at a token there is no mark of the byte order, no comment and no break
  have h_mark : s.cursor.peek ≠ some '\ufeff' := by
    rw [Cursor.peek, h]
    cases k with
    | zero => exact fun h_eq => (h_rest _ h_eq).2.2 rfl
    | succ k => exact fun h_eq => absurd (Option.some.inj h_eq) (by decide)
  have h_skip : s.cursor.skipWhile (fun d => d == ' ' || ((s.inFlow || !s.keyAllowed) && d == '\t')) =
      s.cursor.skip k := by
    rw [Cursor.skipWhile_of_append h (fun x h_x => by simp [List.eq_of_mem_replicate h_x]) fun x h_x => ?_,
      List.length_replicate]
    have h_gap := (h_rest x h_x).1
    simp only [isGap, isSpaceOrTab, Bool.or_eq_false_iff] at h_gap
    simp [h_gap.1]
  have h_peek : (s.cursor.skip k).peek = rest.head? := by
    have h_behind := Cursor.skip_rest_of_append h
    rw [List.length_replicate] at h_behind
    rw [Cursor.peek, h_behind]
  have h_comment : (s.cursor.skip k).skipComment = s.cursor.skip k :=
    Cursor.skipComment_of_ne fun h_hash => (h_rest '#' (h_peek ▸ h_hash)).2.1 rfl
  rw [skipGaps_succ fuel h_mark, h_skip]
  dsimp only
  rw [h_comment, h_peek]
  cases h_head : rest.head? with
  | none => rfl
  | some x => simp [isBreak_eq_false_of_isGap (h_rest x h_head).1]

/-- A line break is skipped, and a name may start behind it. -/
theorem skipGaps_break {b : Char} {rest : List Char} (fuel : ℕ) (h : s.cursor.rest = b :: rest) (h_b : IsLineBreak b) :
    skipGaps (fuel + 1) s =
      skipGaps fuel { s with cursor := s.cursor.nextLine rest, keyAllowed := s.keyAllowed || !s.inFlow } := by
  -- a break is none of the characters that are skipped in front of it
  have h_ne : ∀ x, isBreak x = false → b ≠ x := fun x h_x h_eq => by
    rw [← h_eq, h_b.1] at h_x
    cases h_x
  have h_peek : s.cursor.peek = some b := Cursor.peek_of_rest h
  have h_mark : s.cursor.peek ≠ some '\ufeff' := by
    rw [h_peek]
    exact fun h_eq => h_ne _ (by decide) (Option.some.inj h_eq)
  have h_skip : s.cursor.skipWhile (fun d => d == ' ' || ((s.inFlow || !s.keyAllowed) && d == '\t')) = s.cursor := by
    rw [Cursor.skipWhile_of_append (show s.cursor.rest = [] ++ b :: rest from h) (by simp) fun x h_x => ?_]
    · rfl
    · obtain rfl : b = x := by simpa using h_x
      simp [h_ne ' ' (by decide), h_ne '\t' (by decide)]
  have h_comment : s.cursor.skipComment = s.cursor :=
    Cursor.skipComment_of_ne (by rw [h_peek]; exact fun h_eq => h_ne '#' (by decide) (Option.some.inj h_eq))
  rw [skipGaps_succ fuel h_mark, h_skip]
  dsimp only
  rw [h_comment, h_peek]
  dsimp only
  rw [if_pos h_b.1, Cursor.skipBreak_eq h h_b]

/-- A comment is skipped with the break of its line. -/
theorem skipGaps_comment {b : Char} {cs rest : List Char} (fuel : ℕ) (h : s.cursor.rest = '#' :: (cs ++ b :: rest))
    (h_cs : ∀ x ∈ cs, isBreak x = false) (h_b : IsLineBreak b) :
    skipGaps (fuel + 1) s = skipGaps fuel { s with
      cursor := (s.cursor.skip (cs.length + 1)).nextLine rest, keyAllowed := s.keyAllowed || !s.inFlow } := by
  have h_mark : s.cursor.peek ≠ some '\ufeff' := by
    rw [Cursor.peek_of_rest h]
    decide
  have h_skip : s.cursor.skipWhile (fun d => d == ' ' || ((s.inFlow || !s.keyAllowed) && d == '\t')) = s.cursor := by
    rw [Cursor.skipWhile_of_append (show s.cursor.rest = [] ++ '#' :: (cs ++ b :: rest) from h) (by simp) (by simp)]
    rfl
  -- the comment ends in front of the break
  have h_behind : (s.cursor.skip (cs.length + 1)).rest = b :: rest :=
    Cursor.skip_rest_of_append (show s.cursor.rest = ('#' :: cs) ++ b :: rest from h)
  rw [skipGaps_succ fuel h_mark, h_skip]
  dsimp only
  rw [Cursor.skipComment_of_rest h h_cs h_b.1, Cursor.peek_of_rest h_behind]
  dsimp only
  rw [if_pos h_b.1, Cursor.skipBreak_eq h_behind h_b]

/-- Behind a line break the scanner comes to the column of the next token. -/
theorem skipGaps_indentation {g rest : List Char} (h_g : Indentation g n) (h_rest : Arrives rest n) :
    ∀ (s : Scanner) (fuel : ℕ), s.cursor.rest = g ++ rest → s.cursor.column = 0 → s.keyAllowed = true →
      g.length < fuel → ∃ c', c'.rest = rest ∧ c'.column = n ∧ s.cursor.line ≤ c'.line ∧
        skipGaps fuel s = { s with cursor := c' } := by
  -- by the lines of comments in front of the token
  induction h_g with
  | spaces n =>
    intro s fuel h h_column h_key h_fuel
    obtain ⟨fuel, rfl⟩ : ∃ more, fuel = more + 1 := ⟨fuel - 1, by omega⟩
    refine ⟨s.cursor.skip n, ?_, by simp [h_column], Nat.le_refl _, ?_⟩
    · have h_behind := Cursor.skip_rest_of_append h
      rwa [List.length_replicate] at h_behind
    · exact skipGaps_spaces fuel h (atToken_of_arrives h_rest)
  | @comment cs g b n h_cs h_b h_g ih =>
    intro s fuel h h_column h_key h_fuel
    obtain ⟨fuel, rfl⟩ : ∃ more, fuel = more + 1 := ⟨fuel - 1, by omega⟩
    have h' : s.cursor.rest = '#' :: (cs ++ b :: (g ++ rest)) := by simpa using h
    simp only [List.length_cons, List.length_append] at h_fuel
    obtain ⟨c', h_c', h_n, h_line, h_skip⟩ := ih h_rest { s with
      cursor := (s.cursor.skip (cs.length + 1)).nextLine (g ++ rest), keyAllowed := s.keyAllowed || !s.inFlow }
      fuel rfl rfl (by simp [h_key]) (by omega)
    refine ⟨c', h_c', h_n, Nat.le_of_succ_le h_line, ?_⟩
    rw [skipGaps_comment fuel h' h_cs h_b, h_skip]
    simp [h_key]

/-! ### Outside brackets -/

/-- A scanner outside brackets, with a place that may be held as the name of a field. The tokens are given the last one
first. -/
def held (c : Cursor) (indent : ℤ) (outer : List ℤ) (keyAllowed : Bool) (place : Option KeyPlace)
    (reversed : List Token) : Scanner :=
  ⟨c, indent, outer, keyAllowed, place, [], reversed, reversed.length⟩

/-- A scanner outside brackets, with no name of a field in doubt. -/
def block (c : Cursor) (indent : ℤ) (outer : List ℤ) (keyAllowed : Bool) (reversed : List Token) : Scanner :=
  held c indent outer keyAllowed none reversed

theorem start_eq (text : List Char) : start text = block (Cursor.start text) (-1) [] true [] := rfl

variable {c : Cursor} {indent : ℤ} {outer : List ℤ} {keyAllowed : Bool} {place : Option KeyPlace}
  {reversed : List Token}

/-- The columns of blocks and the tokens after all blocks beyond a column are closed. -/
def closed (column : ℤ) : (indent : ℤ) → (outer : List ℤ) → List Token → ℤ × List ℤ × List Token
  | indent, [], ts => if column < indent then (-1, [], .closeBlock :: ts) else (indent, [], ts)
  | indent, i :: outer, ts => if column < indent then closed column i outer (.closeBlock :: ts) else (indent, i :: outer, ts)

theorem closeBlocks_held (column : ℤ) (indent : ℤ) (outer : List ℤ) (reversed : List Token) :
    closeBlocks column outer (held c indent outer keyAllowed place reversed) =
      held c (closed column indent outer reversed).1 (closed column indent outer reversed).2.1 keyAllowed place
        (closed column indent outer reversed).2.2 := by
  -- by the blocks that are open; each one that is closed leaves a token
  induction outer generalizing indent reversed with
  | nil =>
    unfold closeBlocks closed
    by_cases h : column < indent
    · rw [if_pos h, if_pos (show column < (held c indent [] keyAllowed place reversed).indent from h)]
      rfl
    · rw [if_neg h, if_neg (show ¬ column < (held c indent [] keyAllowed place reversed).indent from h)]
  | cons i outer ih =>
    unfold closeBlocks closed
    by_cases h : column < indent
    · rw [if_pos h, if_pos (show column < (held c indent (i :: outer) keyAllowed place reversed).indent from h)]
      exact ih i (.closeBlock :: reversed)
    · rw [if_neg h, if_neg (show ¬ column < (held c indent (i :: outer) keyAllowed place reversed).indent from h)]

theorem unroll_held (column : ℤ) : (held c indent outer keyAllowed place reversed).unroll column =
    held c (closed column indent outer reversed).1 (closed column indent outer reversed).2.1 keyAllowed place
      (closed column indent outer reversed).2.2 :=
  closeBlocks_held column indent outer reversed

theorem closed_of_le {column : ℤ} (h : indent ≤ column) : closed column indent outer reversed =
    (indent, outer, reversed) := by
  cases outer <;> exact if_neg (by omega)

theorem closed_of_lt {column : ℤ} {i : ℤ} (h : column < indent) :
    closed column indent (i :: outer) reversed = closed column i outer (.closeBlock :: reversed) :=
  if_pos h

/-- Closing blocks in two goes comes to the same. -/
theorem closed_closed {column column' : ℤ} (h : column' ≤ column) (indent : ℤ) (outer : List ℤ)
    (reversed : List Token) (h_low : -1 ≤ column') :
    closed column' (closed column indent outer reversed).1 (closed column indent outer reversed).2.1
      (closed column indent outer reversed).2.2 = closed column' indent outer reversed := by
  induction outer generalizing indent reversed with
  | nil =>
    by_cases h_lt : column < indent
    · rw [closed, if_pos h_lt, closed, closed, if_pos (show column' < indent by omega), if_neg (by omega)]
    · rw [show closed column indent [] reversed = (indent, [], reversed) from closed_of_le (by omega)]
  | cons i outer ih =>
    by_cases h_lt : column < indent
    · rw [closed_of_lt h_lt, closed_of_lt (by omega)]
      exact ih i (.closeBlock :: reversed)
    · rw [show closed column indent (i :: outer) reversed = (indent, i :: outer, reversed) from
        closed_of_le (by omega)]

/-- Whether a held place may be given up: it is no name that has to stand there, and it lies on this line or before. -/
def Droppable (place : Option KeyPlace) (line : ℕ) : Prop := ∀ p ∈ place, p.required = false ∧ p.line ≤ line

theorem droppable_none (line : ℕ) : Droppable none line := fun _ h => nomatch h

/-- On a later line a held place is given up. -/
theorem dropStale_later {line : ℕ} (h : Droppable place line) (h_line : line < c.line) :
    (held c indent outer keyAllowed place reversed).dropStale = some (block c indent outer keyAllowed reversed) := by
  cases place with
  | none => rfl
  | some p =>
    obtain ⟨h_required, h_p⟩ := h p rfl
    have h_stale : isStale c p = true := by
      rw [isStale, Bool.or_eq_true, decide_eq_true_eq]
      exact .inl (by omega)
    simp [dropStale, held, block, dropStalePlace, h_stale, h_required]

/-- A held place may stay or be given up, and is no name that has to stand there afterwards either. -/
theorem dropStale_held (indent : ℤ) (outer : List ℤ) (keyAllowed : Bool) (reversed : List Token)
    (h : Droppable place c.line) : ∃ place', Droppable place' c.line ∧
    (held c indent outer keyAllowed place reversed).dropStale =
      some (held c indent outer keyAllowed place' reversed) := by
  cases place with
  | none => exact ⟨none, h, rfl⟩
  | some p =>
    by_cases h_stale : isStale c p = true
    · refine ⟨none, droppable_none _, ?_⟩
      simp [dropStale, held, dropStalePlace, h_stale, (h p rfl).1]
    · refine ⟨some p, h, ?_⟩
      simp [dropStale, held, dropStalePlace, h_stale]

theorem dropPlace_block : (block c indent outer keyAllowed reversed).dropPlace =
    some (block c indent outer keyAllowed reversed) := rfl

/-- A place on the line that is not too far back is held on. -/
theorem dropStale_fresh {p : KeyPlace} (h : isStale c p = false) :
    (held c indent outer keyAllowed (some p) reversed).dropStale =
      some (held c indent outer keyAllowed (some p) reversed) := by
  simp [dropStale, held, dropStalePlace, h]

theorem dropStale_block : (block c indent outer keyAllowed reversed).dropStale =
    some (block c indent outer keyAllowed reversed) := rfl

theorem dropPlace_held {line : ℕ} (h : Droppable place line) :
    (held c indent outer keyAllowed place reversed).dropPlace = some (block c indent outer keyAllowed reversed) := by
  cases place with
  | none => rfl
  | some p => simp [dropPlace, held, block, (h p rfl).1]

theorem atEnd_block : (block c indent outer keyAllowed reversed).atEnd.dropStale =
      some (block c indent outer keyAllowed reversed).atEnd ∧
    (block c indent outer keyAllowed reversed).atEnd.reversed = reversed := by
  unfold atEnd
  split <;> exact ⟨rfl, rfl⟩

theorem end_held {line : ℕ} (h : Droppable place line) :
    ((held c indent outer keyAllowed place reversed).dropPlace.bind fun s =>
      s.atEnd.dropStale.bind fun s => some (s, true)) =
        some ((block c indent outer keyAllowed reversed).atEnd, true) := by
  rw [dropPlace_held h, Option.bind_some, atEnd_block.1]
  rfl

/-- What is cut off where all blocks are closed that end here. -/
def cut (s : Scanner) : Option (Scanner × Bool) :=
  match s.cursor.peek with
  | none => do return (← (← (s.unroll (-1)).dropPlace).atEnd.dropStale, true)
  | some c => do return (← (← s.nextToken c).dropStale, false)

theorem advance_eq (s : Scanner) : s.advance =
    (skipGaps (s.cursor.rest.length + 1) s).dropStale.bind fun s => cut (s.unroll s.cursor.column) := rfl

/-- A scanner that stands at a token or at the end, with a place that it goes on to hold, cuts there at once. -/
theorem advance_held (h : AtToken c.rest) (h_drop : (held c indent outer keyAllowed place reversed).dropStale =
      some (held c indent outer keyAllowed place reversed)) :
    (held c indent outer keyAllowed place reversed).advance =
      cut ((held c indent outer keyAllowed place reversed).unroll c.column) := by
  rw [advance_eq, skipGaps_spaces (k := 0) _ rfl h, Cursor.skip_zero]
  show (held c indent outer keyAllowed place reversed).dropStale.bind _ = _
  rw [h_drop]
  rfl

theorem advance_block (h : AtToken c.rest) : (block c indent outer keyAllowed reversed).advance =
    cut ((block c indent outer keyAllowed reversed).unroll c.column) :=
  advance_held h rfl

/-- Where a token starts in a column of its block or further in, the token is cut. -/
theorem cut_token {x : Char} {rest : List Char} (h : c.rest = x :: rest) (h_column : indent ≤ c.column) :
    cut ((held c indent outer keyAllowed place reversed).unroll c.column) =
      ((held c indent outer keyAllowed place reversed).nextToken x).bind
        (fun s => s.dropStale.map (fun s => (s, false))) := by
  rw [unroll_held, closed_of_le h_column, cut]
  rw [show (held c indent outer keyAllowed place reversed).cursor.peek = some x from Cursor.peek_of_rest h]
  show ((held c indent outer keyAllowed place reversed).nextToken x).bind
    (fun s => s.dropStale.bind (fun s => some (s, false))) = _
  simp only [Option.map_eq_bind, Function.comp_def]

/-- At the end of the text all blocks are closed. -/
theorem run_at_end (fuel : ℕ) (h : c.rest = []) (h_place : Droppable place c.line) :
    run (fuel + 1) (held c indent outer keyAllowed place reversed) =
      ((closed (-1) indent outer reversed).2.2.reverse, false) := by
  obtain ⟨place', h_place', h_drop⟩ := dropStale_held indent outer keyAllowed reversed h_place
  have h_skip : skipGaps (c.rest.length + 1) (held c indent outer keyAllowed place reversed) =
      held c indent outer keyAllowed place reversed :=
    skipGaps_spaces (k := 0) _ rfl (show AtToken c.rest by simp [h, AtToken])
  have h_cut : ∃ s, cut ((held c indent outer keyAllowed place' reversed).unroll c.column) = some (s, true) ∧
      s.reversed = (closed (-1) indent outer reversed).2.2 := by
    -- the cut finds nothing ahead and closes all blocks that are still open
    rw [unroll_held, cut]
    rw [show Cursor.peek (held c _ _ keyAllowed place' _).cursor = none from Cursor.peek_of_nil h, unroll_held,
      closed_closed (show (-1 : ℤ) ≤ c.column by omega) _ _ _ (by omega)]
    exact ⟨_, end_held h_place', atEnd_block.2⟩
  obtain ⟨s, h_cut, h_reversed⟩ := h_cut
  rw [run, advance_eq]
  rw [show (held c indent outer keyAllowed place reversed).cursor.rest.length + 1 = c.rest.length + 1 from rfl, h_skip,
    h_drop, Option.bind_some, show (held c indent outer keyAllowed place' reversed).cursor = c from rfl, h_cut]
  simp [finish, h_reversed]

/-! ### Passing between two tokens -/

namespace Passes

/-- Spaces in front of a token are passed. -/
theorem spaces {k : ℕ} {rest : List Char} (h : c.rest = List.replicate k ' ' ++ rest) (h_rest : AtToken rest) :
    Passes 0 (block c indent outer keyAllowed reversed) (block (c.skip k) indent outer keyAllowed reversed) := by
  refine of_eq ?_
  have h_behind : (c.skip k).rest = rest := by
    have h_behind := Cursor.skip_rest_of_append h
    rwa [List.length_replicate] at h_behind
  rw [advance_block (show AtToken (c.skip k).rest by rw [h_behind]; exact h_rest), advance_eq,
    skipGaps_spaces (s := block c indent outer keyAllowed reversed) _ h h_rest]
  rfl

/-- Indentation behind the end of a line is passed, and the place that was held before is given up. -/
theorem indentation (indent : ℤ) (outer : List ℤ) (reversed : List Token) {g rest : List Char} (h_place : ∀ p ∈ place, p.required = false ∧ p.line < c.line)
    (h : c.rest = g ++ rest) (h_column : c.column = 0) (h_g : Indentation g n) (h_rest : Arrives rest n) :
    ∃ c', c'.rest = rest ∧ c'.column = n ∧
      Passes 0 (held c indent outer true place reversed) (block c' indent outer true reversed) := by
  obtain ⟨c', h_c', h_n, h_line, h_skip⟩ := skipGaps_indentation h_g h_rest
    (held c indent outer true place reversed) (c.rest.length + 1) h h_column rfl
    (by rw [h, List.length_append]; omega)
  refine ⟨c', h_c', h_n, of_eq ?_⟩
  have h_drop : (held c' indent outer true place reversed).dropStale = some (block c' indent outer true reversed) := by
    -- a place on an earlier line is stale
    cases place with
    | none => rfl
    | some p =>
      have h_p := h_place p rfl
      have h_droppable : Droppable (some p) p.line := fun q h_q => by cases h_q; exact ⟨h_p.1, Nat.le_refl _⟩
      exact dropStale_later h_droppable (Nat.lt_of_lt_of_le h_p.2 h_line)
  rw [advance_block (by rw [h_c']; exact atToken_of_arrives h_rest), advance_eq]
  rw [show skipGaps ((held c indent outer true place reversed).cursor.rest.length + 1) _ =
    held c' indent outer true place reversed from h_skip, h_drop]
  rfl

/-- What stands behind the contents of a line is passed, and with it the place that was held on the line. -/
theorem gap (indent : ℤ) (outer : List ℤ) (keyAllowed : Bool) (reversed : List Token) {g rest : List Char}
    (h_place : Droppable place c.line) (h : c.rest = g ++ rest)
    (h_g : Gap.Leads g rest n) : ∃ c', c'.rest = rest ∧ c'.column = n ∧
      Passes 0 (held c indent outer keyAllowed place reversed) (block c' indent outer true reversed) := by
  cases h_g with
  -- at the end of the text both runs close all blocks
  | nothing =>
    refine ⟨c.nextLine [], rfl, rfl, of_run fun fuel => ?_⟩
    rw [run_at_end fuel h h_place, block, run_at_end fuel rfl (droppable_none _)]
  | @line b g _ _ h_b h_indentation h_rest =>
    have h' : c.rest = b :: (g ++ rest) := h
    obtain ⟨c', h_c', h_n, h_pass⟩ := indentation indent outer reversed (c := c.nextLine (g ++ rest))
      (fun p h_p => ⟨(h_place p h_p).1, Nat.lt_succ_of_le (h_place p h_p).2⟩)
      rfl rfl h_indentation h_rest
    refine ⟨c', h_c', h_n, (trans (of_eq ?_) h_pass rfl)⟩
    -- the break is skipped, and what follows is indentation
    have h_skip := skipGaps_break (s := held c indent outer keyAllowed place reversed) c.rest.length h' h_b
    rw [advance_eq, advance_eq]
    rw [show skipGaps ((held c indent outer keyAllowed place reversed).cursor.rest.length + 1) _ = _ from h_skip, h']
    simp [held, inFlow]

/-- A block is closed in front of a token that stands further out, and at the end. -/
theorem close {i : ℤ} (h : AtToken c.rest) (h_column : c.rest ≠ [] → (c.column : ℤ) < indent) (h_indent : -1 < indent) :
    Passes 0 (block c indent (i :: outer) keyAllowed reversed)
      (block c i outer keyAllowed (.closeBlock :: reversed)) := by
  cases h_rest : c.rest with
  | nil =>
    refine of_run fun fuel => ?_
    rw [block, run_at_end fuel h_rest (droppable_none _), block, run_at_end fuel h_rest (droppable_none _),
      closed_of_lt h_indent]
  | cons x xs =>
    have h_lt := h_column (by rw [h_rest]; exact List.cons_ne_nil _ _)
    refine of_eq ?_
    rw [advance_block h, advance_block h, block, unroll_held, block, unroll_held, closed_of_lt h_lt]

/-- A token is cut in a column of its block or further in, by a scanner that holds a place or none. -/
theorem token_held {x : Char} {rest : List Char} {s' s'' : Scanner} (h : c.rest = x :: rest) (h_token : AtToken c.rest)
    (h_column : indent ≤ c.column) (h_held : (held c indent outer keyAllowed place reversed).dropStale =
      some (held c indent outer keyAllowed place reversed))
    (h_next : (held c indent outer keyAllowed place reversed).nextToken x = some s')
    (h_drop : s'.dropStale = some s'') : Passes 1 (held c indent outer keyAllowed place reversed) s'' := by
  refine of_advance ?_
  rw [advance_held h_token h_held, cut_token h h_column, h_next, Option.bind_some, h_drop]
  rfl

theorem token {x : Char} {rest : List Char} {s' s'' : Scanner} (h : c.rest = x :: rest) (h_token : AtToken c.rest)
    (h_column : indent ≤ c.column) (h_next : (block c indent outer keyAllowed reversed).nextToken x = some s')
    (h_drop : s'.dropStale = some s'') : Passes 1 (block c indent outer keyAllowed reversed) s'' :=
  token_held h h_token h_column dropStale_block h_next h_drop

end Passes

end Scanner

end Yaml

end ScriptYard
