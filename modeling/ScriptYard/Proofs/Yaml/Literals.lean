import Mathlib.Data.List.TakeWhile
import ScriptYard.Proofs.Yaml.Words

/-!
# Literal blocks

The lines of a literal block stand further in than what holds the block (`linesText`), and between two of them stand the
line breaks of the text, which all stand for themselves (`IsOwnBreak`). Behind the header (`readBlock_eq`) the reader
comes to the first line with something in it (`readEmptyLines_first`), goes from line to line (`readBlockLines_lines`),
and puts the breaks behind the last line aside (`EndBreaks`): the header says what becomes of them (`Chomping.leave`).
-/

namespace ScriptYard

namespace Yaml

/-- A line break that stands for itself in a block. -/
def IsOwnBreak (b : Char) : Prop := isBreak b = true ∧ b ≠ '\r' ∧ b ≠ '\x85'

theorem IsOwnBreak.isLineBreak {b : Char} (h : IsOwnBreak b) : IsLineBreak b := ⟨h.1, h.2.1⟩

theorem IsOwnBreak.breakText {b : Char} (h : IsOwnBreak b) : Cursor.breakText b = [b] := by
  obtain ⟨h_break, h_return, h_next⟩ := h
  simp only [isBreak, Bool.or_eq_true, beq_iff_eq] at h_break
  obtain (((rfl | rfl) | rfl) | rfl) | rfl := h_break
  · rfl
  · exact absurd rfl h_return
  · exact absurd rfl h_next
  · rfl
  · rfl

/-- The lines of a text, each with its indentation, which an empty line does not have. -/
def linesText (indent : ℕ) : (broken : Bool) → List Char → List Char
  | _, [] => []
  | broken, x :: cs =>
    if isBreak x then x :: linesText indent true cs
    else (if broken then List.replicate indent ' ' else []) ++ x :: linesText indent false cs

theorem length_le_linesText (indent : ℕ) (broken : Bool) (cs : List Char) :
    cs.length ≤ (linesText indent broken cs).length := by
  induction cs generalizing broken with
  | nil => exact Nat.zero_le _
  | cons x cs ih =>
    have h_true := ih true
    have h_false := ih false
    rw [linesText]
    split <;> simp <;> omega

section

variable {indent : ℕ} {w g cs : List Char}

theorem linesText_word (h_w : ∀ x ∈ w, isBreak x = false) :
    linesText indent false (w ++ cs) = w ++ linesText indent false cs := by
  induction w with
  | nil => rfl
  | cons x w ih =>
    rw [List.cons_append, linesText, if_neg (by simp [h_w x (by simp)]), if_neg (by decide),
      ih fun y h_y => h_w y (List.mem_cons_of_mem _ h_y)]
    rfl

theorem linesText_breaks {broken : Bool} (h_ne : g ≠ []) (h_g : ∀ x ∈ g, isBreak x = true) :
    linesText indent broken (g ++ cs) = g ++ linesText indent true cs := by
  induction g generalizing broken with
  | nil => exact absurd rfl h_ne
  | cons x g ih =>
    rw [List.cons_append, linesText, if_pos (h_g x (by simp)), List.cons_append]
    cases g with
    | nil => rfl
    | cons y ys => rw [ih (List.cons_ne_nil _ _) fun z h_z => h_g z (List.mem_cons_of_mem _ h_z)]

theorem linesText_start {x : Char} (h_x : isBreak x = false) :
    linesText indent true (x :: cs) = List.replicate indent ' ' ++ linesText indent false (x :: cs) := by
  simp [linesText, h_x]

end

/-- A text `cs` is `u`, which does not end in a line break, and the line breaks `v` behind it. -/
structure EndBreaks (cs u v : List Char) : Prop where
  eq : cs = u ++ v
  breaks : ∀ x ∈ v, isBreak x = true
  ends : ∀ x ∈ u.getLast?, isBreak x = false

/-- What stands in front of a text that starts with no line break makes no difference to those at its end. -/
theorem EndBreaks.behind {z : Char} {zs u v : List Char} (h : EndBreaks (z :: zs) u v) (h_z : isBreak z = false)
    (g : List Char) : EndBreaks (g ++ z :: zs) (g ++ u) v where
  eq := by rw [h.eq, List.append_assoc]
  breaks := h.breaks
  ends := by
    have h_ne : u ≠ [] := by
      rintro rfl
      rw [h.breaks z (by rw [← List.nil_append v, ← h.eq]; exact List.mem_cons_self)] at h_z
      cases h_z
    rw [List.getLast?_append_of_ne_nil _ h_ne]
    exact h.ends

/-- Where the line breaks at the end of a text begin is plain. -/
theorem EndBreaks.unique {cs u v u' v' : List Char} (h : EndBreaks cs u v) (h' : EndBreaks cs u' v') : u = u' := by
  have h_drop : ∀ {a b : List Char}, EndBreaks cs a b → cs.reverse.dropWhile isBreak = a.reverse := by
    intro a b h
    rw [h.eq, List.reverse_append, List.dropWhile_append_of_pos fun x h_x => h.breaks x (List.mem_reverse.mp h_x)]
    cases h_reverse : a.reverse with
    | nil => rfl
    | cons x xs =>
      have h_x := h.ends x (by rw [← List.head?_reverse, h_reverse]; rfl)
      rw [List.dropWhile_cons_of_neg (by simp [h_x])]
  exact List.reverse_injective ((h_drop h).symm.trans (h_drop h'))

/-! ### Reading lines -/

variable {c : Cursor} {n fuel : ℕ} {g cs rest : List Char}

/-- How far the indentation of a line goes, where it is to be found out or given. -/
def indentationWidth (indent : Option ℕ) (c : Cursor) : ℕ :=
  match indent with
  | none => (c.rest.takeWhile (· == ' ')).length
  | some n => min (c.rest.takeWhile (· == ' ')).length (n - c.column)

/-- One line, empty or not. A tab that could be indentation is a fault. -/
theorem readEmptyLines_succ (indent : Option ℕ) (fuel : ℕ) (breaks : List Char) (widest : ℕ) (c : Cursor) :
    readEmptyLines indent (fuel + 1) breaks widest c =
      (let c' := c.skip (indentationWidth indent c)
      if (match indent with | none => true | some n => decide (c'.column < n)) && c'.peek == some '\t' then none
      else match c'.peek with
        | some d =>
          if isBreak d then readEmptyLines indent fuel (breaks ++ c'.readBreak.1) (max widest c'.column) c'.readBreak.2
          else some (breaks, max widest c'.column, c')
        | none => some (breaks, max widest c'.column, c')) := by
  cases indent <;> rfl

/-- A line that is not empty and starts with no tab ends the empty lines. -/
theorem readEmptyLines_stop {indent : Option ℕ} {breaks : List Char} {widest : ℕ}
    (h : ∀ x ∈ (c.skip (indentationWidth indent c)).peek, isBreak x = false ∧ x ≠ '\t') :
    readEmptyLines indent (fuel + 1) breaks widest c =
      some (breaks, max widest (c.column + indentationWidth indent c), c.skip (indentationWidth indent c)) := by
  have h_tab : ((c.skip (indentationWidth indent c)).peek == some '\t') = false := by
    rw [beq_eq_false_iff_ne]
    exact fun h_eq => (h '\t' h_eq).2 rfl
  rw [readEmptyLines_succ]
  dsimp only
  rw [h_tab, Bool.and_false, if_neg (by decide)]
  cases h_peek : (c.skip (indentationWidth indent c)).peek with
  | none => rfl
  | some x => simp [(h x h_peek).1]

theorem readEmptyLines_break {indent : Option ℕ} {breaks : List Char} {widest : ℕ} {b : Char} (h_b : IsOwnBreak b)
    (h : c.rest = b :: rest) : readEmptyLines indent (fuel + 1) breaks widest c =
      readEmptyLines indent fuel (breaks ++ [b]) (max widest c.column) (c.nextLine rest) := by
  have h_ne : ∀ x, isBreak x = false → b ≠ x := by
    rintro x h_x rfl
    rw [h_b.1] at h_x
    cases h_x
  -- the line is empty: no spaces to skip, no tab to refuse
  have h_none : indentationWidth indent c = 0 := by
    have h_zero : (c.rest.takeWhile (· == ' ')).length = 0 := by rw [h]; simp [h_ne ' ' (by decide)]
    cases indent <;> simp [indentationWidth, h_zero]
  have h_tab : (c.peek == some '\t') = false := by
    rw [Cursor.peek_of_rest h]
    simpa using h_ne '\t' (by decide)
  rw [readEmptyLines_succ, h_none, Cursor.skip_zero]
  dsimp only
  rw [h_tab, Bool.and_false, if_neg (by decide), Cursor.peek_of_rest h]
  dsimp only
  rw [if_pos h_b.1, Cursor.readBreak_eq h h_b.isLineBreak, h_b.breakText]

theorem readEmptyLines_breaks (indent : Option ℕ) (h_g : ∀ x ∈ g, IsOwnBreak x) (breaks : List Char) (widest : ℕ)
    (h : c.rest = g ++ rest) (h_column : c.column = 0) : ∃ c', c'.rest = rest ∧ c'.column = 0 ∧ c.line ≤ c'.line ∧
      ∀ fuel, readEmptyLines indent (fuel + g.length) breaks widest c =
        readEmptyLines indent fuel (breaks ++ g) widest c' := by
  induction g generalizing c breaks with
  | nil => exact ⟨c, h, h_column, Nat.le_refl _, fun fuel => by simp⟩
  | cons b g ih =>
    have h' : c.rest = b :: (g ++ rest) := h
    obtain ⟨c', h_rest, h_zero, h_line, h_read⟩ := ih (fun x h_x => h_g x (List.mem_cons_of_mem _ h_x))
      (c := c.nextLine (g ++ rest)) (breaks ++ [b]) rfl rfl
    refine ⟨c', h_rest, h_zero, Nat.le_of_succ_le h_line, fun fuel => ?_⟩
    rw [List.length_cons, ← Nat.add_assoc, readEmptyLines_break (h_g b (by simp)) h', h_column, Nat.max_zero, h_read]
    simp

/-- Behind empty lines the reader comes to a line that is indented far enough, or to what stands behind the block. -/
theorem readEmptyLines_given {k : ℕ} (breaks : List Char) (widest : ℕ) (h_g : ∀ x ∈ g, IsOwnBreak x)
    (h : c.rest = g ++ (List.replicate k ' ' ++ rest)) (h_column : c.column = 0) (h_k : k ≤ n)
    (h_rest : ∀ x ∈ rest.head?, isBreak x = false ∧ x ≠ '\t' ∧ (x = ' ' → k = n)) :
    ∃ c' widest', c'.rest = rest ∧ c'.column = k ∧ c.line ≤ c'.line ∧
      readEmptyLines (some n) (c.rest.length + 1) breaks widest c = some (breaks ++ g, widest', c') := by
  obtain ⟨c', h_c', h_zero, h_line, h_read⟩ := readEmptyLines_breaks (some n) h_g breaks widest h h_column
  -- `k` spaces, and more only if `k` is all that the indentation takes
  have h_width : indentationWidth (some n) c' = k := by
    have h_take : (c'.rest.takeWhile (· == ' ')).length =
        k + (rest.takeWhile (· == ' ')).length := by
      rw [h_c', List.takeWhile_append_of_pos (fun x h_x => by simp [List.eq_of_mem_replicate h_x]), List.length_append,
        List.length_replicate]
    rw [indentationWidth, h_take, h_zero]
    cases rest with
    | nil => simp [h_k]
    | cons x xs =>
      by_cases h_x : x = ' '
      · have h_eq := (h_rest x rfl).2.2 h_x
        omega
      · simp [h_x, h_k]
  have h_behind : (c'.skip k).rest = rest := by
    have h_behind := Cursor.skip_rest_of_append h_c'
    rwa [List.length_replicate] at h_behind
  refine ⟨c'.skip k, max widest (c'.column + k), h_behind, by simp [h_zero], h_line, ?_⟩
  rw [show c.rest.length + 1 = k + rest.length + 1 + g.length by rw [h]; simp; omega, h_read, readEmptyLines_stop]
  · rw [h_width]
  · rw [h_width, Cursor.peek, h_behind]
    exact fun x h_x => ⟨(h_rest x h_x).1, (h_rest x h_x).2.1⟩

/-- What stands behind the lines of a block: indentation that does not go so far, and a token or the end. -/
structure EndsBlock (n : ℕ) (tail rest : List Char) (next : ℕ) : Prop where
  tail_eq : tail = List.replicate next ' ' ++ rest
  next_lt : next < n
  arrives : Arrives rest next

theorem Arrives.head {next : ℕ} (h : Arrives rest next) : ∀ x ∈ rest.head?, isBreak x = false ∧ x ≠ '\t' ∧ x ≠ ' ' := by
  intro x h_x
  have h_gap := h.startsWord x h_x
  refine ⟨isBreak_eq_false_of_isGap h_gap, ?_, ?_⟩
  · rintro rfl
    cases h_gap
  · rintro rfl
    cases h_gap

/-- The reader has gone on to what stands behind the block, in the column of that if it is not the end. -/
structure Reaches (c c' : Cursor) (rest : List Char) (next : ℕ) : Prop where
  rest_eq : c'.rest = rest
  column_eq : rest ≠ [] → c'.column = next
  line_le : c.line ≤ c'.line

/-- Empty lines behind which the block ends. -/
theorem readEmptyLines_end {tail : List Char} {next : ℕ} (h_end : EndsBlock n tail rest next)
    (h_g : ∀ x ∈ g, IsOwnBreak x) (h : c.rest = g ++ tail) (h_column : c.column = 0) :
    ∃ c' widest, Reaches c c' rest next ∧ c'.column ≠ n ∧
      readEmptyLines (some n) (c.rest.length + 1) [] 0 c = some (g, widest, c') := by
  rw [h_end.tail_eq] at h
  obtain ⟨c', widest, h_c', h_next, h_line, h_read⟩ := readEmptyLines_given [] 0 h_g h h_column
    (Nat.le_of_lt h_end.next_lt) fun z h_z => by
      obtain ⟨h_break, h_tab, h_space⟩ := h_end.arrives.head z h_z
      exact ⟨h_break, h_tab, fun h_eq => absurd h_eq h_space⟩
  exact ⟨c', widest, ⟨h_c', fun _ => h_next, h_line⟩, h_next ▸ Nat.ne_of_lt h_end.next_lt, h_read⟩

/-- Empty lines behind which another line of the block starts. -/
theorem readEmptyLines_line {z : Char} {zs tail : List Char} (h_g : ∀ x ∈ g, IsOwnBreak x) (h_z : isBreak z = false)
    (h_tab : z ≠ '\t') (h : c.rest = g ++ (linesText n true (z :: zs) ++ tail)) (h_column : c.column = 0) :
    ∃ c' widest, c'.rest = linesText n false (z :: zs) ++ tail ∧ c'.column = n ∧ c.line ≤ c'.line ∧
      readEmptyLines (some n) (c.rest.length + 1) [] 0 c = some (g, widest, c') := by
  have h_first : (linesText n false (z :: zs) ++ tail).head? = some z := by
    rw [linesText, if_neg (by simp [h_z]), if_neg (by decide)]
    rfl
  rw [linesText_start h_z, List.append_assoc] at h
  refine readEmptyLines_given [] 0 h_g h h_column (Nat.le_refl n) fun x h_x => ?_
  obtain rfl : z = x := Option.some.inj (h_first.symm.trans h_x)
  exact ⟨h_z, h_tab, fun _ => rfl⟩

/-- The text of the lines read so far, with all that stands between the last of them and the next. -/
def BlockText.all (b : BlockText) : List Char := b.text ++ b.last ++ b.empty

theorem BlockText.join_literal (b : BlockText) (startsBlank : Bool) : b.join true startsBlank = b.all := rfl

/-- One line of a block, and those behind it. -/
theorem readBlockLines_eq (literal : Bool) (indent fuel : ℕ) (b : BlockText) (c : Cursor) :
    readBlockLines literal indent (fuel + 1) b c =
      if c.column == indent && !c.rest.isEmpty then do
        let startsBlank := c.peek.any isSpaceOrTab
        let text := b.join literal startsBlank
        let line := c.rest.takeWhile (fun d => !isBreak d)
        let (last, c) := (c.skip line.length).readBreak
        let (empty, _, c) ← readEmptyLines (some indent) (c.rest.length + 1) [] 0 c
        readBlockLines literal indent fuel ⟨text ++ line, last, empty, startsBlank⟩ c
      else some (b, c) := by
  rewrite [readBlockLines]
  cases c.peek <;> rfl

/-- A line of a literal block is read with the break behind it and the empty lines that follow. -/
theorem readBlockLines_succ (b : BlockText) (fuel : ℕ) {l tail breaks : List Char} {c' : Cursor} {widest : ℕ} {x : Char}
    (h_column : c.column = n) (h : c.rest = l ++ x :: tail) (h_l : ∀ y ∈ l, isBreak y = false) (h_x : IsOwnBreak x)
    (h_read : readEmptyLines (some n) (tail.length + 1) [] 0 ((c.skip l.length).nextLine tail) =
      some (breaks, widest, c')) :
    ∃ startsBlank, readBlockLines true n (fuel + 1) b c =
      readBlockLines true n fuel ⟨b.all ++ l, [x], breaks, startsBlank⟩ c' := by
  have h_line : c.rest.takeWhile (fun d => !isBreak d) = l := by
    rw [h, List.takeWhile_append_of_pos fun y h_y => by simp [h_l y h_y]]
    simp [h_x.1]
  have h_ne : c.rest.isEmpty = false := by rw [h]; simp
  have h_break := Cursor.readBreak_eq (Cursor.skip_rest_of_append h) h_x.isLineBreak
  rw [h_x.breakText] at h_break
  refine ⟨c.peek.any isSpaceOrTab, ?_⟩
  rw [readBlockLines_eq, h_column, h_ne]
  simp only [beq_self_eq_true, Bool.not_false, Bool.and_self, if_true, h_line, h_break, Cursor.nextLine_rest, h_read,
    Option.bind_eq_bind, Option.bind_some, BlockText.join_literal]

/-- A line that does not stand in the column of the block ends it, as the end of the text does. -/
theorem readBlockLines_stop (b : BlockText) (fuel : ℕ) (h : c.column ≠ n ∨ c.rest = []) :
    readBlockLines true n fuel b c = some (b, c) := by
  cases fuel with
  | zero => rfl
  | succ fuel =>
    have h_stop : (c.column == n && !c.rest.isEmpty) = false := by
      obtain h | h := h
      · simp [h]
      · simp [h]
    rw [readBlockLines, h_stop]
    rfl

/-- The last line of a text that has no break at its end. -/
theorem readBlockLines_last (b : BlockText) (fuel : ℕ) (h_column : c.column = n) (h_ne : c.rest ≠ [])
    (h : ∀ y ∈ c.rest, isBreak y = false) : ∃ startsBlank, readBlockLines true n (fuel + 1) b c =
      some (⟨b.all ++ c.rest, [], [], startsBlank⟩, c.skip c.rest.length) := by
  have h_line : c.rest.takeWhile (fun d => !isBreak d) = c.rest :=
    List.takeWhile_eq_self_iff.mpr fun y h_y => by simp [h y h_y]
  have h_behind : (c.skip c.rest.length).rest = [] := by rw [Cursor.skip_rest, List.drop_length]
  have h_break : (c.skip c.rest.length).readBreak = ([], c.skip c.rest.length) := by
    rw [Cursor.readBreak, h_behind]
  have h_width : indentationWidth (some n) (c.skip c.rest.length) = 0 := by
    rw [indentationWidth, h_behind]
    exact Nat.zero_min _
  have h_read : readEmptyLines (some n) ((c.skip c.rest.length).rest.length + 1) [] 0 (c.skip c.rest.length) =
      some ([], max 0 (c.column + c.rest.length + 0), c.skip c.rest.length) := by
    rw [readEmptyLines_stop, h_width, Cursor.skip_zero]
    · rfl
    · rw [h_width, Cursor.skip_zero, Cursor.peek_of_nil h_behind]
      exact fun x h_x => nomatch h_x
  -- behind the line the text is at its end, so the next round stops
  refine ⟨c.peek.any isSpaceOrTab, ?_⟩
  rw [readBlockLines_eq, h_column, List.isEmpty_eq_false_iff.mpr h_ne]
  simp only [beq_self_eq_true, Bool.not_false, Bool.and_self, if_true, h_line, h_break, h_read,
    Option.bind_eq_bind, Option.bind_some, BlockText.join_literal, readBlockLines_stop _ fuel (.inr h_behind)]

/-- The lines of a literal block are read one by one, and the breaks behind the last one are put aside. -/
theorem readBlockLines_lines {tail : List Char} {next : ℕ} (h : Spaced isBreak cs)
    (h_own : ∀ x ∈ cs, isBreak x = true → IsOwnBreak x) (h_tab : ∀ x ∈ cs, x ≠ '\t') (h_end : EndsBlock n tail rest next)
    (h_last : (∀ x ∈ cs.getLast?, isBreak x = false) → tail = []) :
    ∀ (c : Cursor) (b : BlockText) (fuel : ℕ), c.column = n → c.rest = linesText n false cs ++ tail →
      (∃ x ∈ cs.head?, isBreak x = false) → cs.length < fuel →
        ∃ u v startsBlank c', EndBreaks cs u v ∧ Reaches c c' rest next ∧
          readBlockLines true n fuel b c = some (⟨b.all ++ u, v.take 1, v.drop 1, startsBlank⟩, c') := by
  -- line by line, each with the breaks behind it
  induction h with
  | @word w h_w =>
    intro c b fuel h_column h_rest ⟨x, h_x, _⟩ h_fuel
    obtain ⟨fuel, rfl⟩ : ∃ more, fuel = more + 1 := ⟨fuel - 1, by omega⟩
    have h_ends : ∀ x ∈ w.getLast?, isBreak x = false := fun y h_y => h_w y (List.mem_of_getLast? h_y)
    -- a line without a break behind it is the end of the text
    have h_nil := h_last h_ends
    have h_end_nil : rest = [] := by
      have h_eq := h_end.tail_eq
      rw [h_nil] at h_eq
      exact (List.append_eq_nil_iff.mp h_eq.symm).2
    have h_line : c.rest = w := by
      rw [h_rest, h_nil, ← List.append_nil w, linesText_word h_w]
      simp [linesText]
    have h_ne : c.rest ≠ [] := by
      rw [h_line]
      rintro rfl
      cases h_x
    obtain ⟨startsBlank, h_read⟩ := readBlockLines_last b fuel h_column h_ne (h_line ▸ h_w)
    refine ⟨w, [], startsBlank, c.skip c.rest.length, ⟨by simp, by simp, h_ends⟩,
      ⟨?_, fun h => absurd h_end_nil h, Nat.le_refl _⟩, ?_⟩
    · rw [h_end_nil, Cursor.skip_rest, List.drop_length]
    · rw [h_read, h_line]
      rfl
  | @more w g cs h_w h_g h_breaks h_cs h_spaced ih =>
    intro c b fuel h_column h_rest ⟨x, h_x, h_x_break⟩ h_fuel
    obtain ⟨fuel, rfl⟩ : ∃ more, fuel = more + 1 := ⟨fuel - 1, by omega⟩
    obtain ⟨y, g, rfl⟩ := List.exists_cons_of_ne_nil h_g.1
    have h_y : IsOwnBreak y := h_own y (by simp) (h_breaks y (by simp))
    have h_g_own : ∀ z ∈ g, IsOwnBreak z := fun z h_z => h_own z (by simp [h_z]) (h_breaks z (by simp [h_z]))
    have h_rest' : c.rest = w ++ y :: (g ++ (linesText n true cs ++ tail)) := by
      rw [h_rest, linesText_word h_w, linesText_breaks (List.cons_ne_nil _ _) h_breaks]
      simp
    cases cs with
    | nil =>
      -- the last line
      obtain ⟨c', widest, h_reach, h_ne, h_read⟩ := readEmptyLines_end h_end h_g_own
        (c := (c.skip w.length).nextLine (g ++ (linesText n true [] ++ tail))) rfl rfl
      obtain ⟨startsBlank, h_lines⟩ := readBlockLines_succ b fuel h_column h_rest' h_w h_y h_read
      refine ⟨w, y :: g, startsBlank, c', ⟨by simp, h_breaks, fun z h_z => h_w z (List.mem_of_getLast? h_z)⟩,
        ⟨h_reach.rest_eq, h_reach.column_eq, Nat.le_of_succ_le h_reach.line_le⟩, ?_⟩
      rw [h_lines, readBlockLines_stop _ fuel (.inl h_ne)]
      rfl
    | cons z zs =>
      have h_z : isBreak z = false := h_cs z rfl
      obtain ⟨c', widest, h_c', h_next, h_line, h_read⟩ := readEmptyLines_line h_g_own h_z (h_tab z (by simp))
        (c := (c.skip w.length).nextLine (g ++ (linesText n true (z :: zs) ++ tail))) rfl rfl
      obtain ⟨startsBlank, h_lines⟩ := readBlockLines_succ b fuel h_column h_rest' h_w h_y h_read
      -- the lines behind it
      obtain ⟨u, v, startsBlank', c'', h_ends, h_reach, h_lines'⟩ :=
        ih (fun x h_x => h_own x (by simp at h_x ⊢; tauto)) (fun x h_x => h_tab x (by simp at h_x ⊢; tauto))
          (fun h_nonbreak => h_last (by
            rwa [List.getLast?_append_of_ne_nil _ (by simp), List.getLast?_append_of_ne_nil _ (by simp)]))
          c' ⟨b.all ++ w, [y], g, startsBlank⟩ fuel h_next h_c' ⟨z, rfl, h_z⟩
          (by simp only [List.length_append, List.length_cons] at h_fuel ⊢; omega)
      refine ⟨w ++ (y :: g) ++ u, v, startsBlank', c'', ?_,
        ⟨h_reach.rest_eq, h_reach.column_eq, Nat.le_trans (Nat.le_of_succ_le h_line) h_reach.line_le⟩, ?_⟩
      · rw [← List.append_assoc]
        exact h_ends.behind h_z (w ++ y :: g)
      · rw [h_lines, h_lines']
        simp [BlockText.all]

theorem unmixed_breaks (cs : List Char) : Unmixed isBreak cs := by
  refine ⟨fun x _ h_x => .inr h_x, hasPair_eq_false fun a b _ _ => ?_⟩
  cases h_a : isBreak a with
  | false => rfl
  | true =>
    cases h_b : isBreak b with
    | false => rfl
    | true =>
      -- a break is not a space, so two breaks in a row do not differ in that
      have h_ne : ∀ {x}, isBreak x = true → (x == ' ') = false := fun h_x => by
        rw [beq_eq_false_iff_ne]
        rintro rfl
        cases h_x
      rw [h_ne h_a, h_ne h_b]
      rfl

/-! ### Headers -/

def Chomping.mark : Chomping → List Char
  | .strip => ['-']
  | .clip => []
  | .keep => ['+']

/-- What a chomping leaves of a text and the line breaks behind it. -/
def Chomping.leave : Chomping → List Char → List Char → List Char
  | .strip, u, _ => u
  | .clip, u, v => u ++ v.take 1
  | .keep, u, v => u ++ v

/-- The header of a literal block, with or without the width of its indentation. -/
def headerText (given : Bool) (chomping : Chomping) : List Char :=
  '|' :: ((if given then ['2'] else []) ++ chomping.mark)

/-- No mark of a header stands at the end of a line. -/
theorem header_ends {tail : List Char} (h_tail : ∀ x ∈ tail.head?, isBreak x = true) :
    tail.head?.bind Chomping.ofChar? = none ∧
      ∀ x ∈ tail.head?, (x == '0') = false ∧ x.isDigit = false := by
  have h_ne : ∀ x, isBreak x = false → tail.head? ≠ some x := fun x h_x h_head => by
    rw [h_tail x h_head] at h_x
    cases h_x
  refine ⟨?_, fun x h_x => ⟨?_, ?_⟩⟩
  · cases h_head : tail.head? with
    | none => rfl
    | some x =>
      rw [Option.bind_some]
      -- neither mark is a line break
      unfold Chomping.ofChar?
      split
      · exact absurd h_head (h_ne '+' (by decide))
      · exact absurd h_head (h_ne '-' (by decide))
      · rfl
  · rw [beq_eq_false_iff_ne]
    rintro rfl
    exact h_ne '0' (by decide) h_x
  · have h_break := h_tail x h_x
    simp only [isBreak, Bool.or_eq_true, beq_iff_eq] at h_break
    obtain (((rfl | rfl) | rfl) | rfl) | rfl := h_break <;> decide

theorem readBlockHeader_eq {given : Bool} {chomping : Chomping} {tail : List Char}
    (h : c.rest = ((if given then ['2'] else []) ++ chomping.mark) ++ tail)
    (h_tail : ∀ x ∈ tail.head?, isBreak x = true) :
    readBlockHeader c = some (chomping, if given then some 2 else none,
      c.skip ((if given then ['2'] else []) ++ chomping.mark).length) := by
  obtain ⟨h_mark, h_digit⟩ := header_ends h_tail
  have h_at : ∀ k, (c.skip k).peek = ((((if given then ['2'] else []) ++ chomping.mark) ++ tail).drop k).head? :=
    fun k => by rw [Cursor.peek, Cursor.skip_rest, h]
  -- the two characters that the reader looks at
  have h_first := h_at 0
  have h_second := h_at 1
  rw [Cursor.skip_zero] at h_first
  cases h_head : tail.head? with
  | none =>
    cases given <;> cases chomping <;>
      simp_all [readBlockHeader, Chomping.ofChar?, Chomping.mark, Char.isDigit]
  | some x =>
    obtain ⟨h_zero, h_nine⟩ := h_digit x h_head
    rw [h_head] at h_mark
    cases given <;> cases chomping <;>
      simp_all [readBlockHeader, Chomping.mark] <;> rfl

/-- The column of the lines, where a header gives it. -/
def headerIndent (outer : ℤ) (given : Bool) : Option ℕ :=
  if given then some (if 0 ≤ outer then outer.toNat + 2 else 2) else none

/-- What a chomping leaves of the lines of a block. -/
def BlockText.cut (b : BlockText) : Chomping → List Char
  | .strip => b.text
  | .clip => b.text ++ b.last
  | .keep => b.all

theorem BlockText.cut_lines (u v : List Char) (startsBlank : Bool) (chomping : Chomping) :
    BlockText.cut ⟨u, v.take 1, v.drop 1, startsBlank⟩ chomping = chomping.leave u v := by
  cases chomping with
  | strip | clip => rfl
  | keep =>
    rw [cut, BlockText.all, List.append_assoc, List.take_append_drop]
    rfl

/-- What becomes of a literal block behind its header: first the empty lines in front, and then the others. -/
theorem readBlock_eq (outer : ℤ) {given : Bool} {chomping : Chomping} {tail : List Char}
    (h : c.rest = headerText given chomping ++ tail) (h_tail : ∀ x ∈ tail.head?, x = '\n') :
    ∃ c₁, c₁.rest = tail.tail ∧ (tail ≠ [] → c₁.column = 0) ∧ c.line ≤ c₁.line ∧
      readBlock true outer c = do
        let (breaks, widest, c₂) ← readEmptyLines (headerIndent outer given) (c₁.rest.length + 1) [] 0 c₁
        let (b, c₃) ← readBlockLines true ((headerIndent outer given).getD (max (max widest (outer + 1).toNat) 1))
          (c₂.rest.length + 1) ⟨[], [], breaks, false⟩ c₂
        return ⟨b.cut chomping, c₃, false⟩ := by
  have h_first : (c.skip 1).rest = ((if given then ['2'] else []) ++ chomping.mark) ++ tail := by
    rw [Cursor.skip_rest, h]
    rfl
  have h_header := readBlockHeader_eq h_first fun x h_x => by
    rw [h_tail x h_x]
    rfl
  have h_behind := Cursor.skip_rest_of_append h_first
  set c₁ := (c.skip 1).skip ((if given then ['2'] else []) ++ chomping.mark).length
  -- the line of the header is at its end
  have h_peek : ∀ x ∈ c₁.peek, x = '\n' := by
    rw [Cursor.peek, h_behind]
    exact h_tail
  have h_blanks : c₁.skipWhile isSpaceOrTab = c₁ := by
    rw [Cursor.skipWhile_of_append (show c₁.rest = [] ++ tail from h_behind) (by simp)
      fun x h_x => by rw [h_tail x h_x]; decide]
    rfl
  have h_comment : c₁.skipComment = c₁ := Cursor.skipComment_of_ne fun h_hash => absurd (h_peek '#' h_hash) (by decide)
  have h_break : c₁.atBreakOrEnd = true := by
    rw [Cursor.atBreakOrEnd]
    cases h_at : c₁.peek with
    | none => rfl
    | some x => rw [h_peek x h_at]; rfl
  have h_body : readBlock true outer c = do
        let (breaks, widest, c₂) ← readEmptyLines (headerIndent outer given) (c₁.skipBreak.rest.length + 1) [] 0 c₁.skipBreak
        let (b, c₃) ← readBlockLines true ((headerIndent outer given).getD (max (max widest (outer + 1).toNat) 1))
          (c₂.rest.length + 1) ⟨[], [], breaks, false⟩ c₂
        return ⟨b.cut chomping, c₃, false⟩ := by
    unfold readBlock
    simp only [h_header, Option.bind_eq_bind, Option.bind_some, h_blanks, h_comment, h_break]
    cases given <;> cases chomping <;> rfl
  cases tail with
  | nil =>
    have h_next : c₁.skipBreak = c₁ := by rw [Cursor.skipBreak, Cursor.readBreak, h_behind]
    exact ⟨_, by rw [h_next, h_behind]; rfl, fun h_ne => absurd rfl h_ne, by rw [h_next]; rfl, h_body⟩
  | cons x tail =>
    obtain rfl := h_tail x rfl
    have h_next : c₁.skipBreak = c₁.nextLine tail := Cursor.skipBreak_eq h_behind isLineBreak_feed
    exact ⟨_, by rw [h_next]; rfl, fun _ => by rw [h_next]; rfl, by rw [h_next]; exact Nat.le_succ _, h_body⟩

/-- The column of the lines of a block, as its header gives it or as the reader finds it out. -/
structure Indents (outer : ℤ) (given : Bool) (cs : List Char) (n : ℕ) : Prop where
  pos : 0 < n
  outer_lt : outer < n
  given_eq : given = true → n = if 0 ≤ outer then outer.toNat + 2 else 2
  found : given = false → ∃ x ∈ cs.head?, isBreak x = false ∧ x ≠ ' '

/-- Where the indentation is not given, the first line shows it. -/
theorem readEmptyLines_found {x : Char} (h : c.rest = List.replicate n ' ' ++ rest) (h_x : rest.head? = some x)
    (h_break : isBreak x = false) (h_space : x ≠ ' ') (h_tab : x ≠ '\t') :
    readEmptyLines none (fuel + 1) [] 0 c = some ([], c.column + n, c.skip n) := by
  have h_width : indentationWidth none c = n := by
    obtain ⟨xs, rfl⟩ : ∃ xs, rest = x :: xs := List.head?_eq_some_iff.mp h_x
    rw [indentationWidth, h, List.takeWhile_append_of_pos fun y h_y => by simp [List.eq_of_mem_replicate h_y]]
    simp [h_space]
  have h_peek : (c.skip n).peek = some x := by
    have h_behind := Cursor.skip_rest_of_append h
    rw [List.length_replicate] at h_behind
    rw [Cursor.peek, h_behind, h_x]
  -- the first character is none that the reader would go on with
  rw [readEmptyLines_stop, h_width, Nat.zero_max]
  rw [h_width, h_peek]
  intro y h_y
  cases h_y
  exact ⟨h_break, h_tab⟩

/-- The reader of a block comes to the first line that is not empty, and knows the indentation then. -/
theorem readEmptyLines_first {outer : ℤ} {given : Bool} {tail : List Char} {z : Char} {zs : List Char}
    (h_own : ∀ x ∈ g, IsOwnBreak x) (h_z : isBreak z = false) (h_tab : z ≠ '\t')
    (h_indent : Indents outer given (g ++ z :: zs) n)
    (h : c.rest = linesText n true (g ++ z :: zs) ++ tail) (h_column : c.column = 0) :
    ∃ c' widest, readEmptyLines (headerIndent outer given) (c.rest.length + 1) [] 0 c = some (g, widest, c') ∧
      (headerIndent outer given).getD (max (max widest (outer + 1).toNat) 1) = n ∧
      c'.rest = linesText n false (z :: zs) ++ tail ∧ c'.column = n ∧ c.line ≤ c'.line := by
  have h_text : linesText n true (g ++ z :: zs) = g ++ linesText n true (z :: zs) := by
    cases g with
    | nil => rfl
    | cons y ys => exact linesText_breaks (List.cons_ne_nil _ _) fun x h_x => (h_own x h_x).1
  rw [h_text, List.append_assoc] at h
  cases given with
  | true =>
    obtain ⟨c', widest, h_c', h_n, h_line, h_read⟩ := readEmptyLines_line h_own h_z h_tab h h_column
    refine ⟨c', widest, ?_, (h_indent.given_eq rfl).symm, h_c', h_n, h_line⟩
    rw [headerIndent, if_pos rfl, ← h_indent.given_eq rfl]
    exact h_read
  -- without a mark the text must not begin with empty lines, or they would hide the indentation
  | false =>
    obtain ⟨x, h_x, h_x_break, h_space⟩ := h_indent.found rfl
    obtain rfl : g = [] := by
      cases g with
      | nil => rfl
      | cons y ys =>
        cases h_x
        rw [(h_own x (by simp)).1] at h_x_break
        cases h_x_break
    cases h_x
    rw [List.nil_append, linesText_start h_z, List.append_assoc] at h
    have h_first : (linesText n false (z :: zs) ++ tail).head? = some z := by
      rw [linesText, if_neg (by simp [h_z]), if_neg (by decide)]
      rfl
    have h_n : c.column + n = n := by rw [h_column, Nat.zero_add]
    refine ⟨c.skip n, n, ?_, ?_, ?_, h_n, Nat.le_refl _⟩
    · rw [headerIndent, if_neg (by decide), readEmptyLines_found h h_first h_z h_space h_tab, h_n]
    · have h_pos := h_indent.pos
      have h_outer := h_indent.outer_lt
      rw [headerIndent, if_neg (by decide), Option.getD_none]
      omega
    · have h_behind := Cursor.skip_rest_of_append h
      rwa [List.length_replicate] at h_behind

/-- A literal block is read as its lines, and its header says what is left of the line breaks at the end. -/
theorem readBlock_literal {outer : ℤ} {given : Bool} {chomping : Chomping} {tail : List Char} {next : ℕ}
    (h_own : ∀ x ∈ cs, isBreak x = true → IsOwnBreak x) (h_tab : ∀ x ∈ cs, x ≠ '\t')
    (h_indent : Indents outer given cs n) (h_end : EndsBlock n tail rest next)
    (h_last : (∀ x ∈ cs.getLast?, isBreak x = false) → tail = [])
    (h_keep : (∀ x ∈ cs, isBreak x = true) → chomping = .keep)
    (h : c.rest = headerText given chomping ++ '\n' :: (linesText n true cs ++ tail)) :
    ∃ u v c', EndBreaks cs u v ∧ Reaches c c' rest next ∧
      readBlock true outer c = some ⟨chomping.leave u v, c', false⟩ := by
  obtain ⟨c₁, h_c₁, h_zero, h_line₁, h_read⟩ := readBlock_eq outer h fun x h_x => (Option.some.inj h_x).symm
  have h_start : c₁.column = 0 := h_zero (List.cons_ne_nil _ _)
  obtain ⟨g, ls, rfl, -, h_g, h_ls, h_spaced⟩ := (unmixed_breaks cs).run_spaced
  have h_g_own : ∀ x ∈ g, IsOwnBreak x := fun x h_x => h_own x (by simp [h_x]) (h_g x h_x)
  rw [h_read]
  cases ls with
  | nil =>
    -- nothing but line breaks, which the header keeps
    rw [List.append_nil] at *
    have h_text : linesText n true g = g := by
      cases g with
      | nil => rfl
      | cons y ys =>
        have h_eq : linesText n true (y :: ys ++ []) = y :: ys ++ linesText n true [] :=
          linesText_breaks (List.cons_ne_nil y ys) h_g
        simpa [linesText] using h_eq
    obtain rfl : given = true := by
      cases given with
      | true => rfl
      | false =>
        obtain ⟨x, h_x, h_x_break, -⟩ := h_indent.found rfl
        rw [h_g x (List.mem_of_head? h_x)] at h_x_break
        cases h_x_break
    obtain rfl := h_keep h_g
    obtain ⟨c₂, widest, h_reach, h_ne, h_empty⟩ := readEmptyLines_end h_end h_g_own
      (h_c₁.trans (congrArg (· ++ tail) h_text)) h_start
    refine ⟨[], g, c₂, ⟨rfl, h_g, nofun⟩,
      ⟨h_reach.rest_eq, h_reach.column_eq, Nat.le_trans h_line₁ h_reach.line_le⟩, ?_⟩
    rw [headerIndent, if_pos rfl, ← h_indent.given_eq rfl, h_empty]
    simp only [Option.bind_eq_bind, Option.bind_some, Option.getD_some, readBlockLines_stop _ _ (Or.inl h_ne)]
    rfl
  | cons z zs =>
    have h_z := h_ls z rfl
    obtain ⟨c₂, widest, h_empty, h_found, h_c₂, h_n, h_line⟩ :=
      readEmptyLines_first h_g_own h_z (h_tab z (by simp)) h_indent h_c₁ h_start
    obtain ⟨u, v, startsBlank, c₃, h_ends, h_reach, h_lines⟩ := readBlockLines_lines h_spaced
      (fun x h_x => h_own x (by simp at h_x ⊢; tauto)) (fun x h_x => h_tab x (by simp at h_x ⊢; tauto)) h_end
      (fun h_nonbreak => h_last (by rwa [List.getLast?_append_of_ne_nil _ (List.cons_ne_nil _ _)]))
      c₂ ⟨[], [], g, false⟩ (c₂.rest.length + 1) h_n h_c₂ ⟨z, rfl, h_z⟩
      (by
        have h_le := length_le_linesText n false (z :: zs)
        rw [h_c₂, List.length_append]
        omega)
    refine ⟨g ++ u, v, c₃, h_ends.behind h_z g,
      ⟨h_reach.rest_eq, h_reach.column_eq, Nat.le_trans h_line₁ (Nat.le_trans h_line h_reach.line_le)⟩, ?_⟩
    simp only [h_empty, Option.bind_eq_bind, Option.bind_some, h_found, h_lines, BlockText.cut_lines]
    rfl

end Yaml

end ScriptYard
