import ScriptYard.Proofs.Yaml.Leaves

/-!
# Scalars in the styles of the writer

A string is written plain, in single or double quotes, or as a literal block (`ScalarStyle.text`). The writer takes a
style only for strings that the style can hold (`styleOf_holds`), and the text of a string in such a style is read as
that string in every block and in none, whatever follows it (`reads_styled`).

In a literal block the header carries what the lines do not show: how far the block is indented where its first line
starts with a space, and what becomes of the line breaks at its end (`chompingOf_leave`). A block whose text does not
end its last line has one more line break behind it, which the header takes off again (`reads_literalBlock`).

`Standing` sums up what a leaf needs in order to stand in every block; strings, other texts without quotes and empty
brackets have it.
-/

namespace ScriptYard

namespace Yaml

open Scanner Layout

/-! ### Texts of strings -/

/-- The notation of a style. -/
def ScalarStyle.form : ScalarStyle → ScalarForm
  | .plain => .plain
  | .single => .quoted
  | .double => .quoted
  | .literal => .literal

/-- The text of a scalar in a style, where further lines start in a column. -/
def ScalarStyle.text (style : ScalarStyle) (cs : List Char) (n : ℕ) : List Char :=
  match style with
  | .plain => cs
  | .single => '\'' :: (singleText n false cs ++ ['\''])
  | .double => doubleQuoted cs
  | .literal => (Page.literalHeader cs).toList ++ '\n' :: linesText n true cs

/-- Whether the text of a scalar in a style ends its last line. -/
def ScalarStyle.closes (style : ScalarStyle) (cs : List Char) : Bool := style == .literal && cs.getLast?.any isBreak

/-! ### Headers of literal blocks -/

/-- Whether a literal block says how far it is indented. -/
def givesIndentation (cs : List Char) : Bool := cs.head?.any fun c => c == ' ' || isBreak c

/-- What a literal block says of the line breaks at its end, its text being read backwards. -/
def chompingOf : List Char → Chomping
  | [] => .strip
  | last :: before =>
    if !isBreak last then .strip
    else match before.head? with
      | none => .keep
      | some c => if isBreak c then .keep else .clip

theorem toList_literalHeader (cs : List Char) :
    (Page.literalHeader cs).toList = headerText (givesIndentation cs) (chompingOf cs.reverse) := by
  have h_bar : ∀ indentation chomping : String,
      ("|" ++ indentation ++ chomping).toList = '|' :: (indentation.toList ++ chomping.toList) :=
    fun indentation chomping => by simp
  unfold Page.literalHeader
  refine (h_bar _ _).trans (congrArg (List.cons '|') (congrArg₂ List.append ?_ ?_))
  · -- the digit is decided by the first character, the mark by the last two
    cases cs with
    | nil => rfl
    | cons c cs =>
      rw [givesIndentation, List.head?_cons, Option.any_some]
      show (if c == ' ' || isBreak c then "2" else "").toList = _
      cases c == ' ' || isBreak c <;> rfl
  · generalize cs.reverse = back
    cases back with
    | nil => rfl
    | cons last before =>
      cases h_last : isBreak last with
      | false => simp [chompingOf, h_last, Chomping.mark]
      | true =>
        cases h_before : before.head? with
        | none => simp [chompingOf, h_last, h_before, Chomping.mark]
        | some c => cases h_c : isBreak c <;> simp [chompingOf, h_last, h_before, h_c, Chomping.mark]

section

variable {cs u v : List Char}

/-- What a header says of the line breaks at the end leaves all of them. -/
theorem chompingOf_leave (h_ne : cs ≠ []) (h : EndBreaks cs u v) : (chompingOf cs.reverse).leave u v = cs := by
  obtain ⟨rfl, h_v, h_u⟩ := h
  have h_u' : ∀ x ∈ u.reverse.head?, isBreak x = false := by rwa [List.head?_reverse]
  -- The last two characters decide: no line break at the end, one behind a text, or more than that.
  rw [List.reverse_append]
  rcases h_reverse : v.reverse with - | ⟨b, - | ⟨b', bs⟩⟩
  · obtain rfl : v = [] := by simpa using h_reverse
    cases h_us : u.reverse with
    | nil => simp_all
    | cons x us =>
      have h_x : isBreak x = false := h_u' x (by rw [h_us]; rfl)
      simp [chompingOf, h_x, Chomping.leave]
  · obtain rfl : v = [b] := by simpa using congrArg List.reverse h_reverse
    have h_b := h_v b (by simp)
    cases h_us : u.reverse with
    | nil => simp [chompingOf, h_b, Chomping.leave]
    | cons x us =>
      have h_x : isBreak x = false := h_u' x (by rw [h_us]; rfl)
      simp [chompingOf, h_b, h_x, Chomping.leave]
  · have h_mem : ∀ x ∈ v.reverse, isBreak x = true := fun x h_x => h_v x (List.mem_reverse.mp h_x)
    rw [h_reverse] at h_mem
    simp [chompingOf, h_mem b (by simp), h_mem b' (by simp), Chomping.leave]

/-- A text of nothing but line breaks keeps them. -/
theorem chompingOf_breaks (h_ne : v ≠ []) (h_v : ∀ x ∈ v, isBreak x = true) : chompingOf v.reverse = .keep := by
  have h_mem : ∀ x ∈ v.reverse, isBreak x = true := fun x h_x => h_v x (List.mem_reverse.mp h_x)
  rcases h_reverse : v.reverse with - | ⟨b, - | ⟨b', bs⟩⟩
  · exact absurd (List.reverse_eq_nil_iff.mp h_reverse) h_ne
  · rw [h_reverse] at h_mem
    simp [chompingOf, h_mem b (by simp)]
  · rw [h_reverse] at h_mem
    simp [chompingOf, h_mem b (by simp), h_mem b' (by simp)]

/-- A text that does not end its last line has no line breaks at its end to keep. -/
theorem chompingOf_of_last (h_u : ∀ x ∈ u.getLast?, isBreak x = false) : chompingOf u.reverse = .strip := by
  rw [← List.head?_reverse] at h_u
  cases h_reverse : u.reverse with
  | nil => rfl
  | cons x us => simp [chompingOf, h_u x (by rw [h_reverse]; rfl)]

end

theorem linesText_concat {b : Char} (h_b : isBreak b = true) (n : ℕ) (broken : Bool) (cs : List Char) :
    linesText n broken (cs ++ [b]) = linesText n broken cs ++ [b] := by
  induction cs generalizing broken with
  | nil => simp [linesText, h_b]
  | cons x cs ih =>
    rw [List.cons_append, linesText, linesText]
    split <;> simp [ih]

/-! ### What styles hold -/

/-- A style can hold a text. -/
def ScalarStyle.Holds : ScalarStyle → List Char → Prop
  | .plain, cs => cs ≠ [] ∧ allowsPlain cs = true
  | .single, cs => allowsSingle cs = true ∧ '\n' ∉ cs
  | .double, _ => True
  | .literal, cs => allowsLiteral cs = true

/-- A string is written in a style that holds it. -/
theorem styleOf_holds (text : String) : (styleOf text).Holds text.toList := by
  unfold styleOf
  dsimp only
  split
  · split
    · next h_literal => exact h_literal
    · trivial
  · next h_feed =>
    split
    · -- the tests are made in the order of the styles; double quotes hold everything
      next h_plain =>
      rw [Bool.and_eq_true, Bool.not_eq_true'] at h_plain
      refine ⟨fun h_nil => ?_, h_plain.2⟩
      rw [String.toList_eq_nil_iff.mp h_nil] at h_plain
      exact absurd h_plain.1 (by decide)
    · split
      · next h_single => exact ⟨h_single, by simpa using h_feed⟩
      · trivial

section

variable {cs : List Char}

theorem isPrintable_of_needsEscapes (h : needsEscapes cs = false) {x : Char} (h_x : x ∈ cs) : isPrintable x = true := by
  simp only [needsEscapes, Bool.or_eq_false_iff, List.any_eq_false] at h
  simpa using h.1 x h_x

/-- A line break that is written as it is stands for itself. -/
theorem isOwnBreak_of_isPrintable {x : Char} (h : isPrintable x = true) (h_x : isBreak x = true) : IsOwnBreak x := by
  refine ⟨h_x, ?_, ?_⟩
  · rintro rfl
    exact absurd h (by decide)
  · rintro rfl
    exact absurd h (by decide)

theorem ne_tab_of_isPrintable {x : Char} (h : isPrintable x = true) : x ≠ '\t' := by
  rintro rfl
  exact absurd h (by decide)

/-- Neighbours that pass one of two tests pass neither where no neighbours do. -/
theorem hasPair_of_cases {p q r : Char → Char → Bool} (h_p : hasPair p cs = false) (h_q : hasPair q cs = false)
    (h : ∀ a ∈ cs, ∀ b ∈ cs, r a b = true → p a b = true ∨ q a b = true) : hasPair r cs = false := by
  induction cs with
  | nil => rfl
  | cons x cs ih =>
    cases cs with
    | nil => rfl
    | cons y cs =>
      obtain ⟨h_p_x, h_p⟩ := Bool.or_eq_false_iff.mp h_p
      obtain ⟨h_q_x, h_q⟩ := Bool.or_eq_false_iff.mp h_q
      -- the first two characters pass neither test
      have h_r : r x y = false := by
        rw [Bool.eq_false_iff]
        intro h_r
        obtain h_x | h_x := h x (by simp) y (by simp) h_r
        · exact Bool.noConfusion (h_p_x.symm.trans h_x)
        · exact Bool.noConfusion (h_q_x.symm.trans h_x)
      rw [hasPair, h_r, ih h_p h_q fun a h_a b h_b => h a (List.mem_cons_of_mem _ h_a) b (List.mem_cons_of_mem _ h_b)]
      rfl

/-- What single quotes hold is a text of words with unmixed runs between them. -/
theorem unmixed_of_allowsSingle (h : allowsSingle cs = true) : Unmixed isGap cs := by
  simp only [allowsSingle, Bool.not_eq_true', Bool.or_eq_false_iff] at h
  have h_print : ∀ x ∈ cs, isPrintable x = true := fun x h_x => isPrintable_of_needsEscapes h.1 h_x
  have h_runs : ∀ x ∈ cs, isGap x = true → x = ' ' ∨ isBreak x = true := fun x h_x h_gap => by
    by_contra h_neither
    rw [not_or, Bool.not_eq_true] at h_neither
    rw [isGap_of_isPrintable (h_print x h_x) h_neither.2 h_neither.1] at h_gap
    cases h_gap
  refine ⟨h_runs, hasPair_of_cases (Bool.or_eq_false_iff.mp h.1).2 h.2 fun a h_a b h_b h_pair => ?_⟩
  simp only [Bool.and_eq_true, bne_iff_ne, ne_eq] at h_pair
  obtain ⟨⟨h_gap_a, h_gap_b⟩, h_ne⟩ := h_pair
  obtain rfl | h_break_a := h_runs a h_a h_gap_a
  · obtain rfl | h_break_b := h_runs b h_b h_gap_b
    · exact absurd rfl h_ne
    · exact .inl (by simp [h_break_b])
  · obtain rfl | h_break_b := h_runs b h_b h_gap_b
    · exact .inr (by simp [h_break_a])
    · have h_space : ∀ {x}, isBreak x = true → (x == ' ') = false := fun h_x => by
        rw [beq_eq_false_iff_ne]
        rintro rfl
        cases h_x
      -- Two line breaks are one kind of gap, so this is no pair of different kinds.
      exact absurd ((h_space h_break_a).trans (h_space h_break_b).symm) h_ne

theorem quotes_of_allowsSingle (n : ℕ) (h : allowsSingle cs = true) (h_feed : '\n' ∉ cs) :
    Quotes true n (singleText n false cs) cs := by
  have h_unmixed := unmixed_of_allowsSingle h
  simp only [allowsSingle, Bool.not_eq_true', Bool.or_eq_false_iff] at h
  refine quotes_single n (fun x h_x h_gap => ?_) h_unmixed
  have h_print := isPrintable_of_needsEscapes h.1 h_x
  obtain rfl | h_break := h_unmixed.runs x h_x h_gap
  · exact .inl rfl
  · obtain ⟨-, h_return, h_next⟩ := isOwnBreak_of_isPrintable h_print h_break
    simp only [isBreak, Bool.or_eq_true, beq_iff_eq] at h_break
    -- of the five breaks only the two separators may stand in single quotes
    obtain (((rfl | rfl) | rfl) | rfl) | rfl := h_break
    · exact absurd h_x h_feed
    · exact absurd rfl h_return
    · exact absurd rfl h_next
    · exact .inr (.inl rfl)
    · exact .inr (.inr rfl)

end

/-! ### Reading -/

/-- The column in which further lines of a scalar start, in a block or in none. -/
def lineColumn (indent : ℤ) : ℕ := if 0 ≤ indent then indent.toNat + 2 else 2

section

variable {cs gap rest : List Char} {indent : ℤ} {keyAllowed : Bool} {column next : ℕ} {stop : Option ℕ}

theorem lt_lineColumn (indent : ℤ) : indent < lineColumn indent := by
  unfold lineColumn
  split <;> omega

theorem lineColumn_pos (indent : ℤ) : 0 < lineColumn indent := by
  unfold lineColumn
  split <;> omega

@[simp] theorem lineColumn_natCast (n : ℕ) : lineColumn (n : ℤ) = n + 2 := by simp [lineColumn]

theorem endsBlock_of_follows (h_stop : ∀ m ∈ stop, (m : ℤ) ≤ indent) (h : Follows stop rest) :
    EndsBlock (lineColumn indent) (List.replicate (stop.getD 0) ' ' ++ rest) rest (stop.getD 0) := by
  refine ⟨rfl, ?_, h.arrives⟩
  cases stop with
  | none =>
    unfold lineColumn
    split <;> simp
  | some m =>
    have h_lt := lt_lineColumn indent
    have h_le := h_stop m rfl
    show m < lineColumn indent
    omega

/-- A header that fits the start of one text fits every other that starts alike. -/
theorem indents_lineColumn {ls : List Char} (h_ne : ls ≠ []) (h_head : ls.head? = cs.head?) (indent : ℤ) :
    Indents indent (givesIndentation cs) ls (lineColumn indent) := by
  refine ⟨lineColumn_pos indent, lt_lineColumn indent, fun _ => rfl, fun h_given => ?_⟩
  obtain ⟨x, xs, rfl⟩ := List.exists_cons_of_ne_nil h_ne
  rw [givesIndentation, ← h_head] at h_given
  exact ⟨x, rfl, by simpa [and_comm] using h_given⟩

/-- A literal block is read as its text, with one more line feed behind it where the text does not end its last line. -/
theorem reads_literalBlock {ls : List Char} (h : allowsLiteral cs = true) (h_column : indent < column)
    (h_ls : ls = cs ∧ (cs.getLast?.any isBreak = true ∨ gap ++ rest = []) ∨
      ls = cs ++ ['\n'] ∧ cs.getLast?.any isBreak = false)
    (h_end : EndsBlock (lineColumn indent) (gap ++ rest) rest next) :
    Reads indent keyAllowed column
      ((Page.literalHeader cs).toList ++ '\n' :: (linesText (lineColumn indent) true ls ++ gap))
      [.scalar (String.ofList cs) .literal] rest next := by
  simp only [allowsLiteral, Bool.and_eq_true, Bool.not_eq_true', Bool.or_eq_false_iff] at h
  obtain ⟨h_empty, h_escapes, -⟩ := h
  have h_ne : cs ≠ [] := by simpa using h_empty
  have h_print : ∀ x ∈ ls, isPrintable x = true := by
    intro x h_x
    obtain ⟨rfl, -⟩ | ⟨rfl, -⟩ := h_ls
    · exact isPrintable_of_needsEscapes h_escapes h_x
    · obtain h_x | h_x := List.mem_append.mp h_x
      · exact isPrintable_of_needsEscapes h_escapes h_x
      · rw [List.mem_singleton.mp h_x]
        decide
  have h_indents : Indents indent (givesIndentation cs) ls (lineColumn indent) := by
    obtain ⟨rfl, -⟩ | ⟨rfl, -⟩ := h_ls
    · exact indents_lineColumn h_ne rfl indent
    · exact indents_lineColumn (by simp) (List.head?_append_of_ne_nil _ h_ne) indent
  rw [toList_literalHeader]
  refine reads_literal (fun x h_x => isOwnBreak_of_isPrintable (h_print x h_x))
    (fun x h_x => ne_tab_of_isPrintable (h_print x h_x)) h_indents h_end ?_ ?_ h_column ?_
  · intro h_last
    obtain ⟨rfl, h_breaks | h_nil⟩ | ⟨rfl, -⟩ := h_ls
    · obtain ⟨x, h_x, h_break⟩ := (Option.any_eq_true _ _).mp h_breaks
      rw [h_last x h_x] at h_break
      cases h_break
    · exact h_nil
    · exact absurd (h_last '\n' (by simp)) (by decide)
  · -- A text of nothing but line breaks ends its last line, so none is added to it.
    intro h_breaks
    obtain ⟨rfl, -⟩ | ⟨rfl, h_last⟩ := h_ls
    · exact chompingOf_breaks h_ne h_breaks
    · rw [List.getLast?_eq_getLast_of_ne_nil h_ne, Option.any_some,
        h_breaks _ (List.mem_append_left _ (List.getLast_mem h_ne))] at h_last
      cases h_last
  · intro u v h_uv
    obtain ⟨rfl, -⟩ | ⟨rfl, h_last⟩ := h_ls
    · exact chompingOf_leave h_ne h_uv
    · have h_cs : ∀ x ∈ cs.getLast?, isBreak x = false := fun x h_x => by
        rw [Option.mem_def.mp h_x] at h_last
        exact h_last
      obtain rfl := EndBreaks.unique ⟨rfl, by simp; decide, h_cs⟩ h_uv
      rw [chompingOf_of_last h_cs]
      rfl

@[simp] theorem gapBehind_end (closed : Bool) : gapBehind false closed none = [] := rfl

theorem gapBehind_closed (final : Bool) (stop : Option ℕ) :
    gapBehind final true stop = List.replicate (stop.getD 0) ' ' := by
  cases stop with
  | some n => rfl
  | none => simp [gapBehind]

/-- The gap behind a text that does not end its last line starts with a line feed, except at the end of all. -/
theorem gapBehind_open (final : Bool) (stop : Option ℕ) :
    gapBehind final false stop = '\n' :: List.replicate (stop.getD 0) ' ' ∨
      (gapBehind final false stop = [] ∧ stop = none ∧ final = false) := by
  cases stop with
  | some n => exact .inl rfl
  | none =>
    cases final with
    | true => exact .inl rfl
    | false => exact .inr ⟨rfl, rfl, rfl⟩

theorem reads_literalText (final : Bool) (h : allowsLiteral cs = true) (h_column : indent < column)
    (h_stop : ∀ m ∈ stop, (m : ℤ) ≤ indent) (h_rest : Follows stop rest) :
    Reads indent keyAllowed column
      (ScalarStyle.literal.text cs (lineColumn indent) ++ gapBehind final (ScalarStyle.literal.closes cs) stop)
      [.scalar (String.ofList cs) .literal] rest (stop.getD 0) := by
  have h_end := endsBlock_of_follows h_stop h_rest
  have h_closes : ScalarStyle.literal.closes cs = cs.getLast?.any isBreak := rfl
  rw [h_closes]
  simp only [ScalarStyle.text, List.append_assoc, List.cons_append]
  cases h_last : cs.getLast?.any isBreak with
  -- the text ends its last line itself
  | true =>
    rw [gapBehind_closed]
    exact reads_literalBlock h h_column (.inl ⟨rfl, .inl h_last⟩) h_end
  | false =>
    -- the gap ends the line, or the document ends without
    obtain h_gap | ⟨h_gap, rfl, -⟩ := gapBehind_open final stop
    · have h_reads : Reads indent keyAllowed column _ _ rest (stop.getD 0) :=
        reads_literalBlock h h_column (.inr ⟨rfl, h_last⟩) h_end
      rw [linesText_concat (by decide), List.append_assoc] at h_reads
      rw [h_gap]
      exact h_reads
    · obtain rfl : rest = [] := h_rest
      rw [h_gap]
      exact reads_literalBlock h h_column (.inl ⟨rfl, .inr rfl⟩) h_end

/-- A string is read in every block, whatever follows. -/
theorem reads_styled (final : Bool) {style : ScalarStyle} (h : style.Holds cs) (h_column : indent < column)
    (h_stop : ∀ m ∈ stop, (m : ℤ) ≤ indent) (h_rest : Follows stop rest) :
    Reads indent keyAllowed column (style.text cs (lineColumn indent) ++ gapBehind final (style.closes cs) stop)
      [.scalar (String.ofList cs) style.form] rest (stop.getD 0) := by
  have h_gap := leads_gapBehind final h_rest
  cases style with
  | literal => exact reads_literalText final h h_column h_stop h_rest
  | single => exact reads_quoted (quotes_of_allowsSingle _ h.1 h.2) (lineColumn_pos indent) h_gap h_column
  | double => exact reads_quoted (quotes_double 1 cs) Nat.one_pos h_gap h_column
  -- without quotes the text may go on in the next line, unless that stands further out
  | plain =>
    refine reads_plain (isPlain_of_allowsPlain h.1 h.2) (head_of_allowsPlain h.2) h_gap (fun h_ne => ?_) h_column
      fun c h_c _ => Cursor.atDocumentMarker_of_allowsPlain h.1 h.2 h_c ?_
    · cases stop with
      | none => exact absurd h_rest h_ne
      | some m => exact h_stop m rfl
    · show (gapBehind final false stop ++ rest).head? ≠ some '-' ∧ (gapBehind final false stop ++ rest).head? ≠ some '.'
      obtain h_feed | ⟨h_nil, rfl, -⟩ := gapBehind_open final stop
      · rw [h_feed]
        simp
      · obtain rfl : rest = [] := h_rest
        rw [h_nil]
        simp

/-- The text of a string starts with a token. -/
theorem startsToken_styled {style : ScalarStyle} (h : style.Holds cs) (n : ℕ) : StartsToken (style.text cs n) := by
  cases style with
  | plain => exact startsToken_of_isPlain (isPlain_of_allowsPlain h.1 h.2) (head_of_allowsPlain h.2)
  | single => exact ⟨'\'', _, rfl, by decide⟩
  | double => exact ⟨'"', _, rfl, by decide⟩
  | literal =>
    simp only [ScalarStyle.text, toList_literalHeader]
    exact ⟨'|', _, rfl, by decide⟩

theorem isAllowed_singleText (h : ∀ x ∈ cs, isAllowed x = true) (n : ℕ) (broken : Bool) :
    ∀ x ∈ singleText n broken cs, isAllowed x = true := by
  have h_space : isAllowed ' ' = true := by decide
  have h_indent : ∀ x ∈ (if broken then List.replicate n ' ' else []), isAllowed x = true := fun x h_x => by
    split at h_x
    · rw [List.eq_of_mem_replicate h_x, h_space]
    · cases h_x
  induction cs generalizing broken with
  | nil => exact h_indent
  | cons y cs ih =>
    obtain ⟨h_y, h_cs⟩ := List.forall_mem_cons.mp h
    intro x h_x
    rw [singleText] at h_x
    split at h_x
    · -- a break, and the indentation of the next line behind it
      obtain rfl | h_x := List.mem_cons.mp h_x
      · exact h_y
      · exact ih h_cs true (by simp [h_space]) x h_x
    · obtain h_x | h_x := List.mem_append.mp h_x
      · exact h_indent x h_x
      obtain h_x | h_x := List.mem_append.mp h_x
      · have h_eq : x = y ∨ x = '\'' := by
          unfold singleChar at h_x
          split at h_x <;> simp at h_x <;> simp [h_x]
        obtain rfl | rfl := h_eq
        · exact h_y
        · decide
      · exact ih h_cs false (by simp) x h_x

/-- The lines of a literal block hold nothing but the text and spaces. -/
theorem mem_linesText {n : ℕ} {broken : Bool} {x : Char} (h : x ∈ linesText n broken cs) : x = ' ' ∨ x ∈ cs := by
  induction cs generalizing broken with
  | nil => exact absurd h List.not_mem_nil
  | cons y cs ih =>
    rw [linesText] at h
    -- a break is the text's own; another character may bring the indentation
    split at h
    · obtain rfl | h := List.mem_cons.mp h
      · exact .inr List.mem_cons_self
      · exact (ih h).imp_right (List.mem_cons_of_mem y)
    · obtain h | h := List.mem_append.mp h
      · split at h
        · exact .inl (List.eq_of_mem_replicate h)
        · exact absurd h List.not_mem_nil
      obtain rfl | h := List.mem_cons.mp h
      · exact .inr List.mem_cons_self
      · exact (ih h).imp_right (List.mem_cons_of_mem y)

theorem isAllowed_linesText (h : ∀ x ∈ cs, isAllowed x = true) (n : ℕ) (broken : Bool) :
    ∀ x ∈ linesText n broken cs, isAllowed x = true := by
  intro x h_x
  obtain rfl | h_x := mem_linesText h_x
  · decide
  · exact h x h_x

theorem isAllowed_headerText (given : Bool) (chomping : Chomping) :
    ∀ x ∈ headerText given chomping, isAllowed x = true := by
  cases given <;> cases chomping <;> exact List.all_eq_true.mp (by decide)

/-- The text of a string holds nothing but what a text may hold. -/
theorem isAllowed_styled {style : ScalarStyle} (h : style.Holds cs) (n : ℕ) :
    ∀ x ∈ style.text cs n, isAllowed x = true := by
  cases style with
  | plain => exact fun x h_x => isAllowed_of_isPrintable (isPrintable_of_allowsPlain h.2 h_x)
  | double => exact isAllowed_doubleQuoted cs
  -- what needs no escape is printable, and the quotes are too
  | single =>
    have h_single := h.1
    simp only [allowsSingle, Bool.not_eq_true', Bool.or_eq_false_iff] at h_single
    have h_cs : ∀ x ∈ cs, isAllowed x = true := fun x h_x =>
      isAllowed_of_isPrintable (isPrintable_of_needsEscapes h_single.1 h_x)
    refine List.forall_mem_cons.mpr ⟨by decide, List.forall_mem_append.mpr ⟨isAllowed_singleText h_cs n false, ?_⟩⟩
    exact List.all_eq_true.mp (by decide)
  | literal =>
    have h_literal : allowsLiteral cs = true := h
    simp only [allowsLiteral, Bool.and_eq_true, Bool.not_eq_true', Bool.or_eq_false_iff] at h_literal
    have h_cs : ∀ x ∈ cs, isAllowed x = true := fun x h_x =>
      isAllowed_of_isPrintable (isPrintable_of_needsEscapes h_literal.2.1 h_x)
    rw [ScalarStyle.text, toList_literalHeader]
    exact List.forall_mem_append.mpr ⟨isAllowed_headerText _ _, List.forall_mem_cons.mpr
      ⟨by decide, isAllowed_linesText h_cs n true⟩⟩

end

/-! ### Strings as leaves -/

/-- The text of a leaf is read in every block and in none, whatever follows. -/
structure Standing (final : Bool) (text : ℕ → List Char) (closed : Bool) (content : Leaf) : Prop where
  starts : ∀ n, StartsToken (text n)
  allowed : ∀ n, ∀ x ∈ text n, isAllowed x = true
  reads : ∀ (indent : ℤ) (column : ℕ) (keyAllowed : Bool) (stop : Option ℕ) (rest : List Char), indent < column →
    (∀ m ∈ stop, (m : ℤ) ≤ indent) → Follows stop rest →
      Reads indent keyAllowed column (text (lineColumn indent) ++ gapBehind final closed stop) content.tokens rest
        (stop.getD 0)

section

variable {final closed : Bool} {text : ℕ → List Char} {content : Leaf}

theorem Standing.leafSound (h : Standing final text closed content) : LeafSound final text closed content where
  starts := h.starts
  allowed := h.allowed
  reads n column keyAllowed stop rest h_column h_stop h_rest := by
    have h_reads := h.reads n column keyAllowed stop rest (Int.ofNat_lt.mpr h_column)
      (fun m h_m => Int.ofNat_le.mpr (h_stop m h_m)) h_rest
    rwa [lineColumn_natCast] at h_reads

theorem Standing.topSound (h : Standing final text closed content) :
    (Outline.leaf text closed content).TopSound final :=
  ⟨h.allowed 2, h.reads (-1) 0 true none [] (by decide) (by simp) rfl⟩

/-- A string in a style that holds it. -/
theorem Standing.styled (final : Bool) {style : ScalarStyle} {cs : List Char} (h : style.Holds cs) :
    Standing final (style.text cs) (style.closes cs) (.scalar cs style.form) where
  starts := startsToken_styled h
  allowed := isAllowed_styled h
  reads _ _ _ _ _ h_column h_stop h_rest := reads_styled final h h_column h_stop h_rest

/-- A text that can be written without quotes. -/
theorem Standing.plain (final : Bool) {cs : List Char} (h : cs ≠ [] ∧ allowsPlain cs = true) :
    Standing final (fun _ => cs) false (.scalar cs .plain) :=
  Standing.styled final (show ScalarStyle.plain.Holds cs from h)

/-- An empty array. -/
theorem Standing.brackets (final : Bool) : Standing final (fun _ => ['[', ']']) false (.list []) where
  starts _ := ⟨'[', _, rfl, by decide⟩
  allowed _ := List.all_eq_true.mp (by decide)
  reads _ _ _ _ _ h_column _ h_rest := reads_list [] (leads_gapBehind final h_rest) h_column

/-- An empty object. -/
theorem Standing.braces (final : Bool) : Standing final (fun _ => ['\x7b', '\x7d']) false .braces where
  starts _ := ⟨'\x7b', _, rfl, by decide⟩
  allowed _ := List.all_eq_true.mp (by decide)
  reads _ _ _ _ _ h_column _ h_rest := reads_braces (leads_gapBehind final h_rest) h_column

end

end Yaml

end ScriptYard
