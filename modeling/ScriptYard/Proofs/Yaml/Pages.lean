import ScriptYard.Proofs.Yaml.Values

/-!
# What the writer puts on its page

The writer keeps a page with the column that it has come to and two flags, and decides from them where it puts spaces
and line breaks. A page matters in two states only: at the start of something in a column (`Page.aligned`) and behind a
mark (`Page.behind`). Behind a scalar the line is either full, or the scalar has begun a new one itself (`Page.Ended`),
and the next thing starts in its column in both cases (`Page.Ended.indentTo`).

From these a value is written as its outline is placed: `Page.putValue_eq`, `Page.putItems_eq` and `Page.putFields_eq`
carry the text that is on the page already and the column of what comes next, and follow the writer's recursion. The
text of a whole document is the one of the outline (`write_eq`).
-/

namespace ScriptYard

namespace Yaml

open Scanner Layout

/-! ### Pages -/

namespace Page

/-- A page at the start of something in a column. -/
def aligned (reversed : List Char) (column : ℕ) : Page := ⟨reversed, column, true, true⟩

/-- A page behind a mark. -/
def behind (reversed : List Char) (column : ℕ) (lineOpen : Bool) : Page := ⟨reversed, column, false, lineOpen⟩

/-- What is written between a mark and a scalar. -/
def spaceBefore (p : Page) : List Char := if p.afterBlank then [] else [' ']

variable {p q : Page} {closed : Bool} {cs : List Char}

theorem putAll_eq (p : Page) (cs : List Char) :
    p.putAll cs = { p with reversed := cs.reverse ++ p.reversed, column := p.column + cs.length } := by
  induction cs generalizing p with
  | nil => rfl
  | cons c cs ih =>
    show (p.put c).putAll cs = _
    rw [ih]
    simp [put, Nat.add_assoc, Nat.add_comm 1]

theorem mark_spaced (p : Page) (text : String) (keepsOpen : Bool) :
    p.mark text true keepsOpen = behind (text.toList.reverse ++ (p.spaceBefore.reverse ++ p.reversed))
      (p.column + p.spaceBefore.length + text.toList.length) (p.lineOpen && keepsOpen) := by
  unfold mark spaceBefore
  cases p.afterBlank <;> simp [putAll_eq, put, behind]

theorem mark_unspaced (p : Page) (text : String) (keepsOpen : Bool) : p.mark text false keepsOpen =
    behind (text.toList.reverse ++ p.reversed) (p.column + text.toList.length) (p.lineOpen && keepsOpen) := by
  simp [mark, putAll_eq, behind]

/-- A line that is still open is gone on with. -/
theorem indentTo_of_open {m : ℕ} (h_open : p.lineOpen = true)
    (h_column : p.column < m ∨ (p.column = m ∧ p.afterBlank = true)) :
    p.indentTo m = aligned (List.replicate (m - p.column) ' ' ++ p.reversed) m := by
  have h_stays : (p.lineOpen && (p.column < m || (p.column == m && p.afterBlank))) = true := by
    simpa [h_open] using h_column
  unfold indentTo
  simp only [h_stays, if_true, putAll_eq, List.reverse_replicate, List.length_replicate]
  rw [aligned, show p.column + (m - p.column) = m by omega]

/-- A line that is written full is brought to its end. -/
theorem indentTo_of_full (m : ℕ) (h_open : p.lineOpen = false) :
    p.indentTo m = aligned (List.replicate m ' ' ++ '\n' :: p.reversed) m := by
  unfold indentTo
  simp [h_open, putAll_eq, breakLine, aligned]

/-! ### Scalars -/

/-- The line of a page is full, or a new one has begun. -/
def Ended (p : Page) (closed : Bool) : Prop :=
  if closed then p.column = 0 ∧ p.afterBlank = true ∧ p.lineOpen = true else p.lineOpen = false

theorem Ended.indentTo (h : p.Ended closed) (m : ℕ) :
    p.indentTo m = aligned ((gapBehind true closed (some m)).reverse ++ p.reversed) m := by
  cases closed with
  | true =>
    obtain ⟨h_column, h_blank, h_open⟩ := h
    have h_stays : p.column < m ∨ (p.column = m ∧ p.afterBlank = true) := by
      rw [h_column]
      exact (Nat.eq_zero_or_pos m).symm.imp_right fun h_m => ⟨h_m.symm, h_blank⟩
    rw [indentTo_of_open h_open h_stays]
    simp [gapBehind, h_column]
  | false =>
    rw [indentTo_of_full m h]
    simp [gapBehind]

/-- A text is written, and with it the last line is ended or not. -/
structure Wrote (p q : Page) (text : List Char) (closed : Bool) : Prop where
  reversed : q.reversed = text.reverse ++ p.reversed
  ended : q.Ended closed

theorem Wrote.indentTo {text : List Char} (h : Wrote p q text closed) (m : ℕ) :
    q.indentTo m = aligned ((text ++ gapBehind true closed (some m)).reverse ++ p.reversed) m := by
  rw [h.ended.indentTo m, h.reversed]
  simp

/-- A mark is written with a space in front of it where there is no blank yet. -/
theorem wrote_mark (p : Page) (text : String) :
    Wrote p (p.mark text true false) (p.spaceBefore ++ text.toList) false := by
  rw [mark_spaced]
  exact ⟨by simp [behind], by simp [Ended, behind]⟩

/-- A page before the contents of a line, which is indented if it is new. -/
def indented (p : Page) (n : ℕ) (broken : Bool) : Page := if broken then p.indentTo n else p

theorem indented_eq {n : ℕ} (h_n : 0 < n) {broken : Bool} (h : broken = true → p.column = 0 ∧ p.lineOpen = true) :
    (p.indented n broken).reversed = (if broken then List.replicate n ' ' else []) ++ p.reversed ∧
      (p.afterBlank = true → (p.indented n broken).afterBlank = true) := by
  unfold indented
  cases broken with
  | true =>
    obtain ⟨h_column, h_open⟩ := h rfl
    rw [if_pos rfl, if_pos rfl, indentTo_of_open h_open (.inl (by omega)), h_column]
    exact ⟨rfl, fun _ => rfl⟩
  | false => exact ⟨rfl, id⟩

section

variable {n : ℕ} {broken : Bool} {c : Char}

theorem putLines_break (h : isBreak c = true) :
    putLines n broken p (c :: cs) = putLines n true ⟨c :: p.reversed, 0, p.afterBlank, true⟩ cs := by
  rw [putLines, if_pos h]
  rfl

theorem putLines_char (h : isBreak c = false) :
    putLines n broken p (c :: cs) = putLines n false { (p.indented n broken).put c with lineOpen := false } cs := by
  rw [putLines, if_neg (by simp [h])]
  rfl

theorem putSingle_break (h : isBreak c = true) (h_feed : c ≠ '\n') :
    putSingle n broken p (c :: cs) = putSingle n true ⟨c :: p.reversed, 0, p.afterBlank, true⟩ cs := by
  rw [putSingle, if_pos h, show (!broken && c == '\n') = false by simp [h_feed]]
  rfl

theorem putSingle_space : putSingle n false p (' ' :: cs) = putSingle n false (p.put ' ') cs := rfl

theorem putSingle_char (h : isBreak c = false) (h_space : c ≠ ' ') : putSingle n broken p (c :: cs) =
    putSingle n false { (p.indented n broken).putAll (singleChar c) with lineOpen := false } cs := by
  rw [putSingle, if_neg (by simp [h]), if_neg (by simpa using h_space)]
  unfold singleChar
  cases h_quote : c == '\'' with
  | true =>
    obtain rfl : c = '\'' := by simpa using h_quote
    rfl
  | false => rfl

end

/-- The lines of a literal block are written, and the last of them is ended by the text. -/
theorem putLines_eq {n : ℕ} (h_n : 0 < n) {broken : Bool} (h : broken = true → p.column = 0 ∧ p.lineOpen = true)
    (h_blank : p.afterBlank = true) :
    (putLines n broken p cs).reversed = (linesText n broken cs).reverse ++ p.reversed ∧
      ∀ x ∈ cs.getLast?, (putLines n broken p cs).Ended (isBreak x) := by
  induction cs generalizing p broken with
  | nil => exact ⟨rfl, by simp⟩
  | cons c cs ih =>
    cases h_c : isBreak c with
    | true =>
      -- a break opens the next line, which is not indented yet
      let q : Page := ⟨c :: p.reversed, 0, p.afterBlank, true⟩
      have h_q : true = true → q.column = 0 ∧ q.lineOpen = true := fun _ => ⟨rfl, rfl⟩
      obtain ⟨h_reversed, h_ended⟩ := ih h_q h_blank
      rw [putLines_break h_c, h_reversed, linesText, if_pos h_c]
      refine ⟨by simp [q], fun x h_x => ?_⟩
      cases cs with
      | nil =>
        obtain rfl : c = x := by simpa using h_x
        rw [h_c]
        exact ⟨rfl, h_blank, rfl⟩
      | cons d cs => exact h_ended x (by rwa [List.getLast?_cons_cons] at h_x)
    | false =>
      obtain ⟨h_indent, h_indent_blank⟩ := indented_eq h_n h
      -- the first character of a line brings the indentation with it
      let q : Page := { (p.indented n broken).put c with lineOpen := false }
      have h_q : false = true → q.column = 0 ∧ q.lineOpen = true := fun h_false => Bool.noConfusion h_false
      obtain ⟨h_reversed, h_ended⟩ := ih h_q (h_indent_blank h_blank)
      rw [putLines_char h_c, h_reversed, linesText, if_neg (by simp [h_c])]
      refine ⟨by cases broken <;> simp [q, put, h_indent], fun x h_x => ?_⟩
      cases cs with
      | nil =>
        obtain rfl : c = x := by simpa using h_x
        rw [h_c]
        exact rfl
      | cons d cs => exact h_ended x (by rwa [List.getLast?_cons_cons] at h_x)

/-- The text of a scalar in single quotes is written. No line of it starts with a space, which would count as
indentation. -/
theorem putSingle_eq {n : ℕ} (h_n : 0 < n) {broken : Bool} (h : broken = true → p.column = 0 ∧ p.lineOpen = true)
    (h_feed : '\n' ∉ cs) (h_space : broken = true → cs.head? ≠ some ' ')
    (h_pairs : hasPair (fun a b => isBreak a && b == ' ') cs = false) :
    (putSingle n broken p cs).reversed = (singleText n broken cs).reverse ++ p.reversed := by
  induction cs generalizing p broken with
  | nil =>
    show (p.indented n broken).reversed = _
    rw [(indented_eq h_n h).1, singleText]
    cases broken <;> simp
  | cons c cs ih =>
    have h_rest : hasPair (fun a b => isBreak a && b == ' ') cs = false := by
      cases cs with
      | nil => rfl
      | cons d cs => exact (Bool.or_eq_false_iff.mp h_pairs).2
    obtain ⟨h_c_feed, h_rest_feed⟩ := not_or.mp (mt List.mem_cons.mpr h_feed)
    have h_goes_on : ∀ q : Page, (putSingle n false q cs).reversed = (singleText n false cs).reverse ++ q.reversed :=
      fun q => ih (fun h_false => Bool.noConfusion h_false) h_rest_feed (fun h_false => Bool.noConfusion h_false) h_rest
    cases h_c : isBreak c with
    | true =>
      have h_next : cs.head? ≠ some ' ' := by
        cases cs with
        | nil => simp
        | cons d cs =>
          have h_pair : (isBreak c && d == ' ') = false := (Bool.or_eq_false_iff.mp h_pairs).1
          rw [h_c, Bool.true_and, beq_eq_false_iff_ne] at h_pair
          simpa using h_pair
      rw [putSingle_break h_c (Ne.symm h_c_feed), ih (fun _ => ⟨rfl, rfl⟩) h_rest_feed (fun _ => h_next) h_rest,
        singleText, if_pos h_c]
      simp
    | false =>
      rw [singleText, if_neg (by simp [h_c])]
      by_cases h_blank : c = ' '
      · subst h_blank
        -- The writer puts a space before it looks where the line starts, so it must not stand there.
        obtain rfl : broken = false := by
          rw [Bool.eq_false_iff]
          exact fun h_broken => h_space h_broken rfl
        rw [putSingle_space, h_goes_on]
        simp [put, singleChar]
      · have h_indent := (indented_eq h_n h).1
        rw [putSingle_char h_c h_blank, h_goes_on]
        cases broken <;> simp [putAll_eq, h_indent]

/-- A scalar is written, with a space in front of it where there is no blank yet. -/
theorem wrote_scalar (p : Page) {n : ℕ} (h_n : 0 < n) {style : ScalarStyle} {text : String}
    (h : style.Holds text.toList) :
    Wrote p (p.putScalar n style text) (p.spaceBefore ++ style.text text.toList n) (style.closes text.toList) := by
  cases style with
  | plain => exact wrote_mark p text
  | double =>
    have h_wrote := wrote_mark p ("\"" ++ String.ofList (text.toList.flatMap doubleChar) ++ "\"")
    rw [show ScalarStyle.double.closes text.toList = false from rfl]
    simpa [ScalarStyle.text, doubleQuoted, putScalar] using h_wrote
  -- without a line feed in it, no line break is written twice
  | single =>
    have h_pairs := h.1
    simp only [allowsSingle, Bool.not_eq_true', Bool.or_eq_false_iff] at h_pairs
    have h_text : (putSingle n false (p.mark "'" true false) text.toList).reversed = _ :=
      putSingle_eq h_n (fun h_false => Bool.noConfusion h_false) h.2 (fun h_false => Bool.noConfusion h_false) h_pairs.2
    rw [putScalar, mark_unspaced]
    refine ⟨?_, by simp [Ended, behind, ScalarStyle.closes]⟩
    rw [show (behind _ _ _ : Page).reversed = _ from rfl, h_text, mark_spaced]
    simp [behind, ScalarStyle.text]
  -- the header ends its line, and the text is put line by line behind it
  | literal =>
    have h_literal : allowsLiteral text.toList = true := h
    simp only [allowsLiteral, Bool.and_eq_true, Bool.not_eq_true'] at h_literal
    have h_ne : text.toList ≠ [] := by simpa using h_literal.1
    let q : Page := { (p.mark (literalHeader text.toList) true false).breakLine '\n' with
      afterBlank := true, lineOpen := true }
    have h_q : true = true → q.column = 0 ∧ q.lineOpen = true := fun _ => ⟨rfl, rfl⟩
    obtain ⟨h_reversed, h_ended⟩ : (putLines n true q text.toList).reversed = _ ∧
      ∀ x ∈ text.toList.getLast?, (putLines n true q text.toList).Ended (isBreak x) := putLines_eq h_n h_q rfl
    rw [putScalar]
    refine ⟨?_, ?_⟩
    · rw [h_reversed]
      simp [q, mark_spaced, behind, breakLine, ScalarStyle.text]
    · have h_last := h_ended _ (List.getLast?_eq_getLast_of_ne_nil h_ne)
      rwa [show ScalarStyle.literal.closes text.toList = isBreak (text.toList.getLast h_ne) by
        rw [ScalarStyle.closes, List.getLast?_eq_getLast_of_ne_nil h_ne]; rfl]

/-- A scalar on one line takes as many columns as it has characters. -/
theorem column_putScalar (r : List Char) (column n : ℕ) {style : ScalarStyle} {text : String}
    (h_literal : style ≠ .literal) (h : ∀ x ∈ text.toList, isBreak x = false) :
    ((aligned r column).putScalar n style text).column = column + (style.text text.toList n).length := by
  -- character by character, with quotes doubled
  have h_single : ∀ (cs : List Char) (p : Page), (∀ x ∈ cs, isBreak x = false) →
      (putSingle n false p cs).column = p.column + (cs.flatMap singleChar).length := by
    intro cs
    induction cs with
    | nil => exact fun p _ => rfl
    | cons c cs ih =>
      intro p h_cs
      obtain ⟨h_c, h_rest⟩ := List.forall_mem_cons.mp h_cs
      by_cases h_blank : c = ' '
      · subst h_blank
        rw [putSingle_space, ih _ h_rest]
        simp [put, singleChar, Nat.add_assoc, Nat.add_comm 1]
      · rw [putSingle_char h_c h_blank, ih _ h_rest]
        simp [indented, putAll_eq, Nat.add_assoc]
  cases style with
  | literal => exact absurd rfl h_literal
  | plain => simp [putScalar, mark_spaced, behind, aligned, spaceBefore, ScalarStyle.text]
  | double => simp [putScalar, mark_spaced, behind, aligned, spaceBefore, ScalarStyle.text, doubleQuoted]
  | single =>
    rw [putScalar, mark_unspaced, mark_spaced]
    show (putSingle n false _ text.toList).column + _ = _
    rw [h_single _ _ h, ScalarStyle.text, singleText_of_no_break h]
    simp [behind, aligned, spaceBefore]
    omega

/-! ### Names -/

/-- A key is written with its marks. -/
theorem putKey_eq (r : List Char) (n : ℕ) (key : String) : (aligned r n).putKey n key =
    behind ((keyName key n).marked.reverse ++ r) (behindName n (keyName key n)) (!(keyName key n).simple) := by
  have h_holds := styleOf_holds key
  unfold putKey keyName
  by_cases h_simple : isSimpleKey key = true
  · -- a simple key is followed by its colon at once, another one by a line of its own
    obtain ⟨h_breaks, -, h_literal⟩ := of_isSimpleKey h_simple
    have h_wrote := wrote_scalar (aligned r n) (Nat.succ_pos (n + 1)) h_holds
    have h_column := column_putScalar r n (n + 2) h_literal h_breaks
    have h_open : (styleOf key).closes key.toList = false := by
      rw [ScalarStyle.closes, beq_eq_false_iff_ne.mpr h_literal, Bool.false_and]
    rw [if_pos h_simple, if_pos h_simple, putString, mark_unspaced, h_wrote.reversed, h_column]
    simp [Name.marked, behindName, spaceBefore, aligned, Nat.add_assoc]
  · have h_wrote := wrote_scalar ((aligned r n).mark "?" true true) (Nat.succ_pos (n + 1)) h_holds
    rw [if_neg h_simple, if_neg h_simple, putString, h_wrote.indentTo, mark_spaced, mark_spaced]
    simp [Name.marked, behindName, spaceBefore, aligned, behind]

/-! ### Values -/

theorem gapBehind_getD (closed : Bool) (stop : Option ℕ) :
    gapBehind true closed (some (stop.getD 0)) = gapBehind true closed stop := by
  cases stop with
  | some n => rfl
  | none => cases closed <;> rfl

/-- A value that has no parts is written as its leaf. -/
theorem wrote_leaf (p : Page) (holder : Option ℕ) (inField : Bool) {v : Value} {text : ℕ → List Char} {content : Leaf}
    (h : outline v = .leaf text closed content) :
    Wrote p (p.putValue holder inField v) (p.spaceBefore ++ text (holder.getD 0 + 2)) closed := by
  -- every value without parts is one mark, but for a string in its style
  cases v with
  | null => cases h; exact wrote_mark p "null"
  | bool b => cases h; exact wrote_mark p _
  | number x =>
    cases x with
    | int i => cases h; exact wrote_mark p _
    | float x => cases h; exact wrote_mark p _
  | string s => cases h; exact wrote_scalar p (Nat.succ_pos _) (styleOf_holds s)
  | array items =>
    cases items with
    | nil => cases h; exact wrote_mark p "[]"
    | cons w rest => cases h
  | object fields =>
    cases fields with
    | nil => cases h; exact wrote_mark p "\x7b\x7d"
    | cons f rest => cases h

/-- Behind a mark a column is gone to with what stands in front of the first item or field there. -/
theorem indentTo_behind (r : List Char) {column n : ℕ} {lineOpen : Bool} (h : lineOpen = true → column < n) :
    (behind r column lineOpen).indentTo n = aligned ((leadText lineOpen column n).reverse ++ r) n := by
  cases lineOpen with
  | true =>
    rw [indentTo_of_open rfl (.inl (h rfl))]
    simp [leadText, behind]
  | false =>
    rw [indentTo_of_full n rfl]
    simp [leadText, behind]

theorem mark_dash (r : List Char) (n : ℕ) : (aligned r n).mark "-" true true = behind ('-' :: r) (n + 1) true := by
  rw [mark_spaced]
  rfl

mutual

/-- A value is written behind a mark as its outline is placed there. -/
theorem putValue_eq (r : List Char) (holder column : ℕ) (lineOpen inField : Bool) (stop : Option ℕ)
    (h_column : lineOpen = true → column = holder + 1) (h_field : inField = false → lineOpen = true) (v : Value) :
    ((behind r column lineOpen).putValue (some holder) inField v).indentTo (stop.getD 0) =
      aligned (((outline v).place 0 true holder lineOpen column stop).text.reverse ++ r) (stop.getD 0) := by
  obtain ⟨text, closed, content, h_eq, -⟩ | ⟨w, rest, rfl⟩ | ⟨⟨key, w⟩, rest, rfl⟩ := outline_cases true v
  · rw [(wrote_leaf _ (some holder) inField h_eq).indentTo, h_eq, gapBehind_getD]
    rfl
  · -- The items of a field stand in the column of its name, unless they go on behind a question mark's colon.
    have h_n : (if inField && !(behind r column lineOpen).lineOpen then holder else holder + 2) =
        holder + if lineOpen then 2 else 0 := by
      cases lineOpen with
      | true => simp [behind]
      | false =>
        cases inField with
        | true => rfl
        | false => exact absurd (h_field rfl) (by decide)
    have h_lead : (behind r column lineOpen).indentTo (holder + if lineOpen then 2 else 0) = _ :=
      indentTo_behind r fun h_open => by rw [h_column h_open, if_pos h_open]; omega
    have h_items := putItems_eq _ _ stop _ h_lead w rest
    rw [putValue, h_n, h_items, outline, Outline.place, Layout.text]
    simp
  · have h_lead : (behind r column lineOpen).indentTo (holder + 2) = _ :=
      indentTo_behind r fun h_open => by rw [h_column h_open]; omega
    have h_fields := putFields_eq _ _ stop _ h_lead key w rest
    rw [putValue, h_fields, outline, Outline.place, Layout.text]
    simp
  termination_by sizeOf v

/-- Items are written in their column one after the other. -/
theorem putItems_eq (r : List Char) (n : ℕ) (stop : Option ℕ) (p : Page) (h : p.indentTo n = aligned r n) (v : Value)
    (rest : List Value) : (p.putItems n (v :: rest)).indentTo (stop.getD 0) =
      aligned ((Layout.itemsText (Outline.placeItems 0 true n stop (outlineItems (v :: rest)))).reverse ++ r)
        (stop.getD 0) := by
  rw [putItems, h, mark_dash]
  cases rest with
  | nil =>
    rw [putItems, putValue_eq ('-' :: r) n (n + 1) true false stop (fun _ => rfl) (fun _ => rfl) v]
    simp [outlineItems, Outline.placeItems, Layout.itemsText]
  | cons w rest =>
    have h_item := putValue_eq ('-' :: r) n (n + 1) true false (some n) (fun _ => rfl) (fun _ => rfl) v
    rw [putItems_eq _ n stop _ h_item w rest]
    simp [outlineItems, Outline.placeItems, Layout.itemsText]
  termination_by sizeOf (v :: rest)

/-- Fields are written in their column one after the other. -/
theorem putFields_eq (r : List Char) (n : ℕ) (stop : Option ℕ) (p : Page) (h : p.indentTo n = aligned r n)
    (key : String) (v : Value) (rest : List (String × Value)) :
    (p.putFields n ((key, v) :: rest)).indentTo (stop.getD 0) =
      aligned ((Layout.fieldsText (Outline.placeFields 0 true n stop (outlineFields ((key, v) :: rest)))).reverse ++ r)
        (stop.getD 0) := by
  have h_column : (!(keyName key n).simple) = true → behindName n (keyName key n) = n + 1 := behindName_of_explicit
  rw [putFields, h, putKey_eq]
  cases rest with
  | nil =>
    rw [putFields, putValue_eq _ n _ _ true stop h_column (fun h_false => Bool.noConfusion h_false) v]
    simp [outlineFields, Outline.placeFields, Layout.fieldsText]
  | cons f rest =>
    obtain ⟨key', w⟩ := f
    have h_field := putValue_eq ((keyName key n).marked.reverse ++ r) n _ _ true (some n) h_column
      (fun h_false => Bool.noConfusion h_false) v
    -- the field leaves the page in the column of the next one
    rw [putFields_eq _ n stop _ h_field key' w rest]
    simp [outlineFields, Outline.placeFields, Layout.fieldsText]
  termination_by sizeOf ((key, v) :: rest)

end

end Page

/-- **A value is written as its outline is laid out**, with the last line ended. -/
theorem write_eq (v : Value) : write v = String.ofList ((outline v).top 0 true).text := by
  have h_start : ({} : Page).indentTo 0 = Page.aligned [] 0 := rfl
  -- a leaf, or the items or the fields of a block in the first column
  have h_page : (({} : Page).putValue none false v).indentTo 0 =
      Page.aligned (((outline v).top 0 true).text.reverse) 0 := by
    obtain ⟨text, closed, content, h_eq, -⟩ | ⟨w, rest, rfl⟩ | ⟨⟨key, w⟩, rest, rfl⟩ := outline_cases true v
    · have h_wrote := (Page.wrote_leaf {} none false h_eq).indentTo (none.getD 0)
      rw [Page.gapBehind_getD] at h_wrote
      rw [h_eq]
      simpa [Page.spaceBefore, Outline.top, Layout.text] using h_wrote
    · have h_items := Page.putItems_eq [] 0 none {} h_start w rest
      simpa [Page.putValue, outline, Outline.top, Layout.text] using h_items
    · have h_fields := Page.putFields_eq [] 0 none {} h_start key w rest
      simpa [Page.putValue, outline, Outline.top, Layout.text] using h_fields
  rw [write, h_page, Page.text, Page.aligned, List.reverse_reverse]

end Yaml

end ScriptYard
