import Mathlib.Algebra.Group.Nat.Defs
import ScriptYard.Proofs.Yaml.Words

/-!
# Scalars in quotes

Inside quotes the characters of a word are written by `quotedChar`: double quotes escape what cannot be written as it
is, single quotes write their own mark twice. A run between two words is written as it is, with indentation behind line
breaks (`runText`). `Quotes` ties the text inside the quotes to the text that it stands for, and by induction on it the
one is read as the other (`readQuotedTail_quotes`).
-/

namespace ScriptYard

namespace Yaml

/-! ### Escapes -/

theorem digit_hexDigit : ∀ n < 16, Plain.digit? 16 (Page.hexDigit n) = some n := by
  decide

theorem readDigits_append (base m : ℕ) (ds : List Char) (d : Char) : Plain.readDigits? base m (ds ++ [d]) =
    (Plain.readDigits? base m ds).bind fun n => (Plain.digit? base d).map fun k => n * base + k := by
  induction ds generalizing m with
  | nil => cases h : Plain.digit? base d <;> simp [Plain.readDigits?, h]
  | cons x xs ih =>
    rw [List.cons_append, Plain.readDigits?, Plain.readDigits?]
    cases Plain.digit? base x with
    | none => rfl
    | some k => exact ih _

@[simp] theorem length_hexDigits (width n : ℕ) : (Page.hexDigits width n).length = width := by
  induction width generalizing n with
  | zero => rfl
  | succ width ih => rw [Page.hexDigits, List.length_append, ih]; rfl

/-- Hexadecimal digits are read as the number they are the lowest digits of. -/
theorem readDigits_hexDigits (width n : ℕ) :
    Plain.readDigits? 16 0 (Page.hexDigits width n) = some (n % 16 ^ width) := by
  induction width generalizing n with
  | zero => simp [Page.hexDigits, Plain.readDigits?, Nat.mod_one]
  | succ width ih =>
    rw [Page.hexDigits, readDigits_append, ih, digit_hexDigit _ (Nat.mod_lt _ (by omega))]
    simp only [Option.bind_some, Option.map_some, Option.some.injEq]
    rw [Nat.pow_succ', Nat.mod_mul, Nat.mul_comm, Nat.add_comm]

/-- The digits of a character behind an escape are read as the character. -/
theorem readEscape_digits {letter x : Char} {width : ℕ} {tail : List Char} (h_letter : escapeChar? letter = none)
    (h_width : escapeDigits? letter = some width) (h_pos : 0 < width) (h : x.toNat < 16 ^ width) :
    readEscape? (letter :: (Page.hexDigits width x.toNat ++ tail)) = some (x, width + 1) := by
  have h_take : (Page.hexDigits width x.toNat ++ tail).take width = Page.hexDigits width x.toNat := by
    rw [List.take_append_of_le_length (by simp), List.take_of_length_le (by simp)]
  have h_natural : Plain.readNatural? 16 (Page.hexDigits width x.toNat) = some x.toNat := by
    have h_ne : (Page.hexDigits width x.toNat).isEmpty = false := by
      rw [List.isEmpty_eq_false_iff, ← List.length_pos_iff, length_hexDigits]
      exact h_pos
    rw [Plain.readNatural?, h_ne, readDigits_hexDigits, Nat.mod_eq_of_lt h]
    rfl
  -- a character is no surrogate, which the reader would refuse
  have h_valid : x.toNat < 0xD800 ∨ (0xDFFF < x.toNat ∧ x.toNat < 0x110000) := x.valid
  rw [readEscape?]
  simp only [h_letter, h_width, Option.bind_eq_bind, Option.bind_some, h_take, length_hexDigits, Nat.lt_irrefl,
    if_false, h_natural]
  rw [if_neg]
  · simp
  · simp only [Bool.or_eq_true, Bool.and_eq_true, decide_eq_true_eq]
    omega

/-- The escape of a character is read as the character. -/
theorem readEscape_escape (x : Char) (tail : List Char) :
    readEscape? (Page.escape x ++ tail) = some (x, (Page.escape x).length) := by
  unfold Page.escape
  -- by the number of digits: two, four or eight
  split
  case h_15 =>
    have h_valid : x.toNat < 0xD800 ∨ (0xDFFF < x.toNat ∧ x.toNat < 0x110000) := x.valid
    dsimp only
    split
    · next h =>
      rw [List.cons_append, readEscape_digits (by decide) rfl (by decide) (by omega)]
      simp
    · split
      · next h =>
        rw [List.cons_append, readEscape_digits (by decide) rfl (by decide) (by omega)]
        simp
      · next h =>
        rw [List.cons_append, readEscape_digits (by decide) rfl (by decide) (by omega)]
        simp
  all_goals rfl

/-! ### In quotes -/

theorem escape_head (x : Char) : ∃ y ys, Page.escape x = y :: ys ∧ isBreak y = false := by
  unfold Page.escape
  split
  case h_15 =>
    dsimp only
    split
    · exact ⟨_, _, rfl, by decide⟩
    · split <;> exact ⟨_, _, rfl, by decide⟩
  all_goals exact ⟨_, _, rfl, by decide⟩

/-- Inside double quotes the text of a character is read as the character. -/
theorem readQuotedWord_doubleChar {x : Char} {tail : List Char} {c : Cursor} {fuel : ℕ}
    (h : c.rest = Page.doubleChar x ++ tail) (h_x : x ≠ ' ') : readQuotedWord false (fuel + 1) c =
      (readQuotedWord false fuel (c.skip (Page.doubleChar x).length)).map fun r => (x :: r.1, r.2) := by
  unfold Page.doubleChar at h ⊢
  split at h
  · next h_escaped =>
    rw [if_pos h_escaped]
    -- behind the backslash there is no line break, so it is an escape
    obtain ⟨y, ys, h_escape, h_y⟩ := escape_head x
    have h_at : c.peekAt 1 = some y := by rw [Cursor.peekAt, h, h_escape]; rfl
    have h_behind : c.rest.drop 1 = Page.escape x ++ tail := by rw [h]; rfl
    rw [readQuotedWord, Cursor.peek_of_rest h]
    simp only [h_at, h_behind, readEscape_escape, h_y, show isGap '\\' = false from rfl]
    simp [Option.map_eq_bind, Function.comp_def]
  · next h_raw =>
    rw [if_neg h_raw]
    simp only [Bool.or_eq_true, not_or, Bool.not_eq_true, Bool.not_eq_false'] at h_raw
    obtain ⟨⟨⟨h_printable, h_break⟩, h_quote⟩, h_slash⟩ := h_raw
    -- a character that stands for itself is no gap, no quote and no backslash
    have h_gap := isGap_of_isPrintable h_printable h_break h_x
    rw [readQuotedWord, Cursor.peek_of_rest h]
    simp only [h_gap, h_quote, h_slash]
    simp [Option.map_eq_bind, Function.comp_def]

/-- The text of a character inside single quotes. -/
def singleChar (x : Char) : List Char := if x == '\'' then ['\'', '\''] else [x]

/-- Inside single quotes the text of a character is read as the character. -/
theorem readQuotedWord_singleChar {x : Char} {tail : List Char} {c : Cursor} {fuel : ℕ}
    (h : c.rest = singleChar x ++ tail) (h_x : isGap x = false) : readQuotedWord true (fuel + 1) c =
      (readQuotedWord true fuel (c.skip (singleChar x).length)).map fun r => (x :: r.1, r.2) := by
  unfold singleChar at h ⊢
  split at h
  · next h_quote =>
    obtain rfl : x = '\'' := by simpa using h_quote
    have h_at : c.peekAt 1 = some '\'' := by rw [Cursor.peekAt, h]; rfl
    rw [if_pos h_quote, readQuotedWord, Cursor.peek_of_rest h]
    simp [h_at, h_x, Option.map_eq_bind, Function.comp_def]
  · next h_raw =>
    rw [if_neg h_raw, readQuotedWord, Cursor.peek_of_rest h]
    simp only [Bool.not_eq_true] at h_raw
    simp [h_raw, h_x, Option.map_eq_bind, Function.comp_def]

/-- The text of a character of a word inside quotes. -/
def quotedChar (single : Bool) (x : Char) : List Char := if single then singleChar x else Page.doubleChar x

/-- The characters that stand for themselves between the words inside quotes. -/
def isQuotedGap (single : Bool) (x : Char) : Bool := if single then isGap x else x == ' '

def quoteMark (single : Bool) : Char := if single then '\'' else '"'

theorem readQuotedWord_quotedChar {single : Bool} {x : Char} {tail : List Char} {c : Cursor} {fuel : ℕ}
    (h : c.rest = quotedChar single x ++ tail) (h_x : isQuotedGap single x = false) :
    readQuotedWord single (fuel + 1) c =
      (readQuotedWord single fuel (c.skip (quotedChar single x).length)).map fun r => (x :: r.1, r.2) := by
  cases single with
  | true => exact readQuotedWord_singleChar h h_x
  | false => exact readQuotedWord_doubleChar h (by simpa [isQuotedGap] using h_x)

theorem isGap_of_isQuotedGap {single : Bool} {x : Char} (h : isQuotedGap single x = true) : isGap x = true := by
  cases single with
  | true => exact h
  | false =>
    obtain rfl : x = ' ' := by simpa [isQuotedGap] using h
    rfl

/-- The first character of a word inside quotes is no gap. -/
theorem isGap_quotedChar {single : Bool} {x : Char} (h_x : isQuotedGap single x = false) :
    ∃ y ys, quotedChar single x = y :: ys ∧ isGap y = false := by
  cases single with
  | true =>
    unfold quotedChar singleChar
    rw [if_pos rfl]
    split
    · exact ⟨_, _, rfl, by decide⟩
    · exact ⟨_, _, rfl, h_x⟩
  | false =>
    unfold quotedChar Page.doubleChar
    rw [if_neg (by decide)]
    split
    · exact ⟨_, _, rfl, by decide⟩
    · next h_raw =>
      simp only [Bool.or_eq_true, not_or, Bool.not_eq_true, Bool.not_eq_false'] at h_raw
      exact ⟨_, _, rfl, isGap_of_isPrintable h_raw.1.1.1 h_raw.1.1.2 (by simpa [isQuotedGap] using h_x)⟩

/-- A word inside quotes ends in front of a gap and of the closing quote. -/
def EndsQuoted (single : Bool) (tail : List Char) : Prop :=
  ∃ x xs, tail = x :: xs ∧ (isGap x = true ∨ (x = quoteMark single ∧ xs.head? ≠ some '\''))

theorem readQuotedWord_word {single : Bool} {w tail : List Char} {c : Cursor} {fuel : ℕ}
    (h : c.rest = w.flatMap (quotedChar single) ++ tail) (h_w : ∀ x ∈ w, isQuotedGap single x = false)
    (h_tail : EndsQuoted single tail) (h_fuel : w.length < fuel) :
    readQuotedWord single fuel c = some (w, c.skip (w.flatMap (quotedChar single)).length, false) := by
  induction w generalizing c fuel with
  | nil =>
    obtain ⟨fuel, rfl⟩ : ∃ more, fuel = more + 1 := ⟨fuel - 1, by omega⟩
    obtain ⟨x, xs, rfl, h_x⟩ := h_tail
    have h' : c.rest = x :: xs := h
    rw [readQuotedWord, Cursor.peek_of_rest h']
    -- the word ends at a gap, or at the closing quote, which no second one follows
    obtain h_x | ⟨rfl, h_xs⟩ := h_x
    · simp [h_x]
    · have h_at : c.peekAt 1 = xs.head? := by rw [Cursor.peekAt, h']; cases xs <;> rfl
      cases single with
      | true => simp [quoteMark, h_at, h_xs, show isGap '\'' = false from rfl]
      | false => simp [quoteMark, show isGap '"' = false from rfl]
  | cons x w ih =>
    obtain ⟨fuel, rfl⟩ : ∃ more, fuel = more + 1 := ⟨fuel - 1, by omega⟩
    have h' : c.rest = quotedChar single x ++ (w.flatMap (quotedChar single) ++ tail) := by simpa using h
    rw [readQuotedWord_quotedChar h' (h_w x (by simp)), ih (Cursor.skip_rest_of_append h')
      (fun y h_y => h_w y (List.mem_cons_of_mem _ h_y)) (by simpa using h_fuel)]
    simp

/-- The text of a run inside quotes: behind line breaks the next line is indented. -/
def runText (indent : ℕ) (g : List Char) : List Char :=
  g ++ if g.any isBreak then List.replicate indent ' ' else []

theorem runText_of_spaces {indent : ℕ} {g : List Char} (h : ∀ x ∈ g, x = ' ') : runText indent g = g := by
  have h_none : g.any isBreak = false := by
    rw [List.any_eq_false]
    intro x h_x
    rw [h x h_x]
    decide
  rw [runText, h_none]
  simp

/-- A run of spaces, or of the line breaks that stand for themselves. -/
def IsQuotedRun (g : List Char) : Prop :=
  g ≠ [] ∧ ((∀ x ∈ g, x = ' ') ∨ ∀ x ∈ g, x = '\u2028' ∨ x = '\u2029')

/-- The text inside quotes of a text of words. -/
inductive Quotes (single : Bool) (indent : ℕ) : List Char → List Char → Prop where
  | word {w : List Char} (h : ∀ x ∈ w, isQuotedGap single x = false) :
      Quotes single indent (w.flatMap (quotedChar single)) w
  | more {w g text cs : List Char} (h_w : ∀ x ∈ w, isQuotedGap single x = false) (h_g : IsQuotedRun g)
      (h_gap : ∀ x ∈ g, isQuotedGap single x = true) (h_cs : ∀ x ∈ cs.head?, isQuotedGap single x = false)
      (h : Quotes single indent text cs) :
      Quotes single indent (w.flatMap (quotedChar single) ++ (runText indent g ++ text)) (w ++ (g ++ cs))

theorem isLineBreak_of_separator {b : Char} (h : b = '\u2028' ∨ b = '\u2029') :
    IsLineBreak b ∧ Cursor.breakText b = [b] := by
  obtain rfl | rfl := h
  · exact ⟨⟨rfl, by decide⟩, rfl⟩
  · exact ⟨⟨rfl, by decide⟩, rfl⟩

namespace Gap

variable {c : Cursor} {tabsFrom : ℕ} {rest : List Char}

/-- Further line breaks, each of which stands for itself. -/
theorem read_separators (tabsFrom : ℕ) {bs : List Char} (h_bs : ∀ x ∈ bs, x = '\u2028' ∨ x = '\u2029') {g : Gap}
    (h_broken : g.broken = true) (h : c.rest = bs ++ rest) (h_column : c.column = 0) :
    ∃ c', c'.rest = rest ∧ c'.column = 0 ∧ c.line ≤ c'.line ∧ ∀ fuel,
      read tabsFrom (fuel + bs.length) g c = read tabsFrom fuel { g with further := g.further ++ bs } c' := by
  induction bs generalizing c g with
  | nil => exact ⟨c, h, h_column, Nat.le_refl _, fun fuel => by simp⟩
  | cons b bs ih =>
    obtain ⟨h_b, h_text⟩ := isLineBreak_of_separator (h_bs b (by simp))
    have h' : c.rest = b :: (bs ++ rest) := h
    have h_add : g.addBreak [b] = { g with further := g.further ++ [b] } := if_pos h_broken
    obtain ⟨c', h_rest, h_zero, h_line, h_read⟩ := ih (fun x h_x => h_bs x (List.mem_cons_of_mem _ h_x))
      (g := g.addBreak [b]) (c := c.nextLine (bs ++ rest)) (by rw [h_add]; exact h_broken) rfl rfl
    refine ⟨c', h_rest, h_zero, Nat.le_of_succ_le h_line, fun fuel => ?_⟩
    rw [List.length_cons, ← Nat.add_assoc, read_break g h' h_b, h_text, h_read, h_add]
    simp

/-- A run inside quotes is read as the gap that leaves just the run. -/
theorem read_run (tabsFrom : ℕ) {g : List Char} {indent : ℕ} (h_g : IsQuotedRun g) (h : c.rest = runText indent g ++ rest)
    (h_rest : StartsWord rest) (h_indent : 0 < indent) (h_column : 0 < c.column) :
    ∃ gap c', read tabsFrom (c.rest.length + 1) empty c = some (gap, c') ∧ gap.text = g ∧ c'.rest = rest ∧
      c.line ≤ c'.line ∧ 0 < c'.column ∧ ((∀ x ∈ g, x = ' ') → c' = c.skip g.length) := by
  obtain ⟨h_ne, h_spaces | h_breaks⟩ := h_g
  · -- spaces stand for themselves
    rw [runText_of_spaces h_spaces, List.eq_replicate_of_mem h_spaces] at h
    have h_behind := Cursor.skip_rest_of_append h
    rw [List.length_replicate] at h_behind
    refine ⟨empty.addSpaces g.length, c.skip g.length, ?_, ?_, h_behind, Nat.le_refl _, ?_, fun _ => rfl⟩
    · rw [show c.rest.length + 1 = rest.length + 1 + g.length by rw [h]; simp; omega, read_spaces _ h,
        read_stop _ (by rw [h_behind]; exact h_rest)]
    · rw [show (empty.addSpaces g.length).text = List.replicate g.length ' ' from rfl,
        ← List.eq_replicate_of_mem h_spaces]
    · rw [Cursor.skip_column]
      omega
  · -- breaks other than a line feed are kept as they are, with the indentation behind them
    obtain ⟨b, bs, rfl⟩ := List.exists_cons_of_ne_nil h_ne
    obtain ⟨h_b, h_text⟩ := isLineBreak_of_separator (h_breaks b (by simp))
    have h' : c.rest = b :: (bs ++ (List.replicate indent ' ' ++ rest)) := by
      have h_any : (b :: bs).any isBreak = true := by rw [List.any_cons, h_b.1]; rfl
      rw [h, runText, h_any]
      simp
    obtain ⟨c', h_c', h_zero, h_line, h_read⟩ := read_separators tabsFrom
      (fun x h_x => h_breaks x (List.mem_cons_of_mem _ h_x)) (g := empty.addBreak [b])
      (c := c.nextLine (bs ++ (List.replicate indent ' ' ++ rest))) rfl rfl rfl
    have h_behind := Cursor.skip_rest_of_append h_c'
    rw [List.length_replicate] at h_behind
    refine ⟨Gap.addSpaces ⟨[], [b], bs, true⟩ indent, c'.skip indent, ?_, ?_, h_behind, Nat.le_of_succ_le h_line, ?_,
      fun h_spaces => ?_⟩
    · rw [show c.rest.length + 1 = rest.length + 1 + indent + bs.length + 1 by rw [h']; simp; omega,
        read_break _ h' h_b, h_text, h_read, read_spaces _ h_c', read_stop _ (by rw [h_behind]; exact h_rest)]
      rfl
    · have h_feed : b ≠ '\n' := by
        obtain rfl | rfl := h_breaks b (by simp) <;> decide
      show (if [b] == ['\n'] then _ else [b] ++ bs) = _
      rw [if_neg (by simpa using h_feed)]
      rfl
    · rw [Cursor.skip_column]
      omega
    · have h_space := h_spaces b (by simp)
      rw [h_space] at h_b
      exact absurd h_b.1 (by decide)

end Gap

/-- The text inside quotes starts with no gap where the text that it stands for starts with a word. -/
theorem Quotes.startsWord {single : Bool} {indent : ℕ} {text cs tail : List Char} (h : Quotes single indent text cs)
    (h_cs : ∀ x ∈ cs.head?, isQuotedGap single x = false) : StartsWord (text ++ quoteMark single :: tail) := by
  have h_mark : isGap (quoteMark single) = false := by cases single <;> rfl
  have h_word : ∀ (x : Char) (tail : List Char), isQuotedGap single x = false →
      StartsWord (quotedChar single x ++ tail) := by
    intro x tail h_x
    obtain ⟨y, ys, h_eq, h_y⟩ := isGap_quotedChar h_x
    rw [h_eq]
    simpa [StartsWord] using h_y
  cases h with
  | word h_w =>
    cases cs with
    -- an empty text: the closing quote follows
    | nil => simpa [StartsWord] using h_mark
    | cons x w =>
      rw [List.flatMap_cons, List.append_assoc]
      exact h_word x _ (h_w x (by simp))
  | @more w g text cs h_w h_g h_gap _ _ =>
    cases w with
    | nil =>
      obtain ⟨x, g, rfl⟩ := List.exists_cons_of_ne_nil h_g.1
      have h_x := h_gap x (by simp)
      rw [h_cs x rfl] at h_x
      cases h_x
    | cons x w =>
      rw [List.flatMap_cons, List.append_assoc, List.append_assoc]
      exact h_word x _ (h_w x (by simp))

theorem length_le_flatMap_quotedChar {single : Bool} {w : List Char} (h_w : ∀ x ∈ w, isQuotedGap single x = false) :
    w.length ≤ (w.flatMap (quotedChar single)).length := by
  induction w with
  | nil => exact Nat.le_refl _
  | cons x w ih =>
    obtain ⟨y, ys, h_eq, -⟩ := isGap_quotedChar (h_w x (by simp))
    have h_le := ih fun z h_z => h_w z (List.mem_cons_of_mem _ h_z)
    rw [List.flatMap_cons, List.length_append, h_eq, List.length_cons, List.length_cons]
    omega

/-- What is read inside quotes up to the end of a word: all is read in front of the closing quote, and else the gap is
read next. -/
theorem readQuotedTail_word {single : Bool} {w tail : List Char} {c : Cursor} {fuel : ℕ} {acc : List Char}
    (h : c.rest = w.flatMap (quotedChar single) ++ tail) (h_w : ∀ x ∈ w, isQuotedGap single x = false)
    (h_tail : EndsQuoted single tail) (h_column : 0 < c.column) :
    readQuotedTail single (fuel + 1) acc c =
      (let c' := c.skip (w.flatMap (quotedChar single)).length
      if tail.head? = some (quoteMark single) then some ⟨acc ++ w, c'.skip 1, false⟩
      else (Gap.read 0 (c'.rest.length + 1) Gap.empty c').bind fun r =>
        readQuotedTail single fuel (acc ++ w ++ r.1.text) r.2) := by
  have h_ne : c.rest.isEmpty = false := by
    obtain ⟨x, xs, rfl, -⟩ := h_tail
    rw [h]
    simp
  -- the fuel is the length of the rest, and each character takes one at least
  have h_length : w.length < c.rest.length + 1 := by
    rw [h, List.length_append]
    have h_le := length_le_flatMap_quotedChar h_w
    omega
  have h_peek : (c.skip (w.flatMap (quotedChar single)).length).peek = tail.head? := by
    rw [Cursor.peek, Cursor.skip_rest_of_append h]
  rw [readQuotedTail, Cursor.atDocumentMarker_of_pos h_column, h_ne, Bool.or_false, if_neg (by decide),
    readQuotedWord_word h h_w h_tail h_length]
  simp only [Option.bind_eq_bind, Option.bind_some, h_peek, beq_iff_eq]
  rfl

theorem Quotes.length_le {single : Bool} {indent : ℕ} {text cs : List Char} (h : Quotes single indent text cs) :
    cs.length ≤ text.length := by
  induction h with
  | word h_w => exact length_le_flatMap_quotedChar h_w
  | more h_w _ _ _ _ ih =>
    have h_le := length_le_flatMap_quotedChar h_w
    simp only [List.length_append, runText] at ih ⊢
    omega

/-- A text inside quotes is read as the text it stands for. -/
theorem readQuotedTail_quotes {single : Bool} {indent : ℕ} {text cs tail : List Char} (h : Quotes single indent text cs)
    (h_indent : 0 < indent) (h_tail : tail.head? ≠ some '\'') : ∀ (c : Cursor) (acc : List Char) (fuel : ℕ),
      c.rest = text ++ quoteMark single :: tail → 0 < c.column → cs.length < fuel →
        ∃ c', readQuotedTail single fuel acc c = some ⟨acc ++ cs, c', false⟩ ∧ c'.rest = tail ∧ c.line ≤ c'.line ∧
          ((∀ x ∈ cs, isQuotedGap single x = true → x = ' ') → c' = c.skip (text.length + 1)) := by
  induction h with
  | @word w h_w =>
    intro c acc fuel h_rest h_column h_fuel
    obtain ⟨fuel, rfl⟩ : ∃ more, fuel = more + 1 := ⟨fuel - 1, by omega⟩
    have h_behind : (c.skip ((w.flatMap (quotedChar single)).length + 1)).rest = tail := by
      rw [Cursor.skip_rest, h_rest, List.drop_length_add_append]
      rfl
    refine ⟨c.skip ((w.flatMap (quotedChar single)).length + 1), ?_, h_behind, Nat.le_refl _, fun _ => rfl⟩
    rw [readQuotedTail_word h_rest h_w ⟨_, _, rfl, .inr ⟨rfl, h_tail⟩⟩ h_column]
    simp
  | @more w g text cs h_w h_g h_gap h_cs h_text ih =>
    intro c acc fuel h_rest h_column h_fuel
    obtain ⟨fuel, rfl⟩ : ∃ more, fuel = more + 1 := ⟨fuel - 1, by omega⟩
    have h_rest' : c.rest = w.flatMap (quotedChar single) ++ (runText indent g ++ (text ++ quoteMark single :: tail)) := by
      simpa using h_rest
    obtain ⟨x, xs, h_x, h_x_gap⟩ : ∃ x xs, runText indent g = x :: xs ∧ isGap x = true := by
      obtain ⟨x, g, rfl⟩ := List.exists_cons_of_ne_nil h_g.1
      exact ⟨x, _, rfl, isGap_of_isQuotedGap (h_gap x (by simp))⟩
    have h_open : (runText indent g ++ (text ++ quoteMark single :: tail)).head? ≠ some (quoteMark single) := by
      rw [h_x, List.cons_append, List.head?_cons]
      intro h_eq
      rw [Option.some.inj h_eq] at h_x_gap
      cases single <;> cases h_x_gap
    -- the run behind the word
    obtain ⟨gap, c', h_read, h_gap_text, h_c', h_line, h_pos, h_skip⟩ := Gap.read_run 0 h_g
      (Cursor.skip_rest_of_append h_rest') (h_text.startsWord h_cs) h_indent
      (show 0 < (c.skip (w.flatMap (quotedChar single)).length).column by rw [Cursor.skip_column]; omega)
    -- and what is left behind it
    obtain ⟨c'', h_tail', h_c'', h_line', h_skip'⟩ := ih c' (acc ++ w ++ g) fuel h_c' h_pos
      (by
        have h_pos := List.length_pos_of_ne_nil h_g.1
        simp only [List.length_append] at h_fuel
        omega)
    refine ⟨c'', ?_, h_c'', Nat.le_trans h_line h_line', fun h_spaces => ?_⟩
    · rw [readQuotedTail_word h_rest' h_w ⟨x, xs ++ (text ++ quoteMark single :: tail), by rw [h_x]; rfl, .inl h_x_gap⟩
        h_column]
      dsimp only
      rw [if_neg h_open, h_read, Option.bind_some, h_gap_text, h_tail']
      simp
    · have h_g_spaces : ∀ y ∈ g, y = ' ' := fun y h_y => h_spaces y (by simp [h_y]) (h_gap y h_y)
      rw [h_skip' fun y h_y => h_spaces y (by simp [h_y]), h_skip h_g_spaces, Cursor.skip_skip, Cursor.skip_skip,
        runText_of_spaces h_g_spaces]
      simp only [List.length_append, Nat.add_assoc]

/-! ### What quotes can hold -/

/-- A text each of whose characters is written as it is. -/
theorem flatMap_of_forall {f : Char → List Char} {g : List Char} (h : ∀ x ∈ g, f x = [x]) : g.flatMap f = g := by
  induction g with
  | nil => rfl
  | cons x g ih =>
    rw [List.flatMap_cons, h x (by simp), ih fun y h_y => h y (List.mem_cons_of_mem _ h_y)]
    rfl

/-- Double quotes hold every text, with escapes where they are needed. -/
theorem quotes_double (indent : ℕ) (cs : List Char) : Quotes false indent (cs.flatMap Page.doubleChar) cs := by
  have h_spaces : ∀ x ∈ cs, isQuotedGap false x = true → x = ' ' := fun x _ h_x => by simpa [isQuotedGap] using h_x
  have h_spaced := (unmixed_of_spaces h_spaces).spaced
  clear h_spaces
  induction h_spaced with
  | word h_w => exact .word h_w
  | @more w g cs h_w h_g h_gap h_cs _ ih =>
    have h_g_spaces : ∀ x ∈ g, x = ' ' := fun x h_x => by simpa [isQuotedGap] using h_gap x h_x
    have h_quotes := Quotes.more h_w ⟨h_g.1, .inl h_g_spaces⟩ h_gap h_cs ih
    rw [runText_of_spaces h_g_spaces] at h_quotes
    have h_flat : g.flatMap Page.doubleChar = g := flatMap_of_forall fun x h_x => by rw [h_g_spaces x h_x]; rfl
    rw [List.flatMap_append, List.flatMap_append, h_flat]
    exact h_quotes

/-- The text of a scalar in single quotes: a run of line breaks is followed by the indentation of the next line. -/
def singleText (indent : ℕ) : (broken : Bool) → List Char → List Char
  | broken, [] => if broken then List.replicate indent ' ' else []
  | broken, x :: cs =>
    if isBreak x then x :: singleText indent true cs
    else (if broken then List.replicate indent ' ' else []) ++ (singleChar x ++ singleText indent false cs)

section

variable {indent : ℕ} {w g cs : List Char}

theorem singleText_word (h_w : ∀ x ∈ w, isBreak x = false) :
    singleText indent false (w ++ cs) = w.flatMap singleChar ++ singleText indent false cs := by
  induction w with
  | nil => rfl
  | cons x w ih =>
    rw [List.cons_append, singleText, if_neg (by simp [h_w x (by simp)]), if_neg (by decide),
      ih fun y h_y => h_w y (List.mem_cons_of_mem _ h_y)]
    simp

theorem singleText_breaks {broken : Bool} (h_ne : g ≠ []) (h_g : ∀ x ∈ g, isBreak x = true) :
    singleText indent broken (g ++ cs) = g ++ singleText indent true cs := by
  induction g generalizing broken with
  | nil => exact absurd rfl h_ne
  | cons x g ih =>
    rw [List.cons_append, singleText, if_pos (h_g x (by simp)), List.cons_append]
    cases g with
    | nil => rfl
    | cons y ys => rw [ih (List.cons_ne_nil _ _) fun z h_z => h_g z (List.mem_cons_of_mem _ h_z)]

theorem singleText_true (h_cs : ∀ x ∈ cs.head?, isBreak x = false) :
    singleText indent true cs = List.replicate indent ' ' ++ singleText indent false cs := by
  cases cs with
  | nil => simp [singleText]
  | cons x cs => simp [singleText, h_cs x rfl]

/-- Single quotes hold a text whose line breaks stand for themselves and do not meet spaces. -/
theorem quotes_single (indent : ℕ) (h_gaps : ∀ x ∈ cs, isGap x = true → x = ' ' ∨ x = '\u2028' ∨ x = '\u2029')
    (h : Unmixed isGap cs) : Quotes true indent (singleText indent false cs) cs := by
  have h_spaced := h.spaced
  clear h
  -- by the words and runs of the text
  induction h_spaced with
  | @word w h_w =>
    have h_text : singleText indent false (w ++ []) = w.flatMap singleChar ++ singleText indent false [] :=
      singleText_word fun x h_x => isBreak_eq_false_of_isGap (h_w x h_x)
    simp only [List.append_nil, singleText, Bool.false_eq_true, if_false] at h_text
    rw [h_text]
    exact .word h_w
  | @more w g cs h_w h_g h_gap h_cs _ ih =>
    have h_runs : ∀ x ∈ g, x = ' ' ∨ x = '\u2028' ∨ x = '\u2029' := fun x h_x =>
      h_gaps x (by simp [h_x]) (h_gap x h_x)
    have h_rest := ih fun x h_x => h_gaps x (by simp [h_x])
    have h_text : singleText indent false (w ++ (g ++ cs)) =
        w.flatMap singleChar ++ (runText indent g ++ singleText indent false cs) ∧ IsQuotedRun g := by
      rw [singleText_word fun x h_x => isBreak_eq_false_of_isGap (h_w x h_x)]
      -- spaces go on in the line; behind a break the next word is indented
      obtain ⟨h_ne, h_spaces | h_breaks⟩ := h_g
      · refine ⟨?_, h_ne, .inl h_spaces⟩
        have h_flat : g.flatMap singleChar = g := flatMap_of_forall fun x h_x => by rw [h_spaces x h_x]; rfl
        rw [runText_of_spaces h_spaces, singleText_word fun x h_x => by rw [h_spaces x h_x]; rfl, h_flat]
      · refine ⟨?_, h_ne, .inr fun x h_x => ?_⟩
        · have h_any : g.any isBreak = true := by
            obtain ⟨x, xs, rfl⟩ := List.exists_cons_of_ne_nil h_ne
            rw [List.any_cons, h_breaks x (by simp)]
            rfl
          rw [singleText_breaks h_ne h_breaks, singleText_true fun x h_x => isBreak_eq_false_of_isGap (h_cs x h_x), runText,
            h_any, if_pos rfl, List.append_assoc]
        · obtain rfl | h_x' := h_runs x h_x
          · exact absurd (h_breaks ' ' h_x) (by decide)
          · exact h_x'
    rw [h_text.1]
    exact .more h_w h_text.2 h_gap h_cs h_rest

end

end Yaml

end ScriptYard
