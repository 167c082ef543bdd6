import Mathlib.Data.Bool.AllAny
import ScriptYard.Proofs.Yaml.Keys

/-!
# Values as outlines

The outline of a value says what is written of it: numbers and words without quotes, strings in their style, empty
arrays and objects as brackets, other arrays item by item and other objects field by field (`outline`). All its parts
are read for themselves (`sound_outline`, `topSound_outline`).

A number is written as a numeral (`IsNumeral`): a digit, in front of which a minus sign may stand, and behind it nothing
but digits, points and exponents. A numeral can always be written without quotes.
-/

namespace ScriptYard

namespace Yaml

open Scanner Layout

/-! ### Numerals -/

section

variable {cs : List Char}

/-- The characters of numerals. -/
def numeralChars : List Char := "0123456789.e+-".toList

theorem mem_digits_of_isDigit {c : Char} (h : c.isDigit = true) : c ∈ "0123456789".toList := by
  have h_all : ∀ n < 58, 48 ≤ n → Char.ofNat n ∈ "0123456789".toList := by decide
  have h_toNat : c.toNat = c.val.toNat := rfl
  simp only [Char.isDigit, Bool.and_eq_true, decide_eq_true_eq, UInt32.le_iff_toNat_le] at h
  rw [← Char.ofNat_toNat c]
  exact h_all c.toNat (Nat.lt_succ_of_le h.2) h.1

theorem mem_numeralChars_of_isDigit {c : Char} (h : c.isDigit = true) : c ∈ numeralChars :=
  List.mem_append_left ['.', 'e', '+', '-'] (mem_digits_of_isDigit h)

/-- A digit with characters of numerals behind it. -/
def IsUnsigned (cs : List Char) : Prop := ∃ d ds, cs = d :: ds ∧ d.isDigit = true ∧ ∀ x ∈ ds, x ∈ numeralChars

/-- A numeral, with a minus sign or not. -/
def IsNumeral (cs : List Char) : Prop :=
  ∃ negative : Bool, ∃ ds, cs = (if negative then ['-'] else []) ++ ds ∧ IsUnsigned ds

theorem IsUnsigned.chars (h : IsUnsigned cs) : ∀ x ∈ cs, x ∈ numeralChars := by
  obtain ⟨d, ds, rfl, h_d, h_ds⟩ := h
  exact List.forall_mem_cons.mpr ⟨mem_numeralChars_of_isDigit h_d, h_ds⟩

theorem IsNumeral.chars (h : IsNumeral cs) : ∀ x ∈ cs, x ∈ numeralChars := by
  obtain ⟨negative, ds, rfl, h_ds⟩ := h
  intro x h_x
  obtain h_x | h_x := List.mem_append.mp h_x
  · cases negative with
    | true =>
      rw [List.mem_singleton.mp h_x]
      decide
    | false => cases h_x
  · exact h_ds.chars x h_x

/-- A character that opens nothing at the end of a text opens nothing at all. -/
theorem isOpeningIndicator_of_none {c : Char} (h : isOpeningIndicator c none = false) (next : Option Char) :
    isOpeningIndicator c next = false := by
  have h_end : endsWord none = true := rfl
  rw [isOpeningIndicator, Bool.or_eq_false_iff, h_end, Bool.and_true] at h
  rw [isOpeningIndicator, h.1, h.2]
  rfl

/-- A numeral starts with no mark and holds none. -/
theorem IsNumeral.hasIndicators (h : IsNumeral cs) : hasIndicators cs = false := by
  have h_marks : ∀ x ∈ numeralChars, x ≠ ':' ∧ x ≠ '#' := List.all_iff_forall_prop.mp (by decide)
  have h_clear : ∀ b ds, (∀ x ∈ ds, x ∈ numeralChars) → holdsIndicator b ds = false := fun b ds h_ds =>
    holdsIndicator_append (fun x h_x => h_marks x (h_ds x h_x)) b (show holdsIndicator b [] = false from rfl)
  have h_digits : ∀ y ∈ "0123456789".toList,
      y ≠ '-' ∧ y ≠ '.' ∧ isGap y = false ∧ isOpeningIndicator y none = false :=
    List.all_iff_forall_prop.mp (by decide)
  obtain ⟨negative, _, rfl, d, ds, rfl, h_d, h_ds⟩ := h
  obtain ⟨h_dash, h_dot, h_gap, h_open⟩ := h_digits d (mem_digits_of_isDigit h_d)
  cases negative with
  | true =>
    have h_all : ∀ x ∈ d :: ds, x ∈ numeralChars := List.forall_mem_cons.mpr ⟨mem_numeralChars_of_isDigit h_d, h_ds⟩
    simp [Yaml.hasIndicators, isOpeningIndicator, endsWord, Cursor.endsOr, h_gap, h_dash, h_clear _ _ h_all]
  | false => simp [Yaml.hasIndicators, isOpeningIndicator_of_none h_open, h_dash, h_dot, h_clear _ _ h_ds]

/-- A numeral can be written without quotes. -/
theorem IsNumeral.allowsPlain (h : IsNumeral cs) : cs ≠ [] ∧ allowsPlain cs = true := by
  have h_plain : ∀ x ∈ numeralChars, isPrintable x = true ∧ isBreak x = false ∧ x ≠ ' ' :=
    List.all_iff_forall_prop.mp (by decide)
  have h_chars : ∀ x ∈ cs, isPrintable x = true ∧ isBreak x = false ∧ x ≠ ' ' := fun x h_x => h_plain x (h.chars x h_x)
  have h_outer : hasOuterSpaceOrBreak cs = false := by
    rw [hasOuterSpaceOrBreak, Bool.or_eq_false_iff, Bool.or_eq_false_iff, beq_eq_false_iff_ne, beq_eq_false_iff_ne,
      List.any_eq_false]
    exact ⟨⟨fun h_eq => (h_chars ' ' (List.mem_of_head? h_eq)).2.2 rfl,
      fun h_eq => (h_chars ' ' (List.mem_of_getLast? h_eq)).2.2 rfl⟩, fun x h_x => by simp [(h_chars x h_x).2.1]⟩
  have h_escapes : needsEscapes cs = false := by
    rw [needsEscapes, Bool.or_eq_false_iff, List.any_eq_false]
    refine ⟨fun x h_x => by simp [(h_chars x h_x).1], hasPair_eq_false fun a b h_a _ => ?_⟩
    simp [(h_chars a h_a).2.2]
  refine ⟨?_, by rw [Yaml.allowsPlain, h_outer, h_escapes, h.hasIndicators]; rfl⟩
  obtain ⟨negative, _, rfl, d, ds, rfl, -⟩ := h
  simp

theorem isUnsigned_cons {d : Char} {ds : List Char} (h_d : d.isDigit = true) (h_ds : ∀ x ∈ ds, x ∈ numeralChars) :
    IsUnsigned (d :: ds) := ⟨d, ds, rfl, h_d, h_ds⟩

/-- Digits are characters of numerals. -/
theorem forall_mem_numeralChars {ds : List Char} (h : ∀ x ∈ ds, x.isDigit = true) : ∀ x ∈ ds, x ∈ numeralChars :=
  fun x h_x => mem_numeralChars_of_isDigit (h x h_x)

theorem isDigit_decimalDigits (n : ℕ) : ∀ x ∈ decimalDigits n, x.isDigit = true :=
  fun _ h_x => Nat.isDigit_of_mem_toDigits (by decide) (by decide) h_x

theorem isUnsigned_decimalDigits (n : ℕ) : IsUnsigned (decimalDigits n) := by
  obtain ⟨d, ds, h_eq⟩ := List.exists_cons_of_ne_nil (show decimalDigits n ≠ [] from Nat.toDigits_ne_nil)
  have h_digits := isDigit_decimalDigits n
  rw [h_eq] at h_digits ⊢
  obtain ⟨h_d, h_ds⟩ := List.forall_mem_cons.mp h_digits
  exact isUnsigned_cons h_d (forall_mem_numeralChars h_ds)

theorem isNumeral_integerText (i : ℤ) : IsNumeral (integerText i).toList := by
  refine ⟨decide (i < 0), decimalDigits i.natAbs, ?_, isUnsigned_decimalDigits _⟩
  unfold integerText
  by_cases h_negative : i < 0 <;> simp [h_negative]

section

variable {style : FloatStyle} {d : Char} {ds : List Char} {lead : ℤ}

/-- A number with all its places written out is a numeral. -/
theorem isUnsigned_positional (h : ∀ x ∈ d :: ds, x.isDigit = true) : IsUnsigned (style.positional (d :: ds) lead) := by
  have h_zero : '0' ∈ numeralChars := by decide
  have h_point : '.' ∈ numeralChars := by decide
  have h_chars := forall_mem_numeralChars h
  obtain ⟨h_d, h_ds⟩ := List.forall_mem_cons.mp h
  have h_zeros : ∀ n, ∀ x ∈ List.replicate n '0', x ∈ numeralChars := fun n x h_x => by
    rwa [List.eq_of_mem_replicate h_x]
  unfold FloatStyle.positional
  split
  · -- below one: zeros stand in front of the digits
    refine isUnsigned_cons (by decide) (List.forall_mem_cons.mpr ⟨h_point, fun x h_x => ?_⟩)
    exact (List.mem_append.mp h_x).elim (h_zeros _ x) (h_chars x)
  · -- digits in front of the point, zeros up to it, and digits behind it
    refine isUnsigned_cons h_d fun x h_x => ?_
    obtain h_x | h_x := List.mem_append.mp h_x
    · obtain h_x | h_x := List.mem_append.mp h_x
      · exact h_chars x (List.mem_cons_of_mem _ (List.mem_of_mem_take h_x))
      · exact h_zeros _ x h_x
    · split at h_x
      · split at h_x
        · obtain rfl | rfl : x = '.' ∨ x = '0' := by simpa using h_x
          · exact h_point
          · exact h_zero
        · cases h_x
      · obtain rfl | h_x := List.mem_cons.mp h_x
        · exact h_point
        · exact h_chars x (List.mem_of_mem_drop h_x)

/-- A number with an exponent is a numeral. -/
theorem isUnsigned_exponentForm (h : ∀ x ∈ d :: ds, x.isDigit = true) :
    IsUnsigned (style.exponentForm (d :: ds) lead) := by
  obtain ⟨h_d, h_ds⟩ := List.forall_mem_cons.mp h
  have h_marks : '.' ∈ numeralChars ∧ 'e' ∈ numeralChars ∧ '+' ∈ numeralChars ∧ '-' ∈ numeralChars := by decide
  have h_sign : ∀ x ∈ (if lead < 0 then ['-'] else if style.exponentPlus then ['+'] else []), x ∈ numeralChars := by
    split
    · simpa using h_marks.2.2.2
    · split
      · simpa using h_marks.2.2.1
      · simp
  have h_form : ∀ fraction : List Char, (∀ x ∈ fraction, x ∈ numeralChars) →
      IsUnsigned (d :: (fraction ++ 'e' :: (if lead < 0 then ['-'] else if style.exponentPlus then ['+'] else []) ++
        decimalDigits lead.natAbs)) := fun fraction h_fraction =>
    isUnsigned_cons h_d (List.forall_mem_append.mpr ⟨List.forall_mem_append.mpr ⟨h_fraction,
      List.forall_mem_cons.mpr ⟨h_marks.2.1, h_sign⟩⟩, forall_mem_numeralChars (isDigit_decimalDigits _)⟩)
  -- a single digit has no point behind it
  cases ds with
  | nil => exact h_form [] (by simp)
  | cons d' ds => exact h_form ('.' :: d' :: ds) (List.forall_mem_cons.mpr ⟨h_marks.1, forall_mem_numeralChars h_ds⟩)

/-- The text of a floating-point number is a numeral. -/
theorem isNumeral_format (style : FloatStyle) (x : Finite64) : IsNumeral (style.format x).toList := by
  have h_zero : ∀ y ∈ ['0'], y.isDigit = true := List.all_eq_true.mp (by decide)
  obtain ⟨d, ds, h_eq, -⟩ := isUnsigned_decimalDigits x.shortest.digits
  have h_digits := isDigit_decimalDigits x.shortest.digits
  unfold FloatStyle.format
  dsimp only
  split
  · rw [String.toList_ofList]
    exact ⟨x.negative, _, rfl, isUnsigned_positional h_zero⟩
  · rw [String.toList_ofList]
    refine ⟨x.negative, _, rfl, ?_⟩
    rw [h_eq] at h_digits ⊢
    exact iteInduction (fun _ => isUnsigned_exponentForm h_digits) fun _ => isUnsigned_positional h_digits

end

end

/-! ### Values as outlines -/

/-- A text without quotes. -/
def plainLeaf (cs : List Char) : Outline := .leaf (fun _ => cs) false (.scalar cs .plain)

mutual

/-- What is written of a value. -/
def outline : Value → Outline
  | .null => plainLeaf "null".toList
  | .bool b => plainLeaf (if b then "true" else "false").toList
  | .number (.int i) => plainLeaf (integerText i).toList
  | .number (.float x) => plainLeaf (FloatStyle.plainExponent.format x).toList
  | .string s => .leaf ((styleOf s).text s.toList) ((styleOf s).closes s.toList) (.scalar s.toList (styleOf s).form)
  | .array [] => .leaf (fun _ => ['[', ']']) false (.list [])
  | .array (v :: rest) => .seq (outlineItems (v :: rest))
  | .object [] => .leaf (fun _ => ['\x7b', '\x7d']) false .braces
  | .object (f :: rest) => .map (outlineFields (f :: rest))

/-- What is written of the items of an array. -/
def outlineItems : List Value → List Outline
  | [] => []
  | v :: rest => outline v :: outlineItems rest

/-- What is written of the fields of an object. -/
def outlineFields : List (String × Value) → List ((ℕ → Name) × Outline)
  | [] => []
  | (key, v) :: rest => (keyName key, outline v) :: outlineFields rest

end

/-- A value has parts, or what is written of it is a leaf that stands in every block. -/
theorem outline_cases (final : Bool) (v : Value) :
    (∃ text closed content, outline v = .leaf text closed content ∧ Standing final text closed content) ∨
      (∃ w rest, v = .array (w :: rest)) ∨ ∃ f rest, v = .object (f :: rest) := by
  -- the three words that stand for values may be written without quotes
  have h_words : ∀ cs ∈ ["null".toList, "true".toList, "false".toList], cs ≠ [] ∧ allowsPlain cs = true := by decide
  have h_leaf : ∀ {text closed content}, outline v = .leaf text closed content → Standing final text closed content →
      ∃ text closed content, outline v = .leaf text closed content ∧ Standing final text closed content :=
    fun h_eq h => ⟨_, _, _, h_eq, h⟩
  cases v with
  | null => exact .inl (h_leaf rfl (.plain final (h_words _ (by simp))))
  | bool b => cases b <;> exact .inl (h_leaf rfl (.plain final (h_words _ (by simp))))
  | number n =>
    cases n with
    | int i => exact .inl (h_leaf rfl (.plain final (isNumeral_integerText i).allowsPlain))
    | float x => exact .inl (h_leaf rfl (.plain final (isNumeral_format _ x).allowsPlain))
  | string s => exact .inl (h_leaf rfl (.styled final (styleOf_holds s)))
  | array items =>
    cases items with
    | nil => exact .inl (h_leaf rfl (.brackets final))
    | cons w rest => exact .inr (.inl ⟨w, rest, rfl⟩)
  | object fields =>
    cases fields with
    | nil => exact .inl (h_leaf rfl (.braces final))
    | cons f rest => exact .inr (.inr ⟨f, rest, rfl⟩)

mutual

/-- All parts of what is written of a value are read for themselves. -/
theorem sound_outline (final : Bool) (v : Value) : (outline v).Sound final := by
  obtain ⟨text, closed, content, h_eq, h⟩ | ⟨w, rest, rfl⟩ | ⟨⟨key, w⟩, rest, rfl⟩ := outline_cases final v
  · rw [h_eq]
    exact h.leafSound
  · exact ⟨List.cons_ne_nil _ _, sound_outlineItems final (w :: rest)⟩
  · exact ⟨List.cons_ne_nil _ _, sound_outlineFields final ((key, w) :: rest)⟩
  termination_by sizeOf v

/-- `sound_outline` item by item. -/
theorem sound_outlineItems (final : Bool) : (items : List Value) → Outline.ItemsSound final (outlineItems items)
  | [] => trivial
  | v :: rest => ⟨sound_outline final v, sound_outlineItems final rest⟩
  termination_by items => sizeOf items

/-- `sound_outline` field by field, each under its key. -/
theorem sound_outlineFields (final : Bool) : (fields : List (String × Value)) →
    Outline.FieldsSound final (outlineFields fields)
  | [] => trivial
  | (key, v) :: rest => ⟨.key key, sound_outline final v, sound_outlineFields final rest⟩
  termination_by fields => sizeOf fields

end

/-- What is written of a value is read where nothing else stands. -/
theorem topSound_outline (final : Bool) (v : Value) : (outline v).TopSound final := by
  obtain ⟨text, closed, content, h_eq, h⟩ | ⟨w, rest, rfl⟩ | ⟨⟨key, w⟩, rest, rfl⟩ := outline_cases final v
  · rw [h_eq]
    exact h.topSound
  · exact sound_outline final (.array (w :: rest))
  · exact sound_outline final (.object ((key, w) :: rest))

end Yaml

end ScriptYard
