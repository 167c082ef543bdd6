import Mathlib.Data.String.Basic
import ScriptYard.Proofs.Yaml.Styles

/-!
# Keys as names of fields

A key on one line and of at most 128 bytes is written in front of its colon; every other key stands behind a question
mark on lines of its own (`keyName`). The reader takes a name without a question mark only if it is not too long. Each
byte of a key takes at most four characters of its text, also where it is escaped (`length_escape`), so the keys that
the writer puts on one line are short enough, and every key is read as a name in every block (`NameSound.key`).
-/

namespace ScriptYard

namespace Yaml

open Scanner Layout

/-! ### Lengths -/

theorem utf8Size_eq (c : Char) : c.utf8Size =
    if c.toNat ≤ 127 then 1 else if c.toNat ≤ 2047 then 2 else if c.toNat ≤ 65535 then 3 else 4 := by
  simp only [Char.utf8Size, UInt32.le_iff_toNat_le]
  rfl

/-- An escape, with its backslash, takes at most four characters for each byte of what it stands for. -/
theorem length_escape (c : Char) : (Page.escape c).length + 1 ≤ 4 * c.utf8Size := by
  have h_pos := c.utf8Size_pos
  unfold Page.escape
  split
  case h_15 =>
    -- what takes two digits or more takes two bytes or more in UTF-8
    have h_two : ¬c.toNat ≤ 0xFF → 2 ≤ c.utf8Size := fun h => by
      rw [utf8Size_eq]
      split
      · omega
      · split
        · exact Nat.le_refl 2
        · split <;> omega
    have h_four : ¬c.toNat ≤ 0xFFFF → c.utf8Size = 4 := fun h => by
      rw [utf8Size_eq, if_neg (by omega), if_neg (by omega), if_neg h]
    dsimp only
    split
    · simp
      omega
    · next h_byte =>
      have h_size := h_two h_byte
      split
      · simp
        omega
      · next h_long => simp [h_four h_long]
  all_goals simp; omega

theorem length_doubleChar (c : Char) : (Page.doubleChar c).length ≤ 4 * c.utf8Size := by
  have h_pos := c.utf8Size_pos
  unfold Page.doubleChar
  split
  · exact length_escape c
  · simp
    omega

/-- The bytes of a text are those of its characters. -/
theorem utf8ByteSize_eq (text : String) : text.utf8ByteSize = String.utf8Len text.toList := by
  rw [← String.utf8ByteSize_ofList, String.ofList_toList]

/-- A text that is written character by character is at most so many times as long as its bytes as one character is. -/
theorem length_flatMap_le {f : Char → List Char} {k : ℕ} (h : ∀ c, (f c).length ≤ k * c.utf8Size) (cs : List Char) :
    (cs.flatMap f).length ≤ k * String.utf8Len cs := by
  induction cs with
  | nil => simp
  | cons c cs ih =>
    have h_c := h c
    rw [List.flatMap_cons, List.length_append, String.utf8Len_cons, Nat.mul_add]
    omega

/-! ### Strings as names -/

/-- A key as a name, on one line or behind a question mark. -/
def keyName (key : String) (n : ℕ) : Name :=
  let cs := key.toList
  let style := styleOf key
  if Page.isSimpleKey key then ⟨true, style.text cs (n + 2), cs, style.form⟩
  else ⟨false, ' ' :: (style.text cs (n + 2) ++ gapBehind true (style.closes cs) (some n)), cs, style.form⟩

section

variable {cs : List Char}

/-- In single quotes a text on one line is written character by character. -/
theorem singleText_of_no_break (h : ∀ x ∈ cs, isBreak x = false) (n : ℕ) :
    singleText n false cs = cs.flatMap singleChar := by
  have h_text : singleText n false (cs ++ []) = cs.flatMap singleChar ++ singleText n false [] := singleText_word h
  rwa [List.append_nil, singleText, if_neg (by decide), List.append_nil] at h_text

theorem length_singleChar (c : Char) : (singleChar c).length ≤ 4 * c.utf8Size := by
  have h_pos := c.utf8Size_pos
  unfold singleChar
  split
  · simp
    omega
  · simp
    omega

/-- A scalar in quotes on one line is a name. -/
theorem nameFits_quoted {single : Bool} {k n : ℕ} {text : List Char} (h : Quotes single k text cs) (h_k : 0 < k)
    (h_gaps : ∀ x ∈ cs, isQuotedGap single x = true → x = ' ') (h_length : text.length ≤ 512) :
    NameFits n ⟨true, quoteMark single :: (text ++ [quoteMark single]), cs, .quoted⟩ := by
  rw [NameFits, if_pos rfl]
  refine ⟨fun tail _ => ⟨scans_quoted h h_k h_gaps (by simp), fun c h_c => ?_⟩, by simp; omega⟩
  cases single <;> exact Cursor.atDocumentMarker_of_rest h_c (by decide) (by decide)

/-- A key of at most 128 bytes on one line is a name on one line. -/
theorem nameFits_styled {style : ScalarStyle} (h : style.Holds cs) (h_literal : style ≠ .literal)
    (h_cs : ∀ x ∈ cs, isBreak x = false) (h_length : String.utf8Len cs ≤ 128) (n : ℕ) :
    NameFits n ⟨true, style.text cs (n + 2), cs, style.form⟩ := by
  cases style with
  | literal => exact absurd rfl h_literal
  -- a character takes a byte at least, so the text is no longer than its bytes
  | plain =>
    refine (NameSound.plain h.1 h.2 ?_).fits n
    have h_char : ∀ c : Char, [c].length ≤ 1 * c.utf8Size := fun c => by
      rw [Nat.one_mul]
      exact c.utf8Size_pos
    have h_le := length_flatMap_le h_char cs
    rw [List.flatMap_singleton'] at h_le
    omega
  -- quotes double at most, which stays within the length that a simple key may have
  | single =>
    refine nameFits_quoted (quotes_of_allowsSingle (n + 2) h.1 h.2) (Nat.succ_pos _) (fun x h_x h_gap => ?_) ?_
    · refine ((unmixed_of_allowsSingle h.1).runs x h_x h_gap).resolve_right fun h_break => ?_
      rw [h_cs x h_x] at h_break
      cases h_break
    · have h_le := length_flatMap_le length_singleChar cs
      rw [singleText_of_no_break h_cs]
      omega
  | double =>
    have h_le := length_flatMap_le length_doubleChar cs
    exact nameFits_quoted (quotes_double 1 cs) Nat.one_pos (fun x _ h_x => by simpa [isQuotedGap] using h_x) (by omega)

/-- Only texts with line feeds are written as literal blocks. -/
theorem mem_of_styleOf_literal {text : String} (h : styleOf text = .literal) : '\n' ∈ text.toList := by
  unfold styleOf at h
  dsimp only at h
  split at h
  · next h_feed => simpa using h_feed
  · repeat' split at h
    all_goals cases h

/-- A key that is written in front of its colon stands on one line, is short and no literal block. -/
theorem of_isSimpleKey {key : String} (h : Page.isSimpleKey key = true) :
    (∀ x ∈ key.toList, isBreak x = false) ∧ String.utf8Len key.toList ≤ 128 ∧ styleOf key ≠ .literal := by
  rw [Page.isSimpleKey, Bool.and_eq_true, Bool.not_eq_true', List.any_eq_false, decide_eq_true_eq, utf8ByteSize_eq] at h
  have h_breaks : ∀ x ∈ key.toList, isBreak x = false := fun x h_x => by simpa using h.1 x h_x
  exact ⟨h_breaks, h.2, fun h_literal => Bool.noConfusion (h_breaks _ (mem_of_styleOf_literal h_literal))⟩

/-- A key is read as a name in every block. -/
theorem NameSound.key (key : String) : NameSound (keyName key) where
  fits n := by
    have h_holds := styleOf_holds key
    unfold keyName
    dsimp only
    split
    · next h_simple =>
      obtain ⟨h_breaks, h_length, h_literal⟩ := of_isSimpleKey h_simple
      exact nameFits_styled h_holds h_literal h_breaks h_length n
    · -- a key that is not simple stands behind a question mark, as a leaf in a block of its own
      rw [NameFits, if_neg Bool.false_ne_true]
      refine ⟨⟨' ', _, rfl, rfl⟩, fun rest h_rest => ?_⟩
      have h_standing := Standing.styled true h_holds
      have h_reads := h_standing.leafSound.reads n (n + 1 + 1) true (some n) rest (by omega)
        (fun m h_m => by cases h_m; exact Nat.le_refl n) h_rest
      have h_token : AtToken ((styleOf key).text key.toList (n + 2) ++
          (gapBehind true ((styleOf key).closes key.toList) (some n) ++ rest)) :=
        AtToken.of_startsToken (h_standing.starts (n + 2))
      rw [← List.append_assoc] at h_token
      exact Reads.spaces (k := 1) h_token h_reads
  allowed n := by
    have h_allowed := isAllowed_styled (styleOf_holds key) (n + 2)
    unfold keyName
    dsimp only
    split
    · exact h_allowed
    · refine List.forall_mem_cons.mpr ⟨by decide, fun x h_x => ?_⟩
      exact (List.mem_append.mp h_x).elim (h_allowed x) (allowed_gapBehind _ _ _ x)
  same n := by
    unfold keyName
    dsimp only
    split <;> exact ⟨rfl, rfl⟩

end

end Yaml

end ScriptYard
