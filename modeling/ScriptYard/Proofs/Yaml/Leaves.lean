import ScriptYard.Proofs.Yaml.Outlines

/-!
# Leaves and names of outlines

Scalars in each notation, lists in brackets and empty brackets are leaves that are read in every block, whatever follows
(`LeafSound`), and scalars on one line are names of fields as well (`NameSound`).
-/

namespace ScriptYard

namespace Yaml

open Scanner Layout

/-! ### Characters of quoted scalars -/

theorem isAllowed_hexDigits (width n : ℕ) : ∀ x ∈ Page.hexDigits width n, isAllowed x = true := by
  have h_digit : ∀ m < 16, isAllowed (Page.hexDigit m) = true := by decide
  induction width generalizing n with
  | zero => exact fun x h_x => absurd h_x List.not_mem_nil
  | succ width ih =>
    intro x h_x
    obtain h_x | h_x := List.mem_append.mp h_x
    · exact ih (n / 16) x h_x
    · rw [List.mem_singleton.mp h_x]
      exact h_digit _ (Nat.mod_lt _ (by decide))

/-- An escape is written in characters that every text may hold. -/
theorem isAllowed_escape (c : Char) : ∀ x ∈ Page.escape c, isAllowed x = true := by
  have h_letters : ∀ y ∈ ['x', 'u', 'U'], isAllowed y = true := List.all_eq_true.mp (by decide)
  unfold Page.escape
  split
  case h_15 =>
    intro x h_x
    dsimp only at h_x
    split at h_x
    · exact (List.mem_cons.mp h_x).elim (fun h => h ▸ h_letters 'x' (by simp)) (isAllowed_hexDigits _ _ x)
    · split at h_x
      · exact (List.mem_cons.mp h_x).elim (fun h => h ▸ h_letters 'u' (by simp)) (isAllowed_hexDigits _ _ x)
      · exact (List.mem_cons.mp h_x).elim (fun h => h ▸ h_letters 'U' (by simp)) (isAllowed_hexDigits _ _ x)
  all_goals exact List.all_eq_true.mp (by decide)

theorem isAllowed_doubleQuoted (cs : List Char) : ∀ x ∈ doubleQuoted cs, isAllowed x = true := by
  have h_mark : isAllowed '"' = true := by decide
  intro x h_x
  obtain rfl | h_x := List.mem_cons.mp h_x
  · exact h_mark
  obtain h_x | h_x := List.mem_append.mp h_x
  · -- a character stands for itself, or as an escape, which is all ASCII
    obtain ⟨c, -, h_x⟩ := List.mem_flatMap.mp h_x
    unfold Page.doubleChar at h_x
    split at h_x
    · obtain rfl | h_x := List.mem_cons.mp h_x
      · decide
      · exact isAllowed_escape c x h_x
    · next h_raw =>
      rw [List.mem_singleton.mp h_x]
      simp only [Bool.or_eq_true, not_or, Bool.not_eq_true', Bool.not_eq_false] at h_raw
      exact isAllowed_of_isPrintable h_raw.1.1.1
  · rw [List.mem_singleton.mp h_x, h_mark]

theorem isAllowed_listText (items : List (List Char)) : ∀ x ∈ listText items, isAllowed x = true := by
  have h_marks : ∀ y ∈ [']', ',', ' '], isAllowed y = true := List.all_eq_true.mp (by decide)
  induction items with
  | nil => exact fun x h_x => by rw [List.mem_singleton.mp h_x]; exact h_marks ']' (by simp)
  | cons cs items ih =>
    intro x h_x
    cases items with
    | nil =>
      obtain h_x | h_x := List.mem_append.mp h_x
      · exact isAllowed_doubleQuoted cs x h_x
      · exact ih x h_x
    | cons item items =>
      -- between two items there is a comma with a space
      have h_text : listText (cs :: item :: items) = doubleQuoted cs ++ ([',', ' '] ++ listText (item :: items)) := rfl
      rw [h_text] at h_x
      obtain h_x | h_x := List.mem_append.mp h_x
      · exact isAllowed_doubleQuoted cs x h_x
      obtain h_x | h_x := List.mem_append.mp h_x
      · exact h_marks x (List.mem_cons_of_mem _ h_x)
      · exact ih x h_x

/-! ### Leaves -/

section

variable {final : Bool} {cs : List Char}

/-- What follows a leaf stands no further in than the block around it. -/
theorem follows_le {n : ℕ} {stop : Option ℕ} {rest : List Char} (h_stop : ∀ m ∈ stop, m ≤ n) (h : Follows stop rest) :
    rest ≠ [] → ((stop.getD 0 : ℕ) : ℤ) ≤ n := by
  intro h_ne
  cases stop with
  | none => exact absurd h h_ne
  | some m => exact Int.ofNat_le.mpr (h_stop m rfl)

/-- A scalar without quotes. -/
theorem LeafSound.plain (h : IsPlain cs) (h_mark : cs.head? ≠ some '\ufeff')
    (h_allowed : ∀ x ∈ cs, isAllowed x = true) : LeafSound final (fun _ => cs) false (.scalar cs .plain) where
  starts _ := startsToken_of_isPlain h h_mark
  allowed _ := h_allowed
  reads n column keyAllowed stop rest h_column h_stop h_rest :=
    reads_plain h h_mark (leads_gapBehind final h_rest) (follows_le h_stop h_rest) (Int.ofNat_lt.mpr h_column)
      fun c _ h_c => Cursor.atDocumentMarker_of_pos (by omega)

/-- A scalar without quotes, with a comment on a line of its own behind it. -/
theorem LeafSound.remarked {remark : List Char} (h : IsPlain cs) (h_mark : cs.head? ≠ some '\ufeff')
    (h_allowed : ∀ x ∈ cs ++ '\n' :: '#' :: remark, isAllowed x = true) (h_remark : ∀ x ∈ remark, isBreak x = false) :
    LeafSound true (fun _ => cs ++ '\n' :: '#' :: remark) false (.scalar cs .plain) where
  starts _ := by
    obtain ⟨x, xs, rfl, h_x⟩ := startsToken_of_isPlain h h_mark
    exact ⟨x, _, rfl, h_x⟩
  allowed _ := h_allowed
  reads n column keyAllowed stop rest h_column h_stop h_rest := by
    -- the comment belongs to the gap behind the scalar
    have h_gap : Gap.Leads ('\n' :: '#' :: (remark ++ gapBehind true false stop)) rest (stop.getD 0) := by
      have h_leads := leads_gapBehind true h_rest
      obtain ⟨g, h_g⟩ : ∃ g, gapBehind true false stop = '\n' :: g := by cases stop <;> exact ⟨_, rfl⟩
      rw [h_g] at h_leads ⊢
      cases h_leads with
      | line h_b h_g h_arrives => exact .line isLineBreak_feed (.comment h_remark h_b h_g) h_arrives
    have h_reads : Reads n keyAllowed column (cs ++ '\n' :: '#' :: (remark ++ gapBehind true false stop))
        [.scalar (String.ofList cs) .plain] rest (stop.getD 0) :=
      reads_plain h h_mark h_gap (follows_le h_stop h_rest) (Int.ofNat_lt.mpr h_column)
        fun c _ h_c => Cursor.atDocumentMarker_of_pos (by omega)
    simpa [Leaf.tokens] using h_reads

/-- A text in double quotes. -/
theorem LeafSound.double (cs : List Char) : LeafSound final (fun _ => doubleQuoted cs) false (.scalar cs .quoted) where
  starts _ := ⟨'"', _, rfl, by decide⟩
  allowed _ := isAllowed_doubleQuoted cs
  reads n column keyAllowed stop rest h_column h_stop h_rest :=
    reads_quoted (quotes_double 1 cs) Nat.one_pos (leads_gapBehind final h_rest) (Int.ofNat_lt.mpr h_column)

/-- A list of texts in double quotes. -/
theorem LeafSound.list (items : List (List Char)) :
    LeafSound final (fun _ => '[' :: listText items) false (.list items) where
  starts _ := ⟨'[', _, rfl, by decide⟩
  allowed _ x h_x := by
    obtain rfl | h_x := List.mem_cons.mp h_x
    · decide
    · exact isAllowed_listText items x h_x
  reads n column keyAllowed stop rest h_column h_stop h_rest :=
    reads_list items (leads_gapBehind final h_rest) (Int.ofNat_lt.mpr h_column)

/-- An empty object. -/
theorem LeafSound.braces : LeafSound final (fun _ => ['\x7b', '\x7d']) false .braces where
  starts _ := ⟨'\x7b', _, rfl, by decide⟩
  allowed _ := List.all_eq_true.mp (by decide)
  reads n column keyAllowed stop rest h_column h_stop h_rest :=
    reads_braces (leads_gapBehind final h_rest) (Int.ofNat_lt.mpr h_column)

end

/-! ### Names -/

/-- The name of a field as a scalar without quotes. -/
def plainName (cs : List Char) : ℕ → Name := fun _ => ⟨true, cs, cs, .plain⟩

theorem NameSound.plain {cs : List Char} (h_ne : cs ≠ []) (h : allowsPlain cs = true) (h_length : cs.length ≤ 1024) :
    NameSound (plainName cs) where
  fits n := by
    refine ⟨fun tail h_tail => ⟨?_, fun c h_c => ?_⟩, h_length⟩
    · refine scans_plain (isPlain_of_allowsPlain h_ne h) (head_of_allowsPlain h) (fun x xs h_eq => ?_)
        (fun x h_x => by cases h_x; decide)
      obtain ⟨rfl, rfl⟩ := List.cons.inj h_eq
      exact .inr ⟨rfl, h_tail⟩
    · exact Cursor.atDocumentMarker_of_allowsPlain h_ne h h_c (by simp)
  allowed n x h_x := isAllowed_of_isPrintable (isPrintable_of_allowsPlain h h_x)
  same n := ⟨rfl, rfl⟩

end Yaml

end ScriptYard
