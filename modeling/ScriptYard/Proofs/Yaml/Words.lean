import Mathlib.Data.List.Basic
import ScriptYard.Proofs.Yaml.Scanning
import ScriptYard.Yaml.Writer

/-!
# Scalars without quotes

A scalar without quotes or in quotes is a text of words (`Spaced`): between two words stands a run of spaces or, inside
quotes, a run of line breaks (`IsRun`). The readers of scalars read word by word, and what they answer follows by
induction on the words.

A block can hold a text without quotes where it starts with no mark of the notation and holds none (`IsPlain`). Such a
text is read up to the colon behind it, if it is the name of a field, or to its end (`readPlain_of_isPlain`), and the
end of the line ends the scalar, as the next line does not stand further in (`readPlainTail_line`).
-/

namespace ScriptYard

namespace Yaml

/-! ### Words -/

/-- A run of spaces or of line breaks. -/
def IsRun (g : List Char) : Prop := g ≠ [] ∧ ((∀ x ∈ g, x = ' ') ∨ ∀ x ∈ g, isBreak x = true)

theorem isRun_singleton {x : Char} (h : x = ' ' ∨ isBreak x = true) : IsRun [x] := by
  refine ⟨List.cons_ne_nil _ _, ?_⟩
  obtain h | h := h
  · exact .inl (by simpa using h)
  · exact .inr (by simpa using h)

/-- Whether a text does not start with a gap. -/
def StartsWord (cs : List Char) : Prop := ∀ x ∈ cs.head?, isGap x = false

theorem Arrives.startsWord {rest : List Char} {n : ℕ} (h : Arrives rest n) : StartsWord rest :=
  fun x h_x => (Scanner.atToken_of_arrives h x h_x).1

section

variable {gap : Char → Bool} {x : Char} {g cs : List Char}

/-- A text of words with runs between them. The characters of the runs pass a test, those of the words do not. -/
inductive Spaced (gap : Char → Bool) : List Char → Prop where
  | word {w : List Char} (h : ∀ x ∈ w, gap x = false) : Spaced gap w
  | more {w g cs : List Char} (h_w : ∀ x ∈ w, gap x = false) (h_g : IsRun g) (h_gap : ∀ x ∈ g, gap x = true)
      (h_cs : ∀ x ∈ cs.head?, gap x = false) (h : Spaced gap cs) : Spaced gap (w ++ (g ++ cs))

theorem Spaced.nil : Spaced gap [] := .word (by simp)

theorem Spaced.cons (h_x : gap x = false) (h : Spaced gap cs) : Spaced gap (x :: cs) := by
  cases h with
  | word h => exact .word (List.forall_mem_cons.mpr ⟨h_x, h⟩)
  | more h_w h_g h_gap h_cs h => exact .more (w := _ :: _) (List.forall_mem_cons.mpr ⟨h_x, h_w⟩) h_g h_gap h_cs h

/-- A text whose runs are spaces or line breaks, where no space stands next to a line break. -/
structure Unmixed (gap : Char → Bool) (cs : List Char) : Prop where
  runs : ∀ x ∈ cs, gap x = true → x = ' ' ∨ isBreak x = true
  pairs : hasPair (fun a b => gap a && gap b && ((a == ' ') != (b == ' '))) cs = false

theorem Unmixed.tail (h : Unmixed gap (x :: cs)) : Unmixed gap cs := by
  refine ⟨fun y h_y => h.runs y (List.mem_cons_of_mem _ h_y), ?_⟩
  have h_pairs := h.pairs
  cases cs with
  | nil => rfl
  | cons y ys => exact (Bool.or_eq_false_iff.mp h_pairs).2

/-- Where no two characters of a text pass a test, no neighbours do. -/
theorem hasPair_eq_false {test : Char → Char → Bool} (h : ∀ a b, a ∈ cs → b ∈ cs → test a b = false) :
    hasPair test cs = false := by
  induction cs with
  | nil => rfl
  | cons x xs ih =>
    have h_rest := ih fun a b h_a h_b => h a b (List.mem_cons_of_mem _ h_a) (List.mem_cons_of_mem _ h_b)
    cases xs with
    | nil => rfl
    | cons y ys => rw [hasPair, h x y (by simp) (by simp), h_rest]; rfl

/-- A text that has no other runs than spaces. -/
theorem unmixed_of_spaces (h : ∀ x ∈ cs, gap x = true → x = ' ') : Unmixed gap cs := by
  refine ⟨fun x h_x h_gap => .inl (h x h_x h_gap), hasPair_eq_false fun a b h_a h_b => ?_⟩
  cases h_gap : gap a with
  | false => rfl
  | true =>
    cases h_gap' : gap b with
    | false => rfl
    | true => rw [h a h_a h_gap, h b h_b h_gap']; rfl

/-- A run goes on with the same character in front, where the two do not mix. -/
theorem IsRun.cons (h : Unmixed gap (x :: (g ++ cs))) (h_x : gap x = true) (h_gap : ∀ y ∈ g, gap y = true)
    (h_g : IsRun g) : IsRun (x :: g) := by
  refine ⟨List.cons_ne_nil _ _, ?_⟩
  obtain ⟨h_ne, h_g⟩ := h_g
  obtain ⟨y, ys, rfl⟩ := List.exists_cons_of_ne_nil h_ne
  -- the two neighbours are both spaces or both breaks
  have h_pair : (gap x && gap y && ((x == ' ') != (y == ' '))) = false := (Bool.or_eq_false_iff.mp h.pairs).1
  rw [h_x, h_gap y (by simp)] at h_pair
  have h_same : (x == ' ') = (y == ' ') := by simpa using h_pair
  obtain h_g | h_g := h_g
  · rw [h_g y (by simp)] at h_same
    exact .inl (List.forall_mem_cons.mpr ⟨by simpa using h_same, h_g⟩)
  · refine .inr (List.forall_mem_cons.mpr ⟨?_, h_g⟩)
    obtain rfl | h_break := h.runs x (by simp) h_x
    · have h_y : y = ' ' := by simpa using h_same.symm
      rw [← h_y]
      exact h_g y (by simp)
    · exact h_break

/-- A text whose spaces do not meet line breaks consists of a run, if any, and words behind it. -/
theorem Unmixed.run_spaced (h : Unmixed gap cs) : ∃ g tail, cs = g ++ tail ∧ (g = [] ∨ IsRun g) ∧
    (∀ y ∈ g, gap y = true) ∧ (∀ y ∈ tail.head?, gap y = false) ∧ Spaced gap tail := by
  induction cs with
  | nil => exact ⟨[], [], rfl, .inl rfl, by simp, by simp, .nil⟩
  | cons x xs ih =>
    obtain ⟨g, tail, rfl, h_g, h_gap, h_tail, h_spaced⟩ := ih h.tail
    cases h_x : gap x with
    -- the run, if there is one, stands behind a word now
    | false =>
      refine ⟨[], x :: (g ++ tail), rfl, .inl rfl, by simp, by simpa using h_x, ?_⟩
      obtain rfl | h_g := h_g
      · exact h_spaced.cons h_x
      · exact .more (w := [x]) (by simpa using h_x) h_g h_gap h_tail h_spaced
    -- the run grows by one
    | true =>
      refine ⟨x :: g, tail, rfl, .inr ?_, List.forall_mem_cons.mpr ⟨h_x, h_gap⟩, h_tail, h_spaced⟩
      obtain rfl | h_g := h_g
      · exact isRun_singleton (h.runs x (by simp) h_x)
      · exact h_g.cons h h_x h_gap

/-- A text whose spaces do not meet line breaks consists of words. -/
theorem Unmixed.spaced (h : Unmixed gap cs) : Spaced gap cs := by
  obtain ⟨g, tail, rfl, rfl | h_g, h_gap, h_tail, h_spaced⟩ := h.run_spaced
  · exact h_spaced
  · exact .more (w := []) (by simp) h_g h_gap h_tail h_spaced

end

/-! ### Gaps -/

namespace Gap

variable {c : Cursor} {k fuel tabsFrom : ℕ} {rest : List Char}

/-- A gap ends in front of a word and at the end of the text. -/
theorem read_stop (g : Gap) (h : StartsWord c.rest) : read tabsFrom (fuel + 1) g c = some (g, c) := by
  rw [read, Cursor.peek]
  cases h_head : c.rest.head? with
  | none => rfl
  | some x =>
    have h_x := h x h_head
    rw [isGap, Bool.or_eq_false_iff] at h_x
    simp [h_x.1, h_x.2]

theorem read_break {b : Char} (g : Gap) (h : c.rest = b :: rest) (h_b : IsLineBreak b) :
    read tabsFrom (fuel + 1) g c = read tabsFrom fuel (g.addBreak (Cursor.breakText b)) (c.nextLine rest) := by
  have h_space : isSpaceOrTab b = false := by
    have h_ne : ∀ x, isBreak x = false → (b == x) = false := fun x h_x => by
      rw [beq_eq_false_iff_ne]
      rintro rfl
      rw [h_b.1] at h_x
      cases h_x
    rw [isSpaceOrTab, h_ne ' ' (by decide), h_ne '\t' (by decide)]
    rfl
  rw [read, Cursor.peek_of_rest h]
  simp only [h_space, h_b.1, Bool.false_eq_true, if_false, if_true, Cursor.readBreak_eq h h_b]

/-- The gap with spaces behind it, which count only as long as the line is the same. -/
def addSpaces (g : Gap) (k : ℕ) : Gap :=
  if g.broken then g else { g with blanks := g.blanks ++ List.replicate k ' ' }

theorem addSpaces_zero (g : Gap) : g.addSpaces 0 = g := by
  unfold addSpaces
  split
  · rfl
  · simp

theorem read_spaces (g : Gap) (h : c.rest = List.replicate k ' ' ++ rest) :
    read tabsFrom (fuel + k) g c = read tabsFrom fuel (g.addSpaces k) (c.skip k) := by
  induction k generalizing c g with
  | zero => rw [addSpaces_zero, Cursor.skip_zero, Nat.add_zero]
  | succ k ih =>
    have h' : c.rest = ' ' :: (List.replicate k ' ' ++ rest) := h
    have h_behind : (c.skip 1).rest = List.replicate k ' ' ++ rest := by rw [Cursor.skip_rest, h']; rfl
    rw [← Nat.add_assoc, read, Cursor.peek_of_rest h']
    simp only [show isSpaceOrTab ' ' = true from rfl, if_true, show ((' ' : Char) == '\t') = false from rfl,
      Bool.and_false, Bool.false_eq_true, if_false]
    rw [ih _ h_behind, Cursor.skip_skip, Nat.add_comm 1 k]
    congr 1
    unfold addSpaces
    cases h_broken : g.broken <;> simp [h_broken, List.replicate_succ]

end Gap

/-! ### Without quotes -/

/-- What may stand behind a word without quotes: nothing, a gap, or the colon behind the name of a field. -/
def EndsWord (tail : List Char) : Prop :=
  ∀ x xs, tail = x :: xs → isGap x = true ∨ (x = ':' ∧ Cursor.endsOr isGap xs.head? = true)

theorem readWord_eq {w tail : List Char} {c : Cursor} {fuel : ℕ} (h : c.rest = w ++ tail)
    (h_w : ∀ x ∈ w, isGap x = false) (h_colon : w.getLast? ≠ some ':') (h_tail : EndsWord tail)
    (h_fuel : w.length < fuel) : readWord false fuel c = some (w, c.skip w.length) := by
  induction w generalizing c fuel with
  | nil =>
    obtain ⟨fuel, rfl⟩ : ∃ more, fuel = more + 1 := ⟨fuel - 1, by omega⟩
    rw [readWord]
    cases tail with
    | nil => rw [Cursor.peek_of_nil h]; rfl
    | cons x xs =>
      rw [Cursor.peek_of_rest h]
      dsimp only
      obtain h_x | ⟨rfl, h_xs⟩ := h_tail x xs rfl
      · rw [if_pos h_x]
        rfl
      · have h_next : c.peekAt 1 = xs.head? := by rw [Cursor.peekAt, h]; cases xs <;> rfl
        rw [if_neg (by decide), h_next, h_xs]
        rfl
  | cons x w ih =>
    obtain ⟨fuel, rfl⟩ : ∃ more, fuel = more + 1 := ⟨fuel - 1, by omega⟩
    have h' : c.rest = x :: (w ++ tail) := h
    have h_x := h_w x (by simp)
    -- inside a word a colon is followed by another character of it, and at its end there is none
    have h_next : (x == ':' && Cursor.endsOr isGap (c.peekAt 1)) = false := by
      cases w with
      | nil =>
        have h_ne : x ≠ ':' := fun h_eq => h_colon (by rw [h_eq]; rfl)
        simp [h_ne]
      | cons y ys =>
        have h_y : c.peekAt 1 = some y := by rw [Cursor.peekAt, h']; rfl
        rw [h_y, Cursor.endsOr, h_w y (by simp), Bool.and_false]
    have h_behind : (c.skip 1).rest = w ++ tail := by rw [Cursor.skip_rest, h']; rfl
    have h_rest : w.getLast? ≠ some ':' := by
      cases w with
      | nil => simp
      | cons y ys => rwa [List.getLast?_cons_cons] at h_colon
    rw [readWord, Cursor.peek_of_rest h']
    dsimp only
    rw [if_neg (by simp [h_x]), h_next]
    simp [ih h_behind (fun y h_y => h_w y (List.mem_cons_of_mem _ h_y)) h_rest (by simpa using h_fuel), Nat.add_comm 1]

/-- Behind a gap no indicator follows that a number sign could be. -/
theorem holdsIndicator_of_run {g cs : List Char} {b : Bool} (h_ne : g ≠ []) (h_g : ∀ x ∈ g, isGap x = true)
    (h : holdsIndicator b (g ++ cs) = false) : holdsIndicator true cs = false := by
  induction g generalizing b with
  | nil => exact absurd rfl h_ne
  | cons x xs ih =>
    have h_rest : holdsIndicator (isGap x) (xs ++ cs) = false := (Bool.or_eq_false_iff.mp h).2
    cases xs with
    | nil => rwa [h_g x (by simp)] at h_rest
    | cons y ys => exact ih (List.cons_ne_nil _ _) (fun z h_z => h_g z (List.mem_cons_of_mem _ h_z)) h_rest

/-- A word without an indicator does not end in a colon before a gap or at the end, and none is behind it. -/
theorem holdsIndicator_of_word {w cs : List Char} {b : Bool} (h : holdsIndicator b (w ++ cs) = false) :
    (Cursor.endsOr isGap cs.head? = true → w.getLast? ≠ some ':') ∧
      (w ≠ [] → ∃ b', holdsIndicator b' cs = false) := by
  induction w generalizing b with
  | nil => exact ⟨fun _ => by simp, fun h_ne => absurd rfl h_ne⟩
  | cons x xs ih =>
    have h_parts := Bool.or_eq_false_iff.mp h
    obtain ⟨h_last, h_behind⟩ := ih h_parts.2
    cases xs with
    | nil =>
      -- a colon at the end of the word would be an indicator in front of this gap
      refine ⟨fun h_cs h_colon => ?_, fun _ => ⟨_, h_parts.2⟩⟩
      have h_colon : x = ':' := by simpa using h_colon
      have h_first : (x == ':' && endsWord cs.head?) = false := (Bool.or_eq_false_iff.mp h_parts.1).1
      rw [h_colon, show endsWord cs.head? = true from h_cs] at h_first
      cases h_first
    | cons y ys =>
      refine ⟨fun h_cs => ?_, fun _ => h_behind (List.cons_ne_nil _ _)⟩
      rw [List.getLast?_cons_cons]
      exact h_last h_cs

/-- A text that a block can hold without quotes. -/
structure IsPlain (cs : List Char) : Prop where
  starts : ∃ x xs, cs = x :: xs ∧ isGap x = false ∧ isOpeningIndicator x xs.head? = false
  gaps : ∀ x ∈ cs, isGap x = true → x = ' '
  ends : cs.getLast? ≠ some ' '
  clear : holdsIndicator false cs = false

/-- What is read behind a gap: the next word, unless the gap ends the scalar. -/
theorem readPlainTail_of_gap {acc : List Char} {indent fuel : ℕ} {c c' : Cursor} {gap : Gap} {x : Char}
    (h_peek : c.peek = some x) (h_x : isGap x = true)
    (h_read : Gap.read indent (c.rest.length + 1) Gap.empty c = some (gap, c')) :
    readPlainTail false indent (fuel + 1) acc c =
      if c'.column < indent ∨ c'.atDocumentMarker = true ∨ c'.peek = some '#' then some ⟨acc, c', gap.broken⟩
      else (readWord false (c'.rest.length + 1) c').bind fun r =>
        if r.1.isEmpty then some ⟨acc, r.2, gap.broken⟩
        else readPlainTail false indent fuel (acc ++ gap.text ++ r.1) r.2 := by
  rw [readPlainTail, h_peek]
  simp [h_x, h_read, or_assoc]

/-- A gap ends the scalar in front of a line that is not indented, in front of a comment, and at the end. -/
theorem readPlainTail_of_end {acc : List Char} {indent fuel : ℕ} {c c' : Cursor} {gap : Gap} {x : Char}
    (h_peek : c.peek = some x) (h_x : isGap x = true)
    (h_read : Gap.read indent (c.rest.length + 1) Gap.empty c = some (gap, c'))
    (h_end : c'.column < indent ∨ c'.peek = some '#' ∨ c'.rest = []) :
    readPlainTail false indent (fuel + 1) acc c = some ⟨acc, c', gap.broken⟩ := by
  rw [readPlainTail_of_gap h_peek h_x h_read]
  split
  · rfl
  · next h_go =>
    -- the reader goes on at the end of the text only, where no word is
    have h_rest : c'.rest = [] := by
      obtain h_end | h_end | h_end := h_end
      · exact absurd (.inl h_end) h_go
      · exact absurd (.inr (.inr h_end)) h_go
      · exact h_end
    have h_word : readWord false (c'.rest.length + 1) c' = some ([], c'.skip 0) :=
      readWord_eq (w := []) h_rest (by simp) (by simp) (fun x xs h_eq => nomatch h_eq) (by simp)
    rw [h_word]
    rfl

/-- Spaces within a line, and behind them another word that is no comment. -/
theorem readPlainTail_spaces {acc w xs : List Char} {indent fuel k : ℕ} {c : Cursor} {x : Char} (h_k : k ≠ 0)
    (h_rest : c.rest = List.replicate k ' ' ++ x :: xs) (h_x : isGap x = false) (h_hash : x ≠ '#') (h_pos : 0 < c.column)
    (h_column : indent ≤ c.column + k) (h_w : w ≠ [])
    (h_word : readWord false ((c.skip k).rest.length + 1) (c.skip k) = some (w, (c.skip k).skip w.length)) :
    readPlainTail false indent (fuel + 1) acc c =
      readPlainTail false indent fuel (acc ++ List.replicate k ' ' ++ w) ((c.skip k).skip w.length) := by
  have h_behind : (c.skip k).rest = x :: xs := by
    have h_behind := Cursor.skip_rest_of_append h_rest
    rwa [List.length_replicate] at h_behind
  have h_peek : c.peek = some ' ' := by
    obtain ⟨k, rfl⟩ := Nat.exists_eq_succ_of_ne_zero h_k
    exact Cursor.peek_of_rest h_rest
  have h_read : Gap.read indent (c.rest.length + 1) Gap.empty c = some (Gap.empty.addSpaces k, c.skip k) := by
    rw [show c.rest.length + 1 = (x :: xs).length + 1 + k by rw [h_rest]; simp; omega, Gap.read_spaces _ h_rest,
      Gap.read_stop _ fun y h_y => by rw [h_behind] at h_y; cases h_y; exact h_x]
  -- the line goes on: it is far enough in, and neither a marker nor a comment
  have h_go : ¬ ((c.skip k).column < indent ∨ (c.skip k).atDocumentMarker = true ∨ (c.skip k).peek = some '#') := by
    rw [Cursor.atDocumentMarker_of_pos (by simp only [Cursor.skip_column]; omega), Cursor.peek_of_rest h_behind]
    simp [h_hash]
    omega
  rw [readPlainTail_of_gap h_peek rfl h_read, if_neg h_go, h_word, Option.bind_some, if_neg (by simpa using h_w)]
  rfl

/-- The words of a scalar without quotes are read one by one. The reader of a line is given by what it answers behind
the last word (`stop`). -/
theorem readPlain_words {cs tail : List Char} {indent : ℕ} {stop : List Char → ScalarRead} (h : Spaced isGap cs)
    (h_tail : EndsWord tail) (h_gaps : ∀ x ∈ cs, isGap x = true → x = ' ') :
    ∀ (c : Cursor) (acc : List Char) {b : Bool}, c.rest = cs ++ tail → cs ≠ [] → StartsWord cs →
      cs.getLast? ≠ some ' ' → holdsIndicator b cs = false → indent ≤ c.column + 1 →
      (∀ acc fuel, 0 < fuel → readPlainTail false indent fuel acc (c.skip cs.length) = some (stop acc)) →
      ∃ w, w ≠ [] ∧ readWord false (c.rest.length + 1) c = some (w, c.skip w.length) ∧
        ∀ fuel, cs.length < fuel + w.length →
          readPlainTail false indent fuel (acc ++ w) (c.skip w.length) = some (stop (acc ++ cs)) := by
  induction h with
  | @word w h_w =>
    intro c acc b h h_ne h_starts h_ends h_clear h_indent h_stop
    have h_colon : w.getLast? ≠ some ':' :=
      (holdsIndicator_of_word (show holdsIndicator b (w ++ []) = false by rwa [List.append_nil])).1 rfl
    refine ⟨w, h_ne, readWord_eq h h_w h_colon h_tail (by rw [h, List.length_append]; omega), fun fuel h_fuel => ?_⟩
    exact h_stop (acc ++ w) fuel (by omega)
  | @more w g cs h_w h_g h_run h_cs h_spaced ih =>
    intro c acc b h h_ne h_starts h_ends h_clear h_indent h_stop
    have h_gap : ∀ x ∈ g, x = ' ' := fun x h_x => h_gaps x (by simp [h_x]) (h_run x h_x)
    obtain ⟨k, h_k, rfl⟩ : ∃ k, k ≠ 0 ∧ g = List.replicate k ' ' :=
      ⟨g.length, fun h_zero => h_g.1 (List.eq_nil_of_length_eq_zero h_zero), List.eq_replicate_of_mem h_gap⟩
    have h_w_ne : w ≠ [] := by
      rintro rfl
      obtain ⟨k, rfl⟩ := Nat.exists_eq_succ_of_ne_zero h_k
      exact absurd (h_starts ' ' rfl) (by decide)
    have h_cs_ne : cs ≠ [] := by
      rintro rfl
      obtain ⟨k, rfl⟩ := Nat.exists_eq_succ_of_ne_zero h_k
      exact h_ends (by rw [List.append_nil, List.replicate_succ', ← List.append_assoc, List.getLast?_concat])
    -- the word
    have h_word := holdsIndicator_of_word h_clear
    have h_behind : Cursor.endsOr isGap (List.replicate k ' ' ++ cs).head? = true := by
      obtain ⟨k, rfl⟩ := Nat.exists_eq_succ_of_ne_zero h_k
      rfl
    have h' : c.rest = w ++ (List.replicate k ' ' ++ (cs ++ tail)) := by simpa using h
    have h_ends_word : EndsWord (List.replicate k ' ' ++ (cs ++ tail)) := by
      obtain ⟨k, rfl⟩ := Nat.exists_eq_succ_of_ne_zero h_k
      intro x xs h_eq
      obtain ⟨rfl, -⟩ := List.cons.inj h_eq
      exact .inl rfl
    refine ⟨w, h_w_ne, readWord_eq h' h_w (h_word.1 h_behind) h_ends_word (by rw [h', List.length_append]; omega), ?_⟩
    intro fuel h_fuel
    obtain ⟨fuel, rfl⟩ : ∃ more, fuel = more + 1 := ⟨fuel - 1, by simp at h_fuel; omega⟩
    -- the gap behind it, and the next word
    have h_first : (c.skip w.length).rest = List.replicate k ' ' ++ (cs ++ tail) := Cursor.skip_rest_of_append h'
    have h_second : ((c.skip w.length).skip k).rest = cs ++ tail := by
      have h_behind := Cursor.skip_rest_of_append h_first
      rwa [List.length_replicate] at h_behind
    have h_ends' : cs.getLast? ≠ some ' ' := by
      rwa [List.getLast?_append_of_ne_nil _ (by simp [h_cs_ne]), List.getLast?_append_of_ne_nil _ h_cs_ne] at h_ends
    have h_length : (w ++ (List.replicate k ' ' ++ cs)).length = w.length + (k + cs.length) := by simp
    obtain ⟨b', h_clear'⟩ := h_word.2 h_w_ne
    have h_clear'' := holdsIndicator_of_run h_g.1 h_run h_clear'
    obtain ⟨w', h_w', h_read', h_tail'⟩ := ih (fun x h_x => h_gaps x (by simp [h_x])) ((c.skip w.length).skip k)
      (acc ++ w ++ List.replicate k ' ') h_second h_cs_ne h_cs h_ends' h_clear''
      (by simp only [Cursor.skip_column]; omega)
      (fun acc fuel h_fuel => by rw [Cursor.skip_skip, Cursor.skip_skip, ← h_length]; exact h_stop acc fuel h_fuel)
    obtain ⟨x, xs, rfl⟩ := List.exists_cons_of_ne_nil h_cs_ne
    have h_hash : (x == '#' && true) = false := (Bool.or_eq_false_iff.mp (Bool.or_eq_false_iff.mp h_clear'').1).2
    have h_pos := List.length_pos_of_ne_nil h_w_ne
    rw [readPlainTail_spaces h_k h_first (h_cs x rfl) (by simpa using h_hash)
      (by simp only [Cursor.skip_column]; omega) (by simp only [Cursor.skip_column]; omega) h_w' h_read', h_tail' fuel (by
        have h_pos := List.length_pos_of_ne_nil h_w'
        rw [h_length] at h_fuel
        omega)]
    simp only [List.append_assoc]

/-- A scalar without quotes is read to its end, and what the answer is depends on what stands there. -/
theorem readPlain_of_isPlain (stop : List Char → ScalarRead) {cs tail : List Char} {indent : ℕ} {c : Cursor}
    (h : IsPlain cs) (h_rest : c.rest = cs ++ tail) (h_tail : EndsWord tail) (h_indent : indent ≤ c.column + 1)
    (h_stop : ∀ acc fuel, 0 < fuel → readPlainTail false indent fuel acc (c.skip cs.length) = some (stop acc)) :
    readPlain false indent c = some (stop cs) := by
  obtain ⟨x, xs, h_eq, h_x, -⟩ := h.starts
  have h_unmixed : Unmixed isGap cs := unmixed_of_spaces h.gaps
  obtain ⟨w, h_w, h_read, h_words⟩ := readPlain_words h_unmixed.spaced h_tail h.gaps c [] h_rest
    (by rw [h_eq]; exact List.cons_ne_nil _ _) (by rw [h_eq]; intro y h_y; cases h_y; exact h_x) h.ends h.clear
    h_indent h_stop
  rw [readPlain, h_read]
  have h_pos := List.length_pos_of_ne_nil h_w
  have h_length := congrArg List.length h_rest
  refine h_words _ ?_
  rw [Cursor.skip_rest, List.length_drop, h_length, List.length_append]
  omega

/-- In front of a colon and at the end of the text nothing more is read. -/
theorem readPlainTail_stop {acc : List Char} {indent fuel : ℕ} {c : Cursor} (h : StartsWord c.rest) :
    readPlainTail false indent fuel acc c = some ⟨acc, c, false⟩ := by
  cases fuel with
  | zero => rfl
  | succ fuel =>
    rw [readPlainTail, Cursor.peek]
    cases h_head : c.rest.head? with
    | none => rfl
    | some x => simp [h x h_head]

/-- At the end of a line the reader goes on to the next line, and stops there at a token that does not stand further in
or at a comment. -/
theorem readPlainTail_line (indent : ℕ) {g rest : List Char} {b : Char} {n : ℕ} {c : Cursor} (h : c.rest = b :: (g ++ rest))
    (h_b : IsLineBreak b) (h_g : Indentation g n) (h_rest : Arrives rest n) (h_out : rest ≠ [] → n < indent) :
    ∃ c', c'.line = c.line + 1 ∧ ((c'.rest = rest ∧ c'.column = n) ∨ (c'.rest = g ++ rest ∧ c'.column = 0)) ∧
      ∀ acc fuel, 0 < fuel → readPlainTail false indent fuel acc c = some ⟨acc, c', true⟩ := by
  have h_gap := isGap_of_isBreak h_b.1
  have h_length : c.rest.length + 1 = (g ++ rest).length + 1 + 1 := by rw [h]; rfl
  have h_first : Gap.read indent (c.rest.length + 1) Gap.empty c = Gap.read indent ((g ++ rest).length + 1)
      (Gap.empty.addBreak (Cursor.breakText b)) (c.nextLine (g ++ rest)) := by
    rw [h_length, Gap.read_break _ h h_b]
  have h_end : ∀ {c'}, Gap.read indent (c.rest.length + 1) Gap.empty c =
      some (Gap.empty.addBreak (Cursor.breakText b), c') →
        (c'.column < indent ∨ c'.peek = some '#' ∨ c'.rest = []) → ∀ acc fuel, 0 < fuel →
          readPlainTail false indent fuel acc c = some ⟨acc, c', true⟩ := by
    intro c' h_read h_end acc fuel h_fuel
    obtain ⟨fuel, rfl⟩ : ∃ more, fuel = more + 1 := ⟨fuel - 1, by omega⟩
    exact readPlainTail_of_end (Cursor.peek_of_rest h) h_gap h_read h_end
  cases h_g with
  -- the next token stands too far out, or there is none
  | spaces n =>
    have h_behind : ((c.nextLine (List.replicate n ' ' ++ rest)).skip n).rest = rest := by simp
    refine ⟨(c.nextLine (List.replicate n ' ' ++ rest)).skip n, rfl, .inl ⟨h_behind, by simp⟩, h_end ?_ ?_⟩
    · rw [h_first, show (List.replicate n ' ' ++ rest).length + 1 = rest.length + 1 + n by simp; omega,
        Gap.read_spaces _ rfl, Gap.read_stop _ (by rw [h_behind]; exact h_rest.startsWord)]
      rfl
    · by_cases h_ne : rest = []
      · exact .inr (.inr (h_behind.trans h_ne))
      · exact .inl (by simpa using h_out h_ne)
  -- the comment in the next line ends the scalar
  | comment h_cs h_b' h_g =>
    refine ⟨c.nextLine _, rfl, .inr ⟨rfl, rfl⟩, h_end ?_ (.inr (.inl rfl))⟩
    rw [h_first, Gap.read_stop _ (by intro x h_x; cases h_x; decide)]

namespace Scanner

variable {c : Cursor} {indent : ℤ} {outer : List ℤ} {keyAllowed : Bool} {reversed : List Token}

/-- The characters that start no scalar without quotes, or only in front of a word. -/
theorem indicators_cases : ∀ x ∈ "-?:,[]\x7b\x7d#&*!|>'\"%@`".toList,
    (x = '-' ∨ x = '?' ∨ x = ':') ∨ x ∈ "#,[]\x7b\x7d&*!|>'\"%@`".toList := by
  have h_all : "-?:,[]\x7b\x7d#&*!|>'\"%@`".toList.all (fun x => (x == '-' || x == '?' || x == ':') ||
      "#,[]\x7b\x7d&*!|>'\"%@`".toList.contains x) = true := by decide
  intro x h_x
  simpa [or_assoc] using List.all_eq_true.mp h_all x h_x

/-- Behind a first character without a meaning of its own a scalar without quotes starts. -/
theorem nextToken_of_isPlain {cs tail : List Char} {x : Char} {s : Scanner} (h : IsPlain cs)
    (h_rest : s.cursor.rest = cs ++ tail) (h_flow : s.inFlow = false) (h_marker : s.cursor.atDocumentMarker = false)
    (h_x : cs.head? = some x) : s.nextToken x = s.plainScalar := by
  obtain ⟨x', xs, rfl, h_gap, h_opening⟩ := h.starts
  obtain rfl : x' = x := by simpa using h_x
  rw [isOpeningIndicator, Bool.or_eq_false_iff] at h_opening
  -- the first character is none of the indicators that stand for themselves
  have h_ne : ∀ y ∈ "#,[]\x7b\x7d&*!|>'\"%@`".toList, (x' == y) = false := fun y h_y => by
    rw [beq_eq_false_iff_ne]
    rintro rfl
    exact absurd (List.contains_iff_mem.mpr h_y) (by rw [h_opening.1]; decide)
  -- three more are indicators only in front of a gap
  have h_next : (x' == ':' || x' == '?' || x' == '-') = true →
      Cursor.endsOr isGap (s.cursor.peekAt 1) = false := fun h_special => by
    have h_word : endsWord xs.head? = false := by rw [h_special] at h_opening; exact h_opening.2
    cases xs with
    | nil => cases h_word
    | cons y ys => rw [Cursor.peekAt, h_rest]; exact h_word
  have h_markers := Bool.or_eq_false_iff.mp h_marker
  have h_gaps : isSpaceOrTab x' = false := (Bool.or_eq_false_iff.mp h_gap).1
  unfold nextToken
  simp only [h_markers.1, h_markers.2, h_flow, h_ne '%' (by decide), h_ne '[' (by decide), h_ne '\x7b' (by decide),
    h_ne ']' (by decide), h_ne '\x7d' (by decide), h_ne ',' (by decide), h_ne '*' (by decide), h_ne '&' (by decide),
    h_ne '!' (by decide), h_ne '|' (by decide), h_ne '>' (by decide), h_ne '\'' (by decide), h_ne '"' (by decide),
    Bool.and_false, Bool.false_eq_true, if_false, Bool.false_or, Bool.false_and]
  by_cases h_special : (x' == ':' || x' == '?' || x' == '-') = true
  · have h_word := h_next h_special
    cases h_at : s.cursor.peekAt 1 with
    | none => rw [h_at] at h_word; cases h_word
    | some y =>
      rw [h_at] at h_word
      have h_y : isSpaceOrTab y = false := (Bool.or_eq_false_iff.mp (show isGap y = false from h_word)).1
      simp only [h_word, Bool.and_false, Bool.false_eq_true, if_false]
      rw [if_pos]
      simp only [startsPlain, h_y, h_word]
      obtain (h_x | h_x) | h_x : (x' == ':' ∨ x' == '?') ∨ x' == '-' := by simpa [or_assoc] using h_special
      all_goals simp [h_x]
  · simp only [Bool.not_eq_true, Bool.or_eq_false_iff] at h_special
    simp only [h_special.1.1, h_special.1.2, h_special.2, Bool.false_and, Bool.false_eq_true, if_false]
    rw [if_pos]
    have h_clear : "-?:,[]\x7b\x7d#&*!|>'\"%@`".toList.contains x' = false := by
      rw [Bool.eq_false_iff]
      intro h_mem
      obtain h_mem | h_mem := indicators_cases x' (List.contains_iff_mem.mp h_mem)
      · obtain rfl | rfl | rfl := h_mem
        · cases h_special.2
        · cases h_special.1.2
        · cases h_special.1.1
      · have h_self := h_ne x' h_mem
        rw [beq_self_eq_true] at h_self
        cases h_self
    unfold startsPlain
    rw [h_gap, h_clear]
    rfl

end Scanner

/-! ### Texts that are written without quotes -/

/-- A character that is written as it is, and is no space, is no gap. -/
theorem isGap_of_isPrintable {x : Char} (h : isPrintable x = true) (h_break : isBreak x = false) (h_x : x ≠ ' ') :
    isGap x = false := by
  rw [isGap, h_break, Bool.or_false, isSpaceOrTab, Bool.or_eq_false_iff]
  refine ⟨by simpa using h_x, ?_⟩
  rw [beq_eq_false_iff_ne]
  rintro rfl
  cases h

theorem isAllowed_of_isPrintable {x : Char} (h : isPrintable x = true) : isAllowed x = true := by
  simp only [isPrintable, isAllowed, Bool.or_eq_true, Bool.and_eq_true] at h ⊢
  tauto

section

variable {cs : List Char}

theorem isPrintable_of_allowsPlain (h : allowsPlain cs = true) {x : Char} (h_x : x ∈ cs) : isPrintable x = true := by
  simp only [allowsPlain, needsEscapes, Bool.not_eq_true', Bool.or_eq_false_iff, List.any_eq_false] at h
  simpa using h.1.2.1 x h_x

theorem isBreak_of_allowsPlain (h : allowsPlain cs = true) {x : Char} (h_x : x ∈ cs) : isBreak x = false := by
  simp only [allowsPlain, hasOuterSpaceOrBreak, Bool.not_eq_true', Bool.or_eq_false_iff, List.any_eq_false] at h
  simpa using h.1.1.2 x h_x

/-- What the writer takes for a text without quotes is one. -/
theorem isPlain_of_allowsPlain (h_ne : cs ≠ []) (h : allowsPlain cs = true) : IsPlain cs := by
  obtain ⟨c, rest, rfl⟩ := List.exists_cons_of_ne_nil h_ne
  have h_gaps : ∀ x ∈ c :: rest, isGap x = true → x = ' ' := fun x h_x h_gap => by
    by_contra h_space
    have h_word := isGap_of_isPrintable (isPrintable_of_allowsPlain h h_x) (isBreak_of_allowsPlain h h_x) h_space
    rw [h_word] at h_gap
    cases h_gap
  simp only [allowsPlain, hasOuterSpaceOrBreak, hasIndicators, Bool.not_eq_true', Bool.or_eq_false_iff,
    beq_eq_false_iff_ne] at h
  obtain ⟨⟨⟨⟨h_first, h_last⟩, -⟩, -⟩, ⟨-, h_opening⟩, h_clear⟩ := h
  refine ⟨⟨c, rest, rfl, ?_, h_opening⟩, h_gaps, h_last, ?_⟩
  · rw [Bool.eq_false_iff]
    exact fun h_gap => h_first (by rw [h_gaps c (by simp) h_gap]; rfl)
  · -- at the beginning a colon in front of a gap would be an opening indicator
    have h_colon : (c == ':' && endsWord rest.head?) = false := by
      simp only [isOpeningIndicator, Bool.or_eq_false_iff, Bool.and_eq_false_iff] at h_opening ⊢
      tauto
    rw [holdsIndicator, h_colon, h_clear, Bool.and_false]
    rfl

/-- A text that the writer takes for one without quotes starts with no byte order mark. -/
theorem head_of_allowsPlain (h : allowsPlain cs = true) : cs.head? ≠ some '\ufeff' := by
  intro h_head
  have h_print := isPrintable_of_allowsPlain h (List.mem_of_head? h_head)
  exact absurd h_print (by decide)

/-- At the end of a text or in front of what is no part of a marker, only the text itself can be a marker. -/
theorem Cursor.atMarker_of_take {c : Cursor} {tail : List Char} {mark : Char} (h : c.rest = cs ++ tail)
    (h_take : cs.take 3 ≠ [mark, mark, mark]) (h_tail : tail.head? ≠ some mark) : c.atMarker mark = false := by
  rw [Bool.eq_false_iff]
  intro h_at
  simp only [Cursor.atMarker, Cursor.peek, Cursor.peekAt, h, Bool.and_eq_true, beq_iff_eq] at h_at
  obtain ⟨⟨⟨⟨-, h_zero⟩, h_one⟩, h_two⟩, -⟩ := h_at
  rcases cs with - | ⟨x, - | ⟨y, - | ⟨z, zs⟩⟩⟩
  · exact h_tail (by simpa using h_zero)
  · exact h_tail (by simpa [List.head?_eq_getElem?] using h_one)
  · exact h_tail (by simpa [List.head?_eq_getElem?] using h_two)
  · exact h_take (by simp at h_zero h_one h_two; simp [h_zero, h_one, h_two])

/-- A text that the writer takes for one without quotes stands nowhere as a marker. -/
theorem Cursor.atDocumentMarker_of_allowsPlain {c : Cursor} {tail : List Char} (h_ne : cs ≠ [])
    (h : allowsPlain cs = true) (h_rest : c.rest = cs ++ tail) (h_tail : tail.head? ≠ some '-' ∧ tail.head? ≠ some '.') :
    c.atDocumentMarker = false := by
  obtain ⟨x, xs, rfl⟩ := List.exists_cons_of_ne_nil h_ne
  simp only [allowsPlain, hasIndicators, Bool.not_eq_true', Bool.or_eq_false_iff, beq_eq_false_iff_ne] at h
  rw [Cursor.atDocumentMarker, Cursor.atMarker_of_take h_rest h.2.1.1.1 h_tail.1,
    Cursor.atMarker_of_take h_rest h.2.1.1.2 h_tail.2]
  rfl

end

/-! ### Texts without quotes between others -/

section

variable {cs more : List Char}

/-- Behind a text without quotes one may go on with characters that mean nothing by themselves. -/
theorem holdsIndicator_append (h_more : ∀ x ∈ more, x ≠ ':' ∧ x ≠ '#') (afterGap : Bool)
    (h : holdsIndicator afterGap cs = false) : holdsIndicator afterGap (cs ++ more) = false := by
  induction cs generalizing afterGap with
  | nil =>
    clear h
    induction more generalizing afterGap with
    | nil => rfl
    | cons x more ih =>
      obtain ⟨h_colon, h_hash⟩ := h_more x (by simp)
      have h_rest := ih (fun y h_y => h_more y (List.mem_cons_of_mem _ h_y)) (isGap x)
      rw [List.nil_append] at h_rest ⊢
      simp [holdsIndicator, h_colon, h_hash, h_rest]
  | cons x cs ih =>
    rw [holdsIndicator, Bool.or_eq_false_iff, Bool.or_eq_false_iff] at h
    obtain ⟨⟨h_colon, h_hash⟩, h_rest⟩ := h
    rw [List.cons_append, holdsIndicator, h_hash, ih _ h_rest]
    -- a colon at the end of the text would have ended it
    cases cs with
    | nil =>
      have h_ne : (x == ':') = false := by simpa [endsWord, Cursor.endsOr] using h_colon
      rw [h_ne]
      rfl
    | cons y cs =>
      rw [List.cons_append, List.head?_cons] at *
      rw [h_colon]
      rfl

/-- Characters that mean nothing by themselves may stand in front of a text without quotes. -/
theorem holdsIndicator_of_append {front : List Char} (h_front : ∀ x ∈ front, x ≠ ':' ∧ x ≠ '#' ∧ isGap x = false)
    (h : holdsIndicator false cs = false) : holdsIndicator false (front ++ cs) = false := by
  induction front with
  | nil => exact h
  | cons x front ih =>
    obtain ⟨h_colon, h_hash, h_gap⟩ := h_front x (by simp)
    rw [List.cons_append, holdsIndicator, h_gap, ih fun y h_y => h_front y (List.mem_cons_of_mem _ h_y)]
    simp [h_colon]

/-- A text without quotes stays one between parts of a path. -/
theorem IsPlain.between {front back : List Char} (h : IsPlain cs)
    (h_front : ∀ x ∈ front, x ≠ ':' ∧ x ≠ '#' ∧ isGap x = false)
    (h_back : ∀ x ∈ back, x ≠ ':' ∧ x ≠ '#' ∧ isGap x = false) (h_back_ne : back ≠ [])
    (h_opening : ∃ x xs, front = x :: xs ∧ ∀ next, isOpeningIndicator x next = false) :
    IsPlain (front ++ (cs ++ back)) := by
  obtain ⟨x, xs, rfl, h_x⟩ := h_opening
  refine ⟨⟨x, _, rfl, (h_front x (by simp)).2.2, h_x _⟩, fun y h_y h_gap => ?_, fun h_last => ?_, ?_⟩
  · -- only the middle has gaps, and it is neither first nor last
    obtain h_y | h_y := List.mem_append.mp h_y
    · rw [(h_front y h_y).2.2] at h_gap
      cases h_gap
    · obtain h_y | h_y := List.mem_append.mp h_y
      · exact h.gaps y h_y h_gap
      · rw [(h_back y h_y).2.2] at h_gap
        cases h_gap
  · rw [← List.append_assoc, List.getLast?_append_of_ne_nil _ h_back_ne] at h_last
    have h_space := (h_back ' ' (List.mem_of_getLast? h_last)).2.2
    cases h_space
  · exact holdsIndicator_of_append h_front
      (holdsIndicator_append (fun y h_y => ⟨(h_back y h_y).1, (h_back y h_y).2.1⟩) false h.clear)

end

end Yaml

end ScriptYard
