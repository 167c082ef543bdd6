/-!
# Blanks in text

Names, ids and documents count as empty when they hold nothing but blanks, in the sense of the
Unicode property White_Space (`isBlank`). `trimBlanks` takes the blanks off both ends.
-/

namespace ScriptYard

/-- The characters with the Unicode property White_Space. -/
def isBlank (c : Char) : Bool :=
  c == ' ' || ('\x09' ≤ c && c ≤ '\x0d') || c == '\x85' || c == '\u00a0' || c == '\u1680' ||
  ('\u2000' ≤ c && c ≤ '\u200a') || c == '\u2028' || c == '\u2029' || c == '\u202f' ||
  c == '\u205f' || c == '\u3000'

/-- Whether a text holds nothing but blanks. -/
def isBlankText (s : String) : Bool := s.toList.all isBlank

/-- Characters without the blanks at their end. -/
def trimEnd (cs : List Char) : List Char := (cs.reverse.dropWhile isBlank).reverse

/-- A text without the blanks at its ends. -/
def trimBlanks (s : String) : String := String.ofList (trimEnd (s.toList.dropWhile isBlank))

/-- A text without the blanks at its end. -/
def trimBlanksEnd (s : String) : String := String.ofList (trimEnd s.toList)

theorem isBlank_of_isWhitespace {c : Char} (h : c.isWhitespace = true) : isBlank c = true := by
  simp only [Char.isWhitespace, Bool.or_eq_true, decide_eq_true_eq] at h
  rcases h with ((h | h) | h) | h <;> subst h <;> decide

end ScriptYard
