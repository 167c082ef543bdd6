import ScriptYard.Text.Visible

/-!
# Texts shown in messages

A message shows a list of names in brackets, each name in double quotes. Inside the quotes a
quote, a backslash and every character that cannot be seen by itself (`isVisible`) are written as
escapes.
-/

namespace ScriptYard

/-- The small hexadecimal digits of a number. -/
def hexText (n : Nat) : List Char := Nat.toDigits 16 n

/-- A character inside double quotes. -/
def shownChar (c : Char) : List Char :=
  match c with
  | '\x00' => ['\\', '0']
  | '\t' => ['\\', 't']
  | '\n' => ['\\', 'n']
  | '\r' => ['\\', 'r']
  | '"' => ['\\', '"']
  | '\\' => ['\\', '\\']
  | c => if isVisible c then [c] else ['\\', 'u', '\x7b'] ++ hexText c.toNat ++ ['\x7d']

/-- A text in double quotes. -/
def shownText (s : String) : String := String.ofList ('"' :: s.toList.flatMap shownChar ++ ['"'])

/-- Items in brackets. -/
def shownList (items : List String) : String := "[" ++ ", ".intercalate items ++ "]"

end ScriptYard
