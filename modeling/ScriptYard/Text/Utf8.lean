/-!
# Bytes as text

`decodeUtf8` reads bytes as UTF-8 whatever they are: where they are no UTF-8, a replacement
character stands for each longest run of bytes that could have begun a character.
-/

namespace ScriptYard

/-- The beginning of a character: its value so far, how many bytes it lacks, and the range of the
next one. -/
structure Utf8Start where
  /-- The value of the bytes so far. -/
  value : Nat
  /-- How many bytes are lacking. -/
  lacking : Nat
  /-- The least next byte. -/
  low : Nat := 0x80
  /-- The greatest next byte. -/
  high : Nat := 0xBF
deriving DecidableEq, Repr

/-- The beginning that a byte of 0x80 or more makes, if it can begin a character. -/
def Utf8Start.ofByte? (b : Nat) : Option Utf8Start :=
  if 0xC2 ≤ b && b ≤ 0xDF then some ⟨b - 0xC0, 1, 0x80, 0xBF⟩
  else if b == 0xE0 then some ⟨0, 2, 0xA0, 0xBF⟩
  else if b == 0xED then some ⟨0xD, 2, 0x80, 0x9F⟩
  else if 0xE1 ≤ b && b ≤ 0xEF then some ⟨b - 0xE0, 2, 0x80, 0xBF⟩
  else if b == 0xF0 then some ⟨0, 3, 0x90, 0xBF⟩
  else if 0xF1 ≤ b && b ≤ 0xF3 then some ⟨b - 0xF0, 3, 0x80, 0xBF⟩
  else if b == 0xF4 then some ⟨4, 3, 0x80, 0x8F⟩
  else none

/-- The character that stands for bytes that are no text. -/
def replacementChar : Char := '\uFFFD'

/-- What a byte that does not continue a character gives: a character, or the beginning of one. -/
def decodeFirst (b : Nat) : Option Utf8Start × List Char :=
  if b < 0x80 then (none, [Char.ofNat b])
  else match Utf8Start.ofByte? b with
    | some s => (some s, [])
    | none => (none, [replacementChar])

/-- The characters of bytes, behind the beginning of a character or not. -/
def decodeBytes : Option Utf8Start → List UInt8 → List Char
  | none, [] => []
  | some _, [] => [replacementChar]
  | none, b :: rest =>
    let (start, cs) := decodeFirst b.toNat
    cs ++ decodeBytes start rest
  | some s, b :: rest =>
    let n := b.toNat
    if s.low ≤ n && n ≤ s.high then
      let value := s.value * 64 + (n - 0x80)
      if s.lacking ≤ 1 then Char.ofNat value :: decodeBytes none rest
      else decodeBytes (some ⟨value, s.lacking - 1, 0x80, 0xBF⟩) rest
    else
      let (start, cs) := decodeFirst n
      replacementChar :: cs ++ decodeBytes start rest

/-- The text of bytes. -/
def decodeUtf8 (bytes : List UInt8) : String := String.ofList (decodeBytes none bytes)

end ScriptYard
