import ScriptYard.Document.ReadError

/-!
# Readings of documents

A `Reading` takes contents out of a document. It may fail, and it may follow only so many
references, so that no text stands for more than can be read in reasonable time: each reference
that is followed takes one from a supply (`Reading.follow`), and where the supply is used up the
document is malformed.
-/

namespace ScriptYard

/-- A computation that reads contents; its state is the count of references it may still follow. -/
abbrev Reading := StateT Nat (Except ReadError)

namespace Reading

/-- Takes one reference from the supply. -/
def follow : Reading Unit := do
  match ← get with
  | 0 => throw .malformed
  | n + 1 => set n

/-- What a reading answers that may follow so many references. -/
def answer {α : Type} (reading : Reading α) (references : Nat) : Except ReadError α :=
  match reading.run references with
  | .ok (a, _) => .ok a
  | .error e => .error e

/-- A reading that follows more references than there are left is malformed. -/
theorem answer_follow_zero : follow.answer 0 = .error .malformed := rfl

end Reading

end ScriptYard
