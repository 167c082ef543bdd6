/-!
# Powers of two and ten

The powers that number formats are made of, as natural numbers.
-/

namespace ScriptYard

/-- The power of two with this exponent. -/
def twoTo (n : Nat) : Nat := Nat.pow 2 n

/-- The power of ten with this exponent. -/
def tenTo (n : Nat) : Nat := Nat.pow 10 n

end ScriptYard
