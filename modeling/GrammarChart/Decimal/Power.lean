/-!
# Powers of two and ten

The two bases between which numerals and numbers of the format binary64 are converted.
-/

set_option autoImplicit false

namespace GrammarChart

/-- A power of two. -/
def twoTo (exponent : Nat) : Nat :=
  Nat.pow 2 exponent

/-- A power of ten. -/
def tenTo (exponent : Nat) : Nat :=
  Nat.pow 10 exponent

/-- The next power of two is twice as large. -/
theorem twoTo_succ (exponent : Nat) : twoTo (exponent + 1) = twoTo exponent * 2 := rfl

/-- The next power of ten is ten times as large. -/
theorem tenTo_succ (exponent : Nat) : tenTo (exponent + 1) = tenTo exponent * 10 := rfl

end GrammarChart
