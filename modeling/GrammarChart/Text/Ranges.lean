/-!
# Sets of characters given by ranges of code points

A set of characters is written as an ascending list of closed ranges of code points, so that a
table can be checked against the standard it states.
-/

set_option autoImplicit false

namespace GrammarChart.Text

/-- Ascending closed ranges of code points. -/
abbrev Ranges := List (Nat × Nat)

/-- The character lies in one of the ranges. -/
def Ranges.has (ranges : Ranges) (c : Char) : Bool :=
  ranges.any fun range => range.1 ≤ c.toNat && c.toNat ≤ range.2

/-- A character is in the set exactly when a range of the table holds it. -/
theorem Ranges.has_iff (ranges : Ranges) (c : Char) :
    ranges.has c ↔ ∃ range ∈ ranges, range.1 ≤ c.toNat ∧ c.toNat ≤ range.2 := by
  simp only [Ranges.has, List.any_eq_true, Bool.and_eq_true, decide_eq_true_eq]

/-- The distance of the character from the start of the range that holds it. -/
def Ranges.offset? (ranges : Ranges) (c : Char) : Option Nat :=
  (ranges.find? fun range => range.1 ≤ c.toNat && c.toNat ≤ range.2).map fun range =>
    c.toNat - range.1

/-- A character has an offset exactly when it is in the set. -/
theorem Ranges.isSome_offset? (ranges : Ranges) (c : Char) :
    (ranges.offset? c).isSome = ranges.has c := by
  simp only [Ranges.offset?, Ranges.has, Option.isSome_map]
  induction ranges with
  | nil => rfl
  | cons range rest ih =>
    cases h : (decide (range.1 ≤ c.toNat) && decide (c.toNat ≤ range.2)) <;>
      simp only [List.find?_cons, List.any_cons, h, ih] <;> rfl

end GrammarChart.Text
