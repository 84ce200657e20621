import GrammarChart.Text.Ranges

/-!
# Blank characters

The characters that trimming removes: the white space and the separators of Unicode, and the four
information separators of the control block.
-/

set_option autoImplicit false

namespace GrammarChart.Text

/-- Code points that trimming removes. -/
def blankRanges : Ranges :=
  [(0x09, 0x0D), (0x1C, 0x20), (0x85, 0x85), (0xA0, 0xA0), (0x1680, 0x1680), (0x2000, 0x200A),
    (0x2028, 0x2029), (0x202F, 0x202F), (0x205F, 0x205F), (0x3000, 0x3000)]

/-- The character is blank. -/
def isBlank (c : Char) : Bool :=
  blankRanges.has c

/-- Every space, tab and line end of the basic block is blank. -/
theorem isBlank_of_isWhitespace {c : Char} (h : c.isWhitespace) : isBlank c := by
  simp only [Char.isWhitespace, Bool.or_eq_true, decide_eq_true_eq] at h
  rcases h with ((rfl | rfl) | rfl) | rfl <;> decide

/-- Removes the longest run of characters with the property from both ends. -/
def trimBy (drop : Char → Bool) (text : List Char) : List Char :=
  ((text.dropWhile drop).reverse.dropWhile drop).reverse

/-- Removes the blanks at both ends. -/
def trim (text : String) : String :=
  String.ofList (trimBy isBlank text.toList)

end GrammarChart.Text
