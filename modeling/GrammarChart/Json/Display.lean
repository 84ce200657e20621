import GrammarChart.Json.Value
import GrammarChart.Decimal.Shortest
import GrammarChart.Text.Quoted

/-!
# Values in text

How a value of a document is shown in a diagram or in a message. A text is shown as it is, or
quoted inside a list or object and where a message quotes what it found; the other values have one
form each.
-/

set_option autoImplicit false

namespace GrammarChart.Json

/-- Numbers shown in text: positional from four places behind the point to sixteen before it. -/
def displayLayout : Decimal.Layout := ⟨-3, 16, "inf", "nan"⟩

mutual

/-- The quoted form of a value. -/
def quoted : Json → String
  | .null => "None"
  | .bool b => if b then "True" else "False"
  | .int n => toString n
  | .real x => displayLayout.text x
  | .str s => Text.quoted s
  | .arr items => "[" ++ ", ".intercalate (quotedItems items) ++ "]"
  | .obj fields => "\x7b" ++ ", ".intercalate (quotedFields fields) ++ "\x7d"

/-- The quoted forms of the items of a list. -/
def quotedItems : List Json → List String
  | [] => []
  | v :: rest => v.quoted :: quotedItems rest

/-- The quoted forms of the fields of an object. -/
def quotedFields : List (String × Json) → List String
  | [] => []
  | (k, v) :: rest => (Text.quoted k ++ ": " ++ v.quoted) :: quotedFields rest

end

/-- The form of a value in running text. -/
def display : Json → String
  | .str s => s
  | v => v.quoted

/-- A text is displayed as it is. -/
@[simp] theorem display_str (s : String) : (Json.str s).display = s := rfl

end GrammarChart.Json
