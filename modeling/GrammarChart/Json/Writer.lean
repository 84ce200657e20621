import GrammarChart.Json.Value
import GrammarChart.Decimal.Shortest
import GrammarChart.Text.Quoted

/-!
# Written values

The written form of a value, in plain ASCII: on one line, or with one item to a line and two
spaces for each level. Characters outside the printable basic block are escaped by their UTF-16
units.
-/

set_option autoImplicit false

namespace GrammarChart.Json

/-- Numbers in written values: positional from four places behind the point to sixteen before
it. -/
def writtenLayout : Decimal.Layout := ⟨-3, 16, "Infinity", "NaN"⟩

/-- The escape of one UTF-16 unit. -/
def escapeUnit (unit : Nat) : List Char :=
  '\\' :: 'u' :: Text.hexDigits 4 unit

/-- How a character is written inside a string. -/
def writeCharacter (c : Char) : List Char :=
  if c == Text.doubleMark || c == '\\' then ['\\', c]
  else if c == '\n' then ['\\', 'n']
  else if c == '\r' then ['\\', 'r']
  else if c == '\t' then ['\\', 't']
  else if c == '\x0c' then ['\\', 'f']
  else if c == '\x08' then ['\\', 'b']
  else if 0x20 ≤ c.toNat ∧ c.toNat < 0x7F then [c]
  else if c.toNat < 0x10000 then escapeUnit c.toNat
  else
    let offset := c.toNat - 0x10000
    escapeUnit (0xD800 + offset / 0x400) ++ escapeUnit (0xDC00 + offset % 0x400)

/-- A string with its quotation marks. -/
def writeString (text : String) : String :=
  String.ofList (Text.doubleMark :: text.toList.flatMap writeCharacter ++ [Text.doubleMark])

mutual

/-- The written form on one line. -/
def line : Json → String
  | .null => "null"
  | .bool b => if b then "true" else "false"
  | .int n => toString n
  | .real x => writtenLayout.text x
  | .str s => writeString s
  | .arr items => "[" ++ ", ".intercalate (lineItems items) ++ "]"
  | .obj fields => "\x7b" ++ ", ".intercalate (lineFields fields) ++ "\x7d"

/-- The items of a list, each on one line. -/
def lineItems : List Json → List String
  | [] => []
  | v :: rest => v.line :: lineItems rest

/-- The fields of an object, each on one line. -/
def lineFields : List (String × Json) → List String
  | [] => []
  | (k, v) :: rest => (writeString k ++ ": " ++ v.line) :: lineFields rest

end

/-- The name of the field under which an atom is written as a key. -/
def keyText : Json → String
  | .str s => s
  | v => v.line

/-- A line end and two spaces for each level. -/
def indentation (level : Nat) : String :=
  String.ofList ('\n' :: List.replicate (2 * level) ' ')

/-- A bracketed block whose parts stand on lines of their own, one level deeper. -/
def block (opening closing : String) (level : Nat) (parts : List String) : String :=
  if parts.isEmpty then opening ++ closing
  else
    let deeper := indentation (level + 1)
    opening ++ deeper ++ ("," ++ deeper).intercalate parts ++ indentation level ++ closing

mutual

/-- The written form with one item to a line, at the given level. -/
def indented (level : Nat) : Json → String
  | .arr items => block "[" "]" level (indentedItems (level + 1) items)
  | .obj fields => block "\x7b" "\x7d" level (indentedFields (level + 1) fields)
  | .null => "null"
  | .bool b => if b then "true" else "false"
  | .int n => toString n
  | .real x => writtenLayout.text x
  | .str s => writeString s

/-- The items of a list at the given level. -/
def indentedItems (level : Nat) : List Json → List String
  | [] => []
  | v :: rest => v.indented level :: indentedItems level rest

/-- The fields of an object at the given level. -/
def indentedFields (level : Nat) : List (String × Json) → List String
  | [] => []
  | (k, v) :: rest => (writeString k ++ ": " ++ v.indented level) :: indentedFields level rest

end

end GrammarChart.Json
