import GrammarChart.Text.Printable

/-!
# Quoted text

A text shown in a message stands between quotation marks, with every character that would not be
seen as itself replaced by an escape. Single quotation marks are used unless the text holds a
single mark and no double one. `quoted_eq` reads the two ends off.
-/

set_option autoImplicit false

namespace GrammarChart.Text

/-- The single quotation mark. -/
def singleMark : Char := '\x27'

/-- The double quotation mark. -/
def doubleMark : Char := '\x22'

/-- The number in base sixteen with lower-case digits, filled with zeros to the width. -/
def hexDigits (width n : Nat) : List Char :=
  let digits := Nat.toDigits 16 n
  List.replicate (width - digits.length) '0' ++ digits

/-- The mark that encloses the text. -/
def quotationMark (text : List Char) : Char :=
  if text.contains singleMark && !text.contains doubleMark then doubleMark else singleMark

/-- How a character is written between two marks. -/
def escapeCharacter (mark c : Char) : List Char :=
  if c == mark || c == '\\' then ['\\', c]
  else if c == '\t' then ['\\', 't']
  else if c == '\n' then ['\\', 'n']
  else if c == '\r' then ['\\', 'r']
  else if isPrintable c then [c]
  else if c.toNat ≤ 0xFF then '\\' :: 'x' :: hexDigits 2 c.toNat
  else if c.toNat ≤ 0xFFFF then '\\' :: 'u' :: hexDigits 4 c.toNat
  else '\\' :: 'U' :: hexDigits 8 c.toNat

/-- The characters of the quoted text. -/
def quotedCharacters (text : List Char) : List Char :=
  let mark := quotationMark text
  mark :: text.flatMap (escapeCharacter mark) ++ [mark]

/-- The text between quotation marks. -/
def quoted (text : String) : String :=
  String.ofList (quotedCharacters text.toList)

/-- A quoted text is its escaped characters between two equal marks. -/
theorem quoted_eq (text : String) :
    (quoted text).toList = quotationMark text.toList ::
      text.toList.flatMap (escapeCharacter (quotationMark text.toList)) ++
        [quotationMark text.toList] := by
  simp [quoted, quotedCharacters]

end GrammarChart.Text
