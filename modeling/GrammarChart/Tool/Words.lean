import GrammarChart.Fault

/-!
# Command lines

Splits a command line into words. Blanks separate words; between single quotation marks every
character stands for itself, between double ones a backslash protects a double mark or another
backslash, and elsewhere a backslash protects any character. Quotation marks make a word even when
nothing stands between them.
-/

set_option autoImplicit false

namespace GrammarChart.Tool

/-- A blank between words. -/
def isSeparator (c : Char) : Bool :=
  c == ' ' || c == '\t' || c == '\r' || c == '\n'

/-- Where in a command line a character stands: between words, in one, or in a quotation. -/
inductive Mode where
  | between
  | word
  | quoted (mark : Char)

/-- The words of the rest of a command line, the current word given by its characters so far. -/
def splitFrom : Mode → List Char → List Char → Except Fault (List (List Char))
  | .between, _, [] => .ok []
  | .word, current, [] => .ok [current]
  | .quoted _, _, [] => .error .openQuotation
  | .between, _, ['\\'] => .error .openEscape
  | .word, _, ['\\'] => .error .openEscape
  | .quoted mark, current, ['\\'] =>
    if mark == '\x22' then .error .openEscape
    else splitFrom (.quoted mark) (current ++ ['\\']) []
  | .quoted mark, current, '\\' :: next :: rest =>
    if mark == '\x22' then
      let kept := if next == mark || next == '\\' then [next] else ['\\', next]
      splitFrom (.quoted mark) (current ++ kept) rest
    else splitFrom (.quoted mark) (current ++ ['\\']) (next :: rest)
  | .between, current, '\\' :: next :: rest => splitFrom .word (current ++ [next]) rest
  | .word, current, '\\' :: next :: rest => splitFrom .word (current ++ [next]) rest
  | .quoted mark, current, c :: rest =>
    if c == mark then splitFrom .word current rest
    else splitFrom (.quoted mark) (current ++ [c]) rest
  | .between, current, c :: rest =>
    if isSeparator c then splitFrom .between [] rest
    else if c == '\x22' || c == '\x27' then splitFrom (.quoted c) current rest
    else splitFrom .word (current ++ [c]) rest
  | .word, current, c :: rest =>
    if isSeparator c then (splitFrom .between [] rest).map (current :: ·)
    else if c == '\x22' || c == '\x27' then splitFrom (.quoted c) current rest
    else splitFrom .word (current ++ [c]) rest

/-- The words of a command line. -/
def splitWords (line : String) : Except Fault (List String) :=
  (splitFrom .between [] line.toList).map (·.map String.ofList)

/-- An empty command line has no words. -/
theorem splitWords_empty : splitWords "" = .ok [] := rfl

end GrammarChart.Tool
