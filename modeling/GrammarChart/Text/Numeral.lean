import GrammarChart.Text.Blank
import GrammarChart.Text.WordCharacter

/-!
# Numerals

Reading of decimal whole numbers. A numeral may stand between blanks, may have a sign, uses the
decimal digits of any alphabet, and may have single underscores between digits. Conversion of
numerals with more than `Numeral.maxDigits` digits is refused.
-/

set_option autoImplicit false

namespace GrammarChart.Text.Numeral

/-- The longest run of digits that is converted. -/
def maxDigits : Nat := 4300

/-- Why a numeral was refused. -/
inductive Fault where
  /-- The text is no numeral. -/
  | malformed
  /-- The numeral has too many digits. -/
  | tooLong (digits : Nat)
  deriving DecidableEq, Repr

/-- The number whose decimal digits are given, most significant first. -/
def ofDigits (digits : List Nat) : Nat :=
  digits.foldl (fun n d => n * 10 + d) 0

/-- A further digit at the end. -/
theorem ofDigits_concat (digits : List Nat) (d : Nat) :
    ofDigits (digits ++ [d]) = ofDigits digits * 10 + d := by
  simp [ofDigits]

/-- The number, unless it has too many digits. -/
def convert (digits : List Nat) : Except Fault Nat :=
  if digits.length > maxDigits then .error (.tooLong digits.length) else .ok (ofDigits digits)

/-- Splits off the run of digits and single underscores between digits at the start. The first
argument says whether an underscore may come next. -/
def splitDigits : Bool → List Char → Except Fault (List Nat × List Char)
  | afterDigit, [] => if afterDigit then .ok ([], []) else .error .malformed
  | afterDigit, c :: rest =>
    match digitValue? c with
    | some d => (splitDigits true rest).map fun (digits, tail) => (d :: digits, tail)
    | none =>
      if afterDigit then
        if c == '_' then
          match rest with
          | next :: _ => if isDigit next then splitDigits false rest else .error .malformed
          | [] => .error .malformed
        else .ok ([], c :: rest)
      else .error .malformed

/-- A blank that may stand around a numeral. The information separators may not. -/
def isOuterBlank (c : Char) : Bool :=
  isBlank c && !(0x1C ≤ c.toNat && c.toNat < 0x20)

/-- Reads a whole number. -/
def readInt (text : String) : Except Fault Int := do
  let body := trimBy isOuterBlank text.toList
  let (negative, body) := match body with
    | '-' :: rest => (true, rest)
    | '+' :: rest => (false, rest)
    | _ => (false, body)
  let (digits, tail) ← splitDigits false body
  let value ← convert digits
  if tail.isEmpty then
    return if negative then -(value : Int) else value
  else throw .malformed

end GrammarChart.Text.Numeral
