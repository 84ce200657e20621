import GrammarChart.Json.Value
import GrammarChart.Text.Numeral
import GrammarChart.Text.Quoted

/-!
# Reading values

Reads the written form of a value. A refusal names the problem and the place where it shows: the
first character that cannot continue a value, or the start of a string that is never closed. Beside
the standard's numerals the reader accepts the names of the infinite and the undefined number.

The mutually recursive functions take a number of steps that bounds their recursion; `read`
computes it from the length of the text, since every second step consumes a character.
-/

set_option autoImplicit false

namespace GrammarChart.Json

/-- What is wrong with a text that is no written value. -/
inductive Problem where
  | byteOrderMark
  | expectedValue
  | expectedName
  | expectedColon
  | expectedComma
  | extraData
  | unterminatedString
  | controlCharacter
  | unknownEscape
  | unitEscape
  deriving DecidableEq, Repr

/-- The wording of a problem. -/
def Problem.message : Problem → String
  | .byteOrderMark => "Unexpected UTF-8 BOM (decode using utf-8-sig)"
  | .expectedValue => "Expecting value"
  | .expectedName => "Expecting property name enclosed in double quotes"
  | .expectedColon => "Expecting ':' delimiter"
  | .expectedComma => "Expecting ',' delimiter"
  | .extraData => "Extra data"
  | .unterminatedString => "Unterminated string starting at"
  | .controlCharacter => "Invalid control character at"
  | .unknownEscape => "Invalid \\escape"
  | .unitEscape => "Invalid \\uXXXX escape"

/-- Why a text was refused while reading it. A problem shows where the given number of characters
is left. -/
inductive Stop where
  | problem (what : Problem) (left : Nat)
  | numeralTooLong (digits : Nat)

/-- Why a text is no written value: the problem with the offset where it shows, the line and the
column, or a numeral that is too long to convert. -/
inductive ReadFault where
  | malformed (what : Problem) (line column offset : Nat)
  | numeralTooLong (digits : Nat)
  deriving DecidableEq, Repr

/-- Refuses because of what stands at the start of the rest. -/
def refuse {α : Type} (what : Problem) (rest : List Char) : Except Stop α :=
  .error (.problem what rest.length)

/-- The blanks allowed between the parts of a value. -/
def isGap (c : Char) : Bool :=
  c == ' ' || c == '\t' || c == '\n' || c == '\r'

/-- The text after its leading blanks. -/
def skipGap (text : List Char) : List Char :=
  text.dropWhile isGap

/-- The value of a digit in base sixteen. -/
def hexValue? (c : Char) : Option Nat :=
  if '0' ≤ c ∧ c ≤ '9' then some (c.toNat - 48)
  else if 'a' ≤ c ∧ c ≤ 'f' then some (c.toNat - 87)
  else if 'A' ≤ c ∧ c ≤ 'F' then some (c.toNat - 55)
  else none

/-- The number that four digits in base sixteen at the start of the text spell. -/
def unit? : List Char → Option Nat
  | a :: b :: c :: d :: _ => do
    let a ← hexValue? a
    let b ← hexValue? b
    let c ← hexValue? c
    let d ← hexValue? d
    return ((a * 16 + b) * 16 + c) * 16 + d
  | _ => none

/-- A UTF-16 unit that begins a pair. -/
def isHighUnit (unit : Nat) : Bool :=
  0xD800 ≤ unit && unit < 0xDC00

/-- A UTF-16 unit that ends a pair. -/
def isLowUnit (unit : Nat) : Bool :=
  0xDC00 ≤ unit && unit < 0xE000

/-- A character for a unit; a unit that stands without its partner is replaced. -/
def characterOfUnit (unit : Nat) : Char :=
  if isHighUnit unit || isLowUnit unit then '\ufffd' else Char.ofNat unit

/-- Reads the escape of a UTF-16 unit, or of a pair of them, after its `u`. -/
def readUnits (rest : List Char) : Except Stop (Char × List Char) :=
  match if rest.length ≤ 4 then none else unit? rest with
  | none => .error (.problem .unitEscape (rest.length + 1))
  | some unit =>
    let after := rest.drop 4
    if isHighUnit unit && 6 < after.length then
      match after with
      | '\\' :: 'u' :: second =>
        match unit? second with
        | none => .error (.problem .unitEscape (second.length + 1))
        | some low =>
          if isLowUnit low then
            .ok (Char.ofNat (0x10000 + (unit - 0xD800) * 0x400 + (low - 0xDC00)), second.drop 4)
          else .ok (characterOfUnit unit, after)
      | _ => .ok (characterOfUnit unit, after)
    else .ok (characterOfUnit unit, after)

/-- The character that a one-letter escape stands for. -/
def escaped? (c : Char) : Option Char :=
  if c == Text.doubleMark || c == '\\' || c == '/' then some c
  else if c == 'b' then some '\x08'
  else if c == 'f' then some '\x0c'
  else if c == 'n' then some '\n'
  else if c == 'r' then some '\r'
  else if c == 't' then some '\t'
  else none

/-- Reads an escape after its backslash, in a string that was opened with `opened` characters
left. -/
def readEscape (opened : Nat) : List Char → Except Stop (Char × List Char)
  | [] => .error (.problem .unterminatedString opened)
  | c :: rest =>
    if c == 'u' then readUnits rest
    else match escaped? c with
      | some d => .ok (d, rest)
      | none => .error (.problem .unknownEscape (rest.length + 2))

/-- Reads the rest of a string that was opened with `opened` characters left. -/
def readString (opened : Nat) : Nat → List Char → Except Stop (List Char × List Char)
  | steps + 1, c :: rest =>
    if c == Text.doubleMark then .ok ([], rest)
    else if c == '\\' then do
      let (d, rest) ← readEscape opened rest
      let (text, rest) ← readString opened steps rest
      return (d :: text, rest)
    else if c.toNat < 0x20 then .error (.problem .controlCharacter (rest.length + 1))
    else do
      let (text, rest) ← readString opened steps rest
      return (c :: text, rest)
  | _, _ => .error (.problem .unterminatedString opened)

/-- The run of decimal digits at the start, as numbers, and the text after it. -/
def digitRun (text : List Char) : List Nat × List Char :=
  ((text.takeWhile Char.isDigit).map fun c => c.toNat - 48, text.dropWhile Char.isDigit)

/-- The fraction at the start, if there is one: its digits and the text after it. -/
def fraction (text : List Char) : Option (List Nat × List Char) :=
  match text with
  | '.' :: rest =>
    let (digits, after) := digitRun rest
    if digits.isEmpty then none else some (digits, after)
  | _ => none

/-- The exponent at the start, if there is one: its value and the text after it. -/
def exponent (text : List Char) : Option (Int × List Char) :=
  match text with
  | mark :: rest =>
    if mark == 'e' || mark == 'E' then
      let (negative, rest) := match rest with
        | '-' :: rest => (true, rest)
        | '+' :: rest => (false, rest)
        | rest => (false, rest)
      let (digits, after) := digitRun rest
      if digits.isEmpty then none
      else
        let value : Int := Text.Numeral.ofDigits digits
        some (if negative then -value else value, after)
    else none
  | [] => none

/-- The digits before the point: a zero, or a run that does not start with one. -/
def wholePart (text : List Char) : Option (List Nat × List Char) :=
  match text with
  | '0' :: rest => some ([0], rest)
  | _ =>
    let (digits, after) := digitRun text
    if digits.isEmpty then none else some (digits, after)

/-- Reads a numeral. A numeral with a fraction or an exponent is rounded to binary64. -/
def readNumber (text : List Char) : Except Stop (Json × List Char) :=
  let (negative, body) := match text with
    | '-' :: rest => (true, rest)
    | _ => (false, text)
  match wholePart body with
  | none => refuse .expectedValue text
  | some (whole, afterWhole) =>
    let part := fraction afterWhole
    let (decimals, afterFraction) := part.getD ([], afterWhole)
    let power := exponent afterFraction
    let (shift, rest) := power.getD (0, afterFraction)
    if part.isNone && power.isNone then
      match Text.Numeral.convert whole with
      | .ok n => .ok (.int (if negative then -(n : Int) else n), rest)
      | .error _ => .error (.numeralTooLong whole.length)
    else
      let digits := Text.Numeral.ofDigits (whole ++ decimals)
      .ok (.real (Binary64.ofDecimal negative digits (shift - decimals.length)), rest)

/-- The words that stand for a value. -/
def names : List (String × Json) :=
  [("null", .null), ("true", .bool true), ("false", .bool false), ("NaN", .real Binary64.nan),
    ("Infinity", .real (Binary64.infinity false)), ("-Infinity", .real (Binary64.infinity true))]

/-- The value that a word at the start of the text stands for, and the text after the word. -/
def readName? (text : List Char) : Option (Json × List Char) :=
  names.findSome? fun (name, value) =>
    if name.toList.isPrefixOf text then some (value, text.drop name.length) else none

mutual

/-- Reads the value at the start of the text. -/
def readValue : Nat → List Char → Except Stop (Json × List Char)
  | 0, text => refuse .expectedValue text
  | _, [] => refuse .expectedValue []
  | steps + 1, c :: rest =>
    if c == Text.doubleMark then do
      let (text, rest) ← readString (rest.length + 1) (rest.length + 1) rest
      return (.str (String.ofList text), rest)
    else if c == '\x7b' then
      let inner := skipGap rest
      match inner with
      | '\x7d' :: after => .ok (.obj [], after)
      | _ => do
        let (fields, after) ← readFields steps [] inner
        return (.obj fields, after)
    else if c == '[' then
      let inner := skipGap rest
      match inner with
      | ']' :: after => .ok (.arr [], after)
      | _ => do
        let (items, after) ← readItems steps inner
        return (.arr items, after)
    else match readName? (c :: rest) with
      | some found => .ok found
      | none => readNumber (c :: rest)

/-- Reads the items of a list from the first one on, with the closing bracket. -/
def readItems : Nat → List Char → Except Stop (List Json × List Char)
  | 0, text => refuse .expectedValue text
  | steps + 1, text => do
    let (value, rest) ← readValue steps text
    match skipGap rest with
    | ']' :: after => return ([value], after)
    | ',' :: after => do
      let (items, after) ← readItems steps (skipGap after)
      return (value :: items, after)
    | after => refuse .expectedComma after

/-- Reads the fields of an object from the first one on, with the closing brace, after the fields
read before. -/
def readFields : Nat → Fields → List Char → Except Stop (Fields × List Char)
  | 0, _, text => refuse .expectedValue text
  | steps + 1, before, text =>
    match text with
    | [] => refuse .expectedName []
    | c :: rest =>
      if c != Text.doubleMark then refuse .expectedName text
      else do
        let (name, rest) ← readString (rest.length + 1) (rest.length + 1) rest
        match skipGap rest with
        | ':' :: afterColon => do
          let (value, rest) ← readValue steps (skipGap afterColon)
          let fields := before.insert (String.ofList name) value
          match skipGap rest with
          | '\x7d' :: after => return (fields, after)
          | ',' :: after => readFields steps fields (skipGap after)
          | after => refuse .expectedComma after
        | after => refuse .expectedColon after

end

/-- Reads a value that makes up the whole text. -/
def readWhole (text : List Char) : Except Stop Json :=
  match text with
  | '\ufeff' :: _ => refuse .byteOrderMark text
  | _ => do
    let (value, rest) ← readValue (2 * text.length + 2) (skipGap text)
    match skipGap rest with
    | [] => return value
    | after => refuse .extraData after

/-- The place of a problem that shows where `left` characters are left. -/
def locate (what : Problem) (text : List Char) (left : Nat) : ReadFault :=
  let before := text.take (text.length - left)
  let lastLine := before.reverse.takeWhile (· != '\n')
  .malformed what (before.count '\n' + 1) (lastLine.length + 1) before.length

/-- Reads the written form of a value. -/
def read (text : String) : Except ReadFault Json :=
  match readWhole text.toList with
  | .ok value => .ok value
  | .error (.problem what left) => .error (locate what text.toList left)
  | .error (.numeralTooLong digits) => .error (.numeralTooLong digits)

end GrammarChart.Json
