import GrammarChart.Tool.Shell.Sum

/-!
# Layouts of printed values

How a directive of a format lays out a text or a number: in a width, with a number of places, and
with flags for its sign and its side.
-/

set_option autoImplicit false

namespace GrammarChart.Tool.Shell

/-- What stands between the mark and the letter of a directive. -/
structure Layout where
  flags : List Char
  width : Nat
  places : Option Nat
  deriving Repr

namespace Layout

/-- The layout has a flag. -/
def has (layout : Layout) (flag : Char) : Bool := layout.flags.contains flag

/-- Fills a text to the width. -/
def pad (layout : Layout) (text : List Char) : List Char :=
  let missing := List.replicate (layout.width - text.length) ' '
  if layout.has '-' then text ++ missing else missing ++ text

/-- Cuts a text to the places and fills it to the width. -/
def placeText (layout : Layout) (text : List Char) : List Char :=
  layout.pad (match layout.places with
    | some places => text.take places
    | none => text)

/-- Writes the digits of a number after its sign. -/
def placeDigits (layout : Layout) (sign digits : List Char) : List Char :=
  let digits := match layout.places with
    | some 0 => if digits = ['0'] then [] else digits
    | some places => List.replicate (places - digits.length) '0' ++ digits
    | none => digits
  let missing := layout.width - sign.length - digits.length
  if layout.has '0' && !layout.has '-' && layout.places.isNone then
    sign ++ List.replicate missing '0' ++ digits
  else layout.pad (sign ++ digits)

/-- Writes a number with a sign. -/
def placeInt (layout : Layout) (value : Int) : List Char :=
  let sign := if value < 0 then ['-'] else if layout.has '+' then ['+'] else
    if layout.has ' ' then [' '] else []
  layout.placeDigits sign (Nat.toDigits 10 value.natAbs)

/-- Writes a number without a sign in a base. -/
def placeNat (layout : Layout) (letter : Char) (value : Nat) : List Char :=
  let base := if letter == 'o' then 8 else if letter == 'u' then 10 else 16
  let digits := Nat.toDigits base value
  let digits := if letter == 'X' then digits.map Char.toUpper else digits
  if layout.has '#' && value ≠ 0 then
    if letter == 'o' then layout.placeDigits [] ('0' :: digits)
    else if base = 16 then layout.placeDigits ['0', letter] digits
    else layout.placeDigits [] digits
  else layout.placeDigits [] digits

end Layout

/-- The complaint about an argument that is no number, or not only one. -/
def numberComplaint (argument : String) (rest : List Char) (isRead : Bool) : List String :=
  if rest.isEmpty then []
  else if isRead then [argument ++ ": not completely converted"]
  else [argument ++ ": expected numeric value"]

end GrammarChart.Tool.Shell
