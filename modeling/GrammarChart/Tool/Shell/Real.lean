import GrammarChart.Decimal.Shortest
import GrammarChart.Tool.Shell.Layout

/-!
# Numbers with a fraction

The numbers with a fraction that a script can print. A number is read as the nearest one of the
format binary64, and its digits are those of its exact value, rounded to the places that are asked
for, halves to the even neighbour.
-/

set_option autoImplicit false

namespace GrammarChart.Tool.Shell

/-- The text starts with a word, in any case. -/
def startsWithWord (word : String) (text : List Char) : Bool :=
  (text.take word.length).map Char.toLower == word.toList

/-- Reads the exponent behind a letter: its value, and what is left. Without digits there is
none. -/
def readExponent (letter : Char) (text : List Char) : Int × List Char :=
  match text with
  | c :: rest =>
    if c.toLower != letter then (0, text)
    else
      let (negative, digits) := match rest with
        | '-' :: digits => (true, digits)
        | '+' :: digits => (false, digits)
        | digits => (false, digits)
      let kept := digits.takeWhile Char.isDigit
      if kept.isEmpty then (0, text)
      else
        let value : Int := Sum.numberOf 10 kept
        (if negative then -value else value, digits.drop kept.length)
  | [] => (0, [])

/-- Reads digits in a base around a point: the digits, how many of them stand behind the point, and
what is left. -/
def readPlaces (base : Nat) (text : List Char) : List Char × Nat × List Char :=
  let isDigit (c : Char) : Bool := (Sum.digit? base c).isSome
  let whole := text.takeWhile isDigit
  match text.drop whole.length with
  | '.' :: rest =>
    let places := rest.takeWhile isDigit
    if whole.isEmpty && places.isEmpty then ([], 0, text)
    else (whole ++ places, places.length, rest.drop places.length)
  | rest => (whole, 0, rest)

/-- The nearest number to a number of binary digits behind a point. -/
def binaryReal (negative : Bool) (digits : Nat) (exponent : Int) : Binary64 :=
  let exponent := max (min exponent 20000) (-20000)
  if 0 ≤ exponent then Binary64.ofRatio negative (digits * twoTo exponent.toNat) 1
  else Binary64.ofRatio negative digits (twoTo (-exponent).toNat)

/-- Reads a number without a sign, and tells what is left; nothing when there is no number. -/
def readMagnitude? (negative : Bool) (text : List Char) : Option (Binary64 × List Char) :=
  let hexadecimal := readPlaces 16 (text.drop 2)
  let decimal := readPlaces 10 text
  if startsWithWord "infinity" text then some (.infinity negative, text.drop 8)
  else if startsWithWord "inf" text then some (.infinity negative, text.drop 3)
  else if startsWithWord "nan" text then some (.nan, text.drop 3)
  else if startsWithWord "0x" text && !hexadecimal.1.isEmpty then
    let (digits, places, rest) := hexadecimal
    let (exponent, rest) := readExponent 'p' rest
    some (binaryReal negative (Sum.numberOf 16 digits) (exponent - 4 * places), rest)
  else if decimal.1.isEmpty then none
  else
    let (digits, places, rest) := decimal
    let (exponent, rest) := readExponent 'e' rest
    some (.ofDecimal negative (Sum.numberOf 10 digits) (exponent - places), rest)

/-- The number with a fraction that an argument stands for, and the complaints about it. -/
def argumentReal (argument : String) : Binary64 × List String :=
  match argument.toList with
  | '\x27' :: c :: _ => (.ofRatio false c.toNat 1, [])
  | '\x22' :: c :: _ => (.ofRatio false c.toNat 1, [])
  | letters =>
    let unsigned := letters.dropWhile fun c => c.isWhitespace || c == '\x0b' || c == '\x0c'
    let (negative, unsigned) := match unsigned with
      | '-' :: rest => (true, rest)
      | '+' :: rest => (false, rest)
      | rest => (false, rest)
    match readMagnitude? negative unsigned with
    | some (real, rest) => (real, numberComplaint argument rest true)
    | none => (.ofRatio false 0 1, numberComplaint argument letters false)

namespace Layout

/-- Digits with a point before the last of them. -/
def withPoint (layout : Layout) (digits : List Char) (places : Nat) : List Char :=
  let digits := List.replicate (places + 1 - digits.length) '0' ++ digits
  let whole := digits.take (digits.length - places)
  let fraction := digits.drop (digits.length - places)
  whole ++ (if places = 0 && !layout.has '#' then [] else ['.']) ++ fraction

/-- A number with the given places behind the point. -/
def fixed (layout : Layout) (x : Decimal.Ratio) (places : Nat) : List Char :=
  layout.withPoint (Nat.toDigits 10 (Binary64.roundHalfEven (x.num * tenTo places) x.den)) places

/-- The digits of a number, one before the point and the given number behind it, and its power of
ten. -/
def significant (x : Decimal.Ratio) (places : Nat) : Nat × Int :=
  if x.num = 0 then (0, 0)
  else
    let power := x.decimalExponent
    let scaled := x.scaleDown (power - places)
    let digits := Binary64.roundHalfEven scaled.num scaled.den
    if tenTo (places + 1) ≤ digits then (digits / 10, power + 1) else (digits, power)

/-- An exponent with its sign and at least the given number of digits. -/
def exponentText (letter : Char) (width : Nat) (power : Int) : List Char :=
  let digits := Nat.toDigits 10 power.natAbs
  letter :: (if power < 0 then '-' else '+') ::
    (List.replicate (width - digits.length) '0' ++ digits)

/-- A number with the given places and an exponent. -/
def scientific (layout : Layout) (x : Decimal.Ratio) (places : Nat) : List Char :=
  let (digits, power) := significant x places
  layout.withPoint (Nat.toDigits 10 digits) places ++ exponentText 'e' 2 power

/-- Digits without the zeros at the end of a fraction. -/
def withoutZeros (layout : Layout) (text : List Char) : List Char :=
  let mantissa := text.takeWhile (· != 'e')
  if layout.has '#' || !mantissa.contains '.' then text
  else
    let kept := (mantissa.reverse.dropWhile (· == '0')).reverse
    (if kept.getLast? = some '.' then kept.dropLast else kept) ++ text.drop mantissa.length

/-- A number with the given digits, with an exponent if that is shorter. -/
def general (layout : Layout) (x : Decimal.Ratio) (digits : Nat) : List Char :=
  let digits := max digits 1
  let power := (significant x (digits - 1)).2
  if -4 ≤ power ∧ power < digits then
    layout.withoutZeros (layout.fixed x (digits - 1 - power).toNat)
  else layout.withoutZeros (layout.scientific x (digits - 1))

/-- The hexadecimal digits of a fraction of fifty-two bits, without zeros at the end. -/
def hexadecimalFraction (fraction : Nat) : List Char :=
  let digits := Nat.toDigits 16 fraction
  let digits := List.replicate (13 - digits.length) '0' ++ digits
  (digits.reverse.dropWhile (· == '0')).reverse

/-- A number in hexadecimal digits with a power of two. -/
def hexadecimal (layout : Layout) (significand : Nat) (exponent : Int) : List Char :=
  let isWhole := twoTo 52 ≤ significand
  let power := if significand = 0 then 0 else exponent + 52
  let (first, fraction) := match layout.places with
    | some places =>
      if places < 13 then
        let unit := twoTo (4 * (13 - places))
        let rounded := Binary64.roundHalfEven significand unit * unit
        let digits := Nat.toDigits 16 (rounded % twoTo 52)
        (rounded / twoTo 52, (List.replicate (13 - digits.length) '0' ++ digits).take places)
      else
        let digits := hexadecimalFraction (significand % twoTo 52)
        (if isWhole then 1 else 0, digits ++ List.replicate (places - digits.length) '0')
    | none => (if isWhole then 1 else 0, hexadecimalFraction (significand % twoTo 52))
  "0x".toList ++ Nat.toDigits 10 first ++
    (if fraction.isEmpty && !layout.has '#' then [] else '.' :: fraction) ++
    exponentText 'p' 1 power

/-- Writes a number with a fraction as the letter of a directive asks. -/
def placeReal (layout : Layout) (letter : Char) (real : Binary64) : List Char :=
  let places := layout.places.getD 6
  let kind := letter.toLower
  let (negative, digits, isNumber) : Bool × List Char × Bool := match real.meaning with
    | .notANumber => (false, "nan".toList, false)
    | .infinite negative => (negative, "inf".toList, false)
    | .finite negative significand exponent =>
      let x := Decimal.Ratio.ofBinary significand exponent
      (negative,
        if kind == 'f' then layout.fixed x places
        else if kind == 'e' then layout.scientific x places
        else if kind == 'g' then layout.general x places
        else layout.hexadecimal significand exponent, true)
  let sign := if negative then ['-'] else if layout.has '+' then ['+'] else
    if layout.has ' ' then [' '] else []
  let digits := if letter.isUpper then digits.map Char.toUpper else digits
  let missing := layout.width - sign.length - digits.length
  if layout.has '0' && !layout.has '-' && isNumber then
    let start := if kind == 'a' then digits.take 2 else []
    sign ++ start ++ List.replicate missing '0' ++ digits.drop start.length
  else layout.pad (sign ++ digits)

end Layout
end GrammarChart.Tool.Shell
