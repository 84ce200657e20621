import GrammarChart.Decimal.Binary64

/-!
# The shortest decimal numeral of a number

A finite number is written with the fewest decimal digits that still read back as it. For one
digit, two digits and so on, the two neighbours of the number on the decimal grid of that many
digits are tried against the interval of values that round to the number; the first grid with a
hit wins, of two hits the nearer one, and of two equally near ones the even one.

`Layout` holds the decisions of notation: where positional notation ends and how an exponent is
written.
-/

set_option autoImplicit false

namespace GrammarChart.Decimal

/-- A nonnegative quotient of natural numbers. -/
structure Ratio where
  num : Nat
  den : Nat

/-- `m * 2 ^ q` as a quotient. -/
def Ratio.ofBinary (m : Nat) (q : Int) : Ratio :=
  if 0 ≤ q then ⟨m * twoTo q.toNat, 1⟩ else ⟨m, twoTo (-q).toNat⟩

/-- The quotient divided by a power of ten. -/
def Ratio.scaleDown (x : Ratio) (power : Int) : Ratio :=
  if 0 ≤ power then ⟨x.num, x.den * tenTo power.toNat⟩
  else ⟨x.num * tenTo (-power).toNat, x.den⟩

/-- The whole part of the quotient. -/
def Ratio.floor (x : Ratio) : Nat :=
  x.num / x.den

/-- The first quotient is at most the second. -/
def Ratio.le (x y : Ratio) : Bool :=
  x.num * y.den ≤ y.num * x.den

/-- The exponent `k` with `10 ^ k ≤ x < 10 ^ (k + 1)`, for a positive `x`. -/
def Ratio.decimalExponent (x : Ratio) : Int :=
  let guess : Int := Int.fdiv (Binary64.binaryExponent x.num x.den * 30103) 100000
  let reaches (k : Int) : Bool := 1 ≤ (x.scaleDown k).floor
  if reaches (guess + 1) then guess + 1 else if reaches guess then guess else guess - 1

/-- The values that round to one number of the format: `low` to `high`, with both ends or with
neither, around the value itself. -/
structure Interval where
  low : Ratio
  value : Ratio
  high : Ratio
  closed : Bool

/-- The values that round to `m * 2 ^ q`. Below a power of two the numbers lie closer together. -/
def Interval.around (m : Nat) (q : Int) : Interval :=
  { low := Ratio.ofBinary (if m = twoTo 52 ∧ q ≠ -1074 then 4 * m - 1 else 4 * m - 2) (q - 2)
    value := Ratio.ofBinary m q
    high := Ratio.ofBinary (4 * m + 2) (q - 2)
    closed := m % 2 = 0 }

/-- The value lies in the interval. -/
def Interval.has (i : Interval) (x : Ratio) : Bool :=
  if i.closed then i.low.le x && x.le i.high else !x.le i.low && !i.high.le x

/-- The grid point to write, when one of the value's two neighbours on the grid of steps
`10 ^ power` lies in the interval. -/
def Interval.onGrid? (i : Interval) (power : Int) : Option Nat :=
  let below := (i.value.scaleDown power).floor
  let point (n : Nat) : Ratio := (Ratio.mk n 1).scaleDown (-power)
  let upper := i.has (point (below + 1))
  if i.has (point below) && below ≠ 0 then
    if upper then
      -- Twice the value against the sum of the two neighbours says which one is nearer.
      let twice : Ratio := ⟨2 * i.value.num, i.value.den⟩
      let middle := point (2 * below + 1)
      if !middle.le twice then some below
      else if !twice.le middle then some (below + 1)
      else some (below + below % 2)
    else some below
  else if upper then some (below + 1)
  else none

/-- The digits and the power of ten of the shortest numeral for `m * 2 ^ q`, for a positive `m`. -/
def shortest (m : Nat) (q : Int) : Nat × Int :=
  let interval := Interval.around m q
  let top := interval.value.decimalExponent
  let attempt (count : Nat) : Option (Nat × Int) :=
    let power := top - count
    (interval.onGrid? power).map (·, power)
  ((List.range 17).findSome? attempt).getD (0, 0)

/-- The digits without the zeros at their end. -/
def dropTrailingZeros (digits : List Char) : List Char :=
  (digits.reverse.dropWhile (· == '0')).reverse

/-- Decisions of notation: the point's positions, counted from the first digit, that are written
without an exponent, and the names of the values that have no digits. -/
structure Layout where
  leastPoint : Int
  greatestPoint : Int
  infinity : String
  undefined : String

/-- A numeral for given digits with the point after the first `point` of them. -/
def Layout.place (layout : Layout) (digits : List Char) (point : Int) : String :=
  let count : Int := digits.length
  if layout.leastPoint ≤ point ∧ point ≤ layout.greatestPoint then
    if point ≤ 0 then
      String.ofList ('0' :: '.' :: List.replicate (-point).toNat '0' ++ digits)
    else if count ≤ point then
      String.ofList (digits ++ List.replicate (point - count).toNat '0' ++ ['.', '0'])
    else
      String.ofList (digits.take point.toNat ++ '.' :: digits.drop point.toNat)
  else
    let exponent := point - 1
    let power := toString exponent.natAbs
    let fraction := if digits.length ≤ 1 then [] else '.' :: digits.drop 1
    String.ofList (digits.take 1 ++ fraction) ++ "e" ++ (if exponent < 0 then "-" else "+") ++
      (if power.length < 2 then "0" ++ power else power)

/-- The numeral of a number. -/
def Layout.text (layout : Layout) (x : Binary64) : String :=
  match x.meaning with
  | .notANumber => layout.undefined
  | .infinite negative => (if negative then "-" else "") ++ layout.infinity
  | .finite negative m q =>
    let sign := if negative then "-" else ""
    if m = 0 then sign ++ "0.0"
    else
      let (digits, power) := shortest m q
      let digits := Nat.toDigits 10 digits
      sign ++ layout.place (dropTrailingZeros digits) (digits.length + power)

end GrammarChart.Decimal
