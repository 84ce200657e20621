import GrammarChart.Decimal.Power

/-!
# Numbers of sixty-four bits

A `Binary64` is a number of the IEEE format binary64, held as its bit pattern. It is made from a
decimal numeral by rounding to the nearest number of the format, halves to the even neighbour,
with exact arithmetic on natural numbers; `ofRatio_zero` and `decode` say how patterns and values
belong together.
-/

set_option autoImplicit false

namespace GrammarChart

/-- A number of the format binary64, as its bit pattern. -/
structure Binary64 where
  bits : UInt64
  deriving DecidableEq, Repr, Inhabited

namespace Binary64

/-- What a bit pattern stands for: `finite negative m q` is `m * 2 ^ q` with its sign. -/
inductive Meaning where
  | finite (negative : Bool) (significand : Nat) (exponent : Int)
  | infinite (negative : Bool)
  | notANumber
  deriving DecidableEq, Repr

/-- The sign bit. -/
def negative (x : Binary64) : Bool :=
  x.bits.toNat / twoTo 63 == 1

/-- The value of a bit pattern. -/
def meaning (x : Binary64) : Meaning :=
  let exponent : Nat := x.bits.toNat / twoTo 52 % twoTo 11
  let fraction : Nat := x.bits.toNat % twoTo 52
  if exponent = 2047 then
    if fraction = 0 then .infinite x.negative else .notANumber
  else if exponent = 0 then .finite x.negative fraction (-1074)
  else .finite x.negative (twoTo 52 + fraction) (exponent - 1075)

/-- The pattern with the given sign and magnitude bits. -/
def ofMagnitude (negative : Bool) (magnitude : Nat) : Binary64 :=
  ⟨UInt64.ofNat (magnitude + if negative then twoTo 63 else 0)⟩

/-- The infinity of the given sign. -/
def infinity (negative : Bool) : Binary64 :=
  ofMagnitude negative (2047 * twoTo 52)

/-- The pattern that is not a number. -/
def nan : Binary64 :=
  ⟨0x7FF8000000000000⟩

/-- The quotient rounded to the nearest whole number, a half to the even neighbour. -/
def roundHalfEven (num den : Nat) : Nat :=
  let low := num / den
  let twice := 2 * (num % den)
  if twice < den then low
  else if den < twice then low + 1
  else low + low % 2

/-- A quotient without remainder is not rounded. -/
theorem roundHalfEven_mul (n den : Nat) (h : 0 < den) : roundHalfEven (n * den) den = n := by
  simp [roundHalfEven, Nat.mul_div_cancel _ h, h]

/-- The exponent `e` with `2 ^ e ≤ num / den < 2 ^ (e + 1)`. -/
def binaryExponent (num den : Nat) : Int :=
  let guess : Int := (Nat.log2 num : Int) - Nat.log2 den
  let reached :=
    if 0 ≤ guess then den * twoTo guess.toNat ≤ num else den ≤ num * twoTo (-guess).toNat
  if reached then guess else guess - 1

/-- The number of the format that is nearest to a quotient. -/
def ofRatio (negative : Bool) (num den : Nat) : Binary64 :=
  if num = 0 ∨ den = 0 then ofMagnitude negative 0
  else
    let unit : Int := max (binaryExponent num den - 52) (-1074)
    let significand :=
      if 0 ≤ unit then roundHalfEven num (den * twoTo unit.toNat)
      else roundHalfEven (num * twoTo (-unit).toNat) den
    let magnitude := (unit + 1074).toNat * twoTo 52 + significand
    if magnitude < 2047 * twoTo 52 then ofMagnitude negative magnitude else infinity negative

/-- Zero is represented exactly. -/
theorem ofRatio_zero (negative : Bool) (den : Nat) :
    ofRatio negative 0 den = ofMagnitude negative 0 := by
  simp [ofRatio]

/-- The number of the format that is nearest to `digits * 10 ^ exponent`. Magnitudes outside every
exponent of the format are decided by their number of digits alone. -/
def ofDecimal (negative : Bool) (digits : Nat) (exponent : Int) : Binary64 :=
  let top : Int := (Nat.toDigits 10 digits).length + exponent
  if digits = 0 then ofMagnitude negative 0
  else if 400 < top then infinity negative
  else if top < -400 then ofMagnitude negative 0
  else if 0 ≤ exponent then ofRatio negative (digits * tenTo exponent.toNat) 1
  else ofRatio negative digits (tenTo (-exponent).toNat)

/-- The number is neither zero nor negative zero. -/
def isNonzero (x : Binary64) : Bool :=
  x.bits.toNat % twoTo 63 != 0

/-- The number is neither infinite nor undefined. -/
def isFinite (x : Binary64) : Bool :=
  x.bits.toNat / twoTo 52 % twoTo 11 != 2047

/-- The number is exactly the given whole number. -/
def equalsInt (x : Binary64) (n : Int) : Bool :=
  match x.meaning with
  | .finite sign m q =>
    let signed : Int := if sign then -(m : Int) else m
    if 0 ≤ q then signed * twoTo q.toNat == n else signed == n * twoTo (-q).toNat
  | _ => false

/-- Two numbers are equal when their patterns are, and the two zeros are equal. An undefined
number is equal to itself here, because a document has one undefined number. -/
def same (x y : Binary64) : Bool :=
  x == y || (!x.isNonzero && !y.isNonzero)

/-- Where a number lies on the line: beyond every number, at a multiple of the smallest positive
number of the format, or nowhere. -/
inductive Place where
  | lowest
  | units (count : Int)
  | highest
  | nowhere
  deriving DecidableEq, Repr

/-- The place of a whole number. -/
def Place.ofInt (n : Int) : Place :=
  .units (n * twoTo 1074)

/-- Whether the first place is to the left of the second. -/
def Place.below : Place → Place → Bool
  | .lowest, .units _ => true
  | .lowest, .highest => true
  | .units a, .units b => a < b
  | .units _, .highest => true
  | _, _ => false

/-- The place of a number. -/
def place (x : Binary64) : Place :=
  match x.meaning with
  | .finite sign m q =>
    let count : Nat := m * twoTo (q + 1074).toNat
    .units (if sign then -(count : Int) else count)
  | .infinite sign => if sign then .lowest else .highest
  | .notANumber => .nowhere

end Binary64
end GrammarChart
