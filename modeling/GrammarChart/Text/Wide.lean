import GrammarChart.Text.Utf8

/-!
# Encodings of texts

Besides octets of UTF-8 a text may be given by units of two or four octets, the high octet first or
the low one. Which of these a text uses shows in the places of the zeros among its first octets,
because the texts in question start with characters of the basic block.
-/

set_option autoImplicit false

namespace GrammarChart.Text

/-- How a text is given by octets. -/
inductive Encoding where
  | octets
  | pairs (highFirst : Bool)
  | quads (highFirst : Bool)
  deriving DecidableEq, Repr

namespace Encoding

/-- The encoding of a text, by its first octets. -/
def detect : List UInt8 → Encoding
  | 0 :: 0 :: _ :: _ :: _ => .quads true
  | 0 :: _ :: _ :: _ :: _ => .pairs true
  | _ :: 0 :: 0 :: 0 :: _ => .quads false
  | _ :: 0 :: _ :: _ :: _ => .pairs false
  | [0, _] => .pairs true
  | [_, 0] => .pairs false
  | _ => .octets

/-- The number that octets make up, the high one first. -/
def number (bytes : List UInt8) : Nat :=
  bytes.foldl (fun n b => n * 256 + b.toNat) 0

/-- The number of a unit. -/
def unit (highFirst : Bool) (bytes : List UInt8) : Nat :=
  number (if highFirst then bytes else bytes.reverse)

/-- The units of two octets; nothing if an octet is left over. -/
def pairUnits (highFirst : Bool) : List UInt8 → Option (List Nat)
  | [] => some []
  | a :: b :: rest => (pairUnits highFirst rest).map (unit highFirst [a, b] :: ·)
  | _ => none

/-- The units of four octets; nothing if octets are left over. -/
def quadUnits (highFirst : Bool) : List UInt8 → Option (List Nat)
  | [] => some []
  | a :: b :: c :: d :: rest =>
    (quadUnits highFirst rest).map (unit highFirst [a, b, c, d] :: ·)
  | _ => none

/-- The unit is the first one of a character beyond the basic plane. -/
def isLeading (unit : Nat) : Bool :=
  0xD800 ≤ unit && unit < 0xDC00

/-- The unit is the second one of a character beyond the basic plane. -/
def isTrailing (unit : Nat) : Bool :=
  0xDC00 ≤ unit && unit < 0xE000

/-- The numbers of the characters that units of two octets give. -/
def joinPairs : List Nat → List Nat
  | a :: b :: rest =>
    if isLeading a && isTrailing b then
      (0x10000 + (a - 0xD800) * 0x400 + (b - 0xDC00)) :: joinPairs rest
    else a :: joinPairs (b :: rest)
  | units => units

/-- The character of a number, if it has one. -/
def character? (n : Nat) : Option Char :=
  if n.isValidChar then some (Char.ofNat n) else none

/-- The text that the given bytes stand for in an encoding, if they stand for one. -/
def decode (encoding : Encoding) (bytes : List UInt8) : Option (List Char) :=
  match encoding with
  | .octets => (Utf8.decode bytes).toOption.map String.toList
  | .pairs highFirst => do (joinPairs (← pairUnits highFirst bytes)).mapM character?
  | .quads highFirst => do (← quadUnits highFirst bytes).mapM character?

end Encoding
end GrammarChart.Text
