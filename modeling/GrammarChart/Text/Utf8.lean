/-!
# UTF-8

Reading of octets as text. An octet sequence that is not UTF-8 is refused at its first offending
octet, with the range of octets concerned and the reason; the shortest form is demanded and
surrogates are refused, as the standard asks.
-/

set_option autoImplicit false

namespace GrammarChart.Text.Utf8

/-- Why octets are not UTF-8. -/
inductive Reason where
  /-- No character starts with this octet. -/
  | startByte
  /-- An octet does not continue the character begun before it. -/
  | continuationByte
  /-- The octets end inside a character. -/
  | endOfData
  deriving DecidableEq, Repr

/-- The wording of the reason. -/
def Reason.message : Reason → String
  | .startByte => "invalid start byte"
  | .continuationByte => "invalid continuation byte"
  | .endOfData => "unexpected end of data"

/-- Octets that are not UTF-8: the first octet concerned, its position, how many octets are
concerned, and why. -/
structure Fault where
  byte : UInt8
  position : Nat
  count : Nat
  reason : Reason
  deriving DecidableEq, Repr

/-- An octet that continues a character. -/
def isContinuation (b : UInt8) : Bool :=
  0x80 ≤ b && b < 0xC0

/-- The number that the continuation octets append to the leading bits. -/
def assemble (lead : Nat) (tail : List UInt8) : Char :=
  Char.ofNat (tail.foldl (fun n b => n * 64 + (b.toNat - 0x80)) lead)

/-- The octets allowed after the given first octet of a longer character. -/
def allowsSecond (first second : UInt8) : Bool :=
  isContinuation second &&
    (if first == 0xE0 then 0xA0 ≤ second
    else if first == 0xED then second < 0xA0
    else if first == 0xF0 then 0x90 ≤ second
    else if first == 0xF4 then second < 0x90
    else true)

/-- Reads one character: the character and how many octets follow its first one, or the number of
octets concerned and the reason of the refusal. -/
def readCharacter (first : UInt8) (rest : List UInt8) : Except (Nat × Reason) (Char × Nat) :=
  let wanted :=
    if first < 0x80 then some 0
    else if first < 0xC2 then none
    else if first < 0xE0 then some 1
    else if first < 0xF0 then some 2
    else if first < 0xF5 then some 3
    else none
  match wanted with
  | none => .error (1, .startByte)
  | some 0 => .ok (Char.ofNat first.toNat, 0)
  | some count =>
    let tail := rest.take count
    let good :=
      match tail with
      | [] => 0
      | second :: others =>
        if allowsSecond first second then 1 + (others.takeWhile isContinuation).length else 0
    if good < tail.length then .error (good + 1, .continuationByte)
    else if tail.length < count then .error (tail.length + 1, .endOfData)
    else
      let lead := if count = 1 then first.toNat - 0xC0
        else if count = 2 then first.toNat - 0xE0 else first.toNat - 0xF0
      .ok (assemble lead tail, count)

/-- Reads the octets from the given position on. -/
def decodeFrom (position : Nat) : List UInt8 → Except Fault (List Char)
  | [] => .ok []
  | first :: rest =>
    match readCharacter first rest with
    | .error (count, reason) => .error ⟨first, position, count, reason⟩
    | .ok (c, extra) => (decodeFrom (position + extra + 1) (rest.drop extra)).map (c :: ·)
termination_by bytes => bytes.length
decreasing_by simp only [List.length_drop, List.length_cons]; omega

/-- The text that the octets spell. -/
def decode (bytes : List UInt8) : Except Fault String :=
  (decodeFrom 0 bytes).map String.ofList

/-- The characters that the octets spell, with a replacement character for every run of octets that
spells none. -/
def decodeLossy : List UInt8 → List Char
  | [] => []
  | first :: rest =>
    match readCharacter first rest with
    | .error (count, _) => '\uFFFD' :: decodeLossy (rest.drop (count - 1))
    | .ok (c, extra) => c :: decodeLossy (rest.drop extra)
termination_by bytes => bytes.length
decreasing_by
  · simp only [List.length_drop, List.length_cons]; omega
  · simp only [List.length_drop, List.length_cons]; omega

/-- No octets spell the empty text. -/
theorem decode_nil : decode [] = .ok "" := by
  simp [decode, decodeFrom, Except.map]

end GrammarChart.Text.Utf8
