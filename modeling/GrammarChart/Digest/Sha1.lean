/-!
# The digest SHA-1

A message is padded to whole blocks of sixteen words: a set bit, zeros, and the length in bits as
two words. Each block is mixed into a state of five words by eighty rounds; the state after the
last block is the digest.
-/

set_option autoImplicit false

namespace GrammarChart.Sha1

/-- Five words of thirty-two bits. -/
structure State where
  a : UInt32
  b : UInt32
  c : UInt32
  d : UInt32
  e : UInt32
  deriving DecidableEq, Repr

namespace State

/-- The state before the first block. -/
def initial : State := ⟨0x67452301, 0xEFCDAB89, 0x98BADCFE, 0x10325476, 0xC3D2E1F0⟩

/-- The sum of two states, word by word. -/
def add (s t : State) : State :=
  ⟨s.a + t.a, s.b + t.b, s.c + t.c, s.d + t.d, s.e + t.e⟩

end State

/-- Moves the bits of a word to the left; those that leave it come back on the right. -/
def rotate (word count : UInt32) : UInt32 :=
  (word <<< count) ||| (word >>> (32 - count))

/-- The words of a sequence of octets, the most significant octet first. -/
def wordsOf : List UInt8 → List UInt32
  | p :: q :: r :: s :: rest =>
    ((p.toUInt32 <<< 24) ||| (q.toUInt32 <<< 16) ||| (r.toUInt32 <<< 8) ||| s.toUInt32) ::
      wordsOf rest
  | _ => []

/-- The words of a padded message. -/
def padded (message : List UInt8) : List UInt32 :=
  let bits := message.length * 8
  let zeros := (119 - message.length % 64) % 64
  wordsOf (message ++ 0x80 :: List.replicate zeros 0) ++
    [UInt32.ofNat (bits / 4294967296), UInt32.ofNat bits]

/-- Adds a number of words to a schedule, which is listed with its latest word first. -/
def extend : Nat → List UInt32 → List UInt32
  | 0, latest => latest
  | count + 1, latest =>
    let word := latest.getD 2 0 ^^^ latest.getD 7 0 ^^^ latest.getD 13 0 ^^^ latest.getD 15 0
    extend count (rotate word 1 :: latest)

/-- The eighty words that the rounds of a block take in. -/
def schedule (block : List UInt32) : List UInt32 :=
  (extend 64 block.reverse).reverse

/-- How the three middle words are mixed in a round, and the constant of the round. -/
def mixing (round : Nat) (b c d : UInt32) : UInt32 × UInt32 :=
  if round < 20 then ((b &&& c) ||| ((~~~b) &&& d), 0x5A827999)
  else if round < 40 then (b ^^^ c ^^^ d, 0x6ED9EBA1)
  else if round < 60 then ((b &&& c) ||| (b &&& d) ||| (c &&& d), 0x8F1BBCDC)
  else (b ^^^ c ^^^ d, 0xCA62C1D6)

/-- One round. -/
def step (s : State) (round : Nat) (word : UInt32) : State :=
  let (mixed, constant) := mixing round s.b s.c s.d
  ⟨rotate s.a 5 + mixed + s.e + constant + word, s.a, rotate s.b 30, s.c, s.d⟩

/-- Mixes a block into a state. -/
def compress (s : State) (block : List UInt32) : State :=
  s.add ((schedule block).zipIdx.foldl (fun t (word, round) => step t round word) s)

/-- Mixes the whole blocks of a sequence of words into a state. -/
def absorb (s : State) (words : List UInt32) : State :=
  if words.length < 16 then s
  else absorb (compress s (words.take 16)) (words.drop 16)
termination_by words.length
decreasing_by simp only [List.length_drop]; omega

/-- The digest of a message. -/
def digest (message : List UInt8) : State :=
  absorb .initial (padded message)

end GrammarChart.Sha1
