import GrammarChart.Tool.Regular.Basic

/-!
# Reading regular expressions

A regular expression is written in a basic or in an extended way. Both have the same signs; in
the basic way most of them stand after a backslash. `pieces` finds the signs, and `parse`
puts them together.
-/

set_option autoImplicit false

namespace GrammarChart.Tool.Regular

open Shell (Member readMembers characterClasses)

/-- A reason why a text is no regular expression. -/
inductive Problem where
  | unstartedSet
  | unclosedSet
  | unclosedGroup
  | unopenedGroup
  | unclosedBounds
  | badBounds
  | tooLarge
  | nothingToRepeat
  | noGroup
  | endsInBackslash
  | badRange
  | unknownClass
  | looseClass
  deriving DecidableEq, Repr

/-- What is said about a problem. -/
def Problem.message : Problem → String
  | .unstartedSet => "Invalid regular expression"
  | .unclosedSet => "Unmatched [, [^, [:, [., or [="
  | .unclosedGroup => "Unmatched ( or \\("
  | .unopenedGroup => "Unmatched ) or \\)"
  | .unclosedBounds => "Unmatched \\\x7b"
  | .badBounds => "Invalid content of \\\x7b\\\x7d"
  | .tooLarge => "Regular expression too big"
  | .nothingToRepeat => "Invalid preceding regular expression"
  | .noGroup => "Invalid back reference"
  | .endsInBackslash => "Trailing backslash"
  | .badRange => "Invalid range end"
  | .unknownClass => "Invalid character class name"
  | .looseClass => "character class syntax is [[:space:]], not [:space:]"

/-- The way in which an expression is written. -/
structure Dialect where
  isExtended : Bool
  /-- A repetition of nothing, or of a repetition in the basic way, is refused. -/
  isStrict : Bool
  deriving DecidableEq, Repr

/-- A sign of a regular expression. -/
inductive Piece where
  | single (regular : Regular)
  | edge (kind : Edge)
  | again (number : Nat)
  /-- A repetition, with the text of its sign. -/
  | repetition (least : Nat) (most : Option Nat) (sign : List Char)
  /-- The start of bounds that are none, with what is wrong with them if they may not stand. -/
  | looseBounds (problem : Option Problem)
  /-- A place at which the text is wrong. -/
  | fault (problem : Problem)
  | opening
  | closing
  | bar
  deriving Repr

/-- The greatest bound of a repetition. -/
def maxBound : Nat := 32767

/-- Reads the bounds of a repetition, up to their closing sign. Bounds that are not well formed are
told apart by whether their closing sign is there. -/
def readBounds (closing text : List Char) :
    Except Problem ((Nat × Option Nat) × List Char) := do
  let number (digits : List Char) : Nat :=
    digits.foldl (fun n c => min (maxBound + 1) (n * 10 + (c.toNat - 48))) 0
  let first := text.takeWhile Char.isDigit
  let rest := text.drop first.length
  let (least, most, rest) : Option Nat × Option Nat × List Char :=
    match rest with
    | ',' :: rest =>
      let last := rest.takeWhile Char.isDigit
      (some (number first), if last.isEmpty then none else some (number last),
        rest.drop last.length)
    | rest =>
      if first.isEmpty then (none, none, rest) else (some (number first), some (number first), rest)
  if !closing.isPrefixOf rest then
    throw (if rest.isEmpty then .unclosedBounds else .badBounds)
  match least, most with
  | none, _ => throw .badBounds
  | some least, most =>
    if most.any (· < least) then throw .badBounds
    if maxBound < least ∨ most.any (maxBound < ·) then throw .tooLarge
    return ((least, most), rest.drop closing.length)

/-- Reads a set after its bracket. -/
def readSet (text : List Char) : Except Problem (Regular × List Char) := do
  let (negated, inside) := match text with
    | '^' :: rest => (true, rest)
    | rest => (false, rest)
  if inside.isEmpty then throw .unstartedSet
  match readMembers (inside.length + 1) true (inside.map fun c => (c, false)) with
  | none => throw .unclosedSet
  | some (members, rest) =>
    let isBad : Member → Bool
      | .range first last => last < first
      | .named _ => false
    let isUnknown : Member → Bool
      | .range _ _ => false
      | .named name => (characterClasses.lookup name).isNone
    if members.any isUnknown then throw .unknownClass
    if members.any isBad then throw .badRange
    let colon : Member := .range ':' ':'
    if !negated ∧ 2 < members.length ∧ members.head? = some colon ∧
      members.getLast? = some colon then throw .looseClass
    return (.set negated members, rest.map Prod.fst)

/-- The signs that stand after a backslash in both ways of writing. -/
def readEscape? (c : Char) : Option Piece :=
  let word : List Member := [.named "alnum", .range '_' '_']
  match c with
  | 'w' => some (.single (.set false word))
  | 'W' => some (.single (.set true word))
  | 's' => some (.single (.set false [.named "space"]))
  | 'S' => some (.single (.set true [.named "space"]))
  | '<' => some (.edge .wordStart)
  | '>' => some (.edge .wordEnd)
  | 'b' => some (.edge .word)
  | 'B' => some (.edge .noWord)
  | '\x60' => some (.edge .textStart)
  | '\x27' => some (.edge .textEnd)
  | c => if '1' ≤ c ∧ c ≤ '9' then some (.again (c.toNat - 48)) else none

/-- The signs that need a backslash in the basic way of writing and none in the extended one, but
for bounds. -/
def readSign? (c : Char) : Option Piece :=
  match c with
  | '(' => some .opening
  | ')' => some .closing
  | '|' => some .bar
  | '+' => some (.repetition 1 none ['+'])
  | '?' => some (.repetition 0 (some 1) ['?'])
  | _ => none

/-- The end of an expression, or of a group or an alternative of it, follows in the basic way of
writing. -/
def isAtBasicEnd (text : List Char) : Bool :=
  match text with
  | [] => true
  | '\\' :: ')' :: _ => true
  | '\\' :: '|' :: _ => true
  | _ => false

/-- Reads a repetition with bounds after its opening brace. -/
def readRepetition (dialect : Dialect) (text : List Char) : Piece × List Char :=
  let closing := if dialect.isExtended then ['\x7d'] else ['\\', '\x7d']
  match readBounds closing text with
  | .ok ((least, most), rest) =>
    (.repetition least most ('\x7b' :: text.take (text.length - rest.length)), rest)
  | .error problem =>
    let mayStand := dialect.isExtended ∧ !dialect.isStrict ∧
      (problem = .unclosedBounds ∨ (problem = .badBounds ∧ isLoose text))
    (.looseBounds (if mayStand then none else some problem), text)
where
  /-- The text does not even look like bounds. -/
  isLoose (text : List Char) : Bool :=
    match text.dropWhile fun c => c.isDigit || c == ',' with
    | '\x7d' :: _ => text.head? = some '\x7d'
    | _ => true

/-- The signs of a text, at most as many as the given number. The flag tells that an expression, or
a group or an alternative of it, starts here. -/
def pieces (dialect : Dialect) : Nat → Bool → List Char → List Piece
  | 0, _, _ => []
  | _, _, [] => []
  | n + 1, isStart, c :: rest =>
    let isOpen (piece : Piece) : Bool := match piece with
      | .opening => true
      | .bar => true
      | _ => false
    let letter (c : Char) (rest : List Char) : List Piece :=
      .single (.letter c) :: pieces dialect n false rest
    match c, rest with
    | '\\', [] => [.fault .endsInBackslash]
    | '\\', c :: rest =>
      let sign := (readEscape? c).or (if dialect.isExtended then none else readSign? c)
      match sign with
      | some piece => piece :: pieces dialect n (isOpen piece) rest
      | none =>
        if c = '\x7b' ∧ !dialect.isExtended then
          let (piece, rest) := readRepetition dialect rest
          piece :: pieces dialect n false rest
        else letter c rest
    | '.', rest => .single .any :: pieces dialect n false rest
    | '[', rest =>
      match readSet rest with
      | .ok (regular, rest) => .single regular :: pieces dialect n false rest
      | .error problem => [.fault problem]
    | '*', rest => .repetition 0 none ['*'] :: pieces dialect n false rest
    | '^', rest =>
      if dialect.isExtended ∨ isStart then .edge .lineStart :: pieces dialect n false rest
      else letter '^' rest
    | '$', rest =>
      if dialect.isExtended ∨ isAtBasicEnd rest then
        .edge .lineEnd :: pieces dialect n false rest
      else letter '$' rest
    | '\x7b', rest =>
      if dialect.isExtended then
        let (piece, rest) := readRepetition dialect rest
        piece :: pieces dialect n false rest
      else letter '\x7b' rest
    | c, rest =>
      match if dialect.isExtended then readSign? c else none with
      | some piece => piece :: pieces dialect n (isOpen piece) rest
      | none => letter c rest

/-- A group that is open, or the expression around all groups: the alternatives that have been read
and the parts of the present one, both backwards. -/
structure Level where
  number : Nat
  alternatives : List Regular
  parts : List Regular
  /-- The last part can be repeated. -/
  canRepeat : Bool
  /-- The last part is a repetition. -/
  isRepetition : Bool
  deriving Repr

/-- What has been read of an expression: its open levels, the innermost first, the number of its
groups, those that are closed, and the signs of repetitions that were left out. -/
structure Progress where
  level : Level
  outer : List Level
  groups : Nat
  closed : List Nat
  skipped : List String
  deriving Repr

namespace Level

/-- A level in which nothing has been read. -/
def start (number : Nat) : Level := ⟨number, [], [], false, false⟩

/-- Puts a part at the end. -/
def push (level : Level) (part : Regular) : Level :=
  { level with parts := part :: level.parts, canRepeat := true, isRepetition := false }

/-- The present alternative. -/
def branch (level : Level) : Regular :=
  match level.parts with
  | [] => .nothing
  | last :: before => before.foldl (fun rest part => .both part rest) last

/-- Nothing but edges has been read of the present alternative. -/
def isFresh (level : Level) : Bool :=
  level.parts.all fun part => match part with
    | .edge _ => true
    | _ => false

/-- Everything that has been read in the level. -/
def regular (level : Level) : Regular :=
  level.alternatives.foldl (fun rest branch => .either branch rest) level.branch

end Level

namespace Progress

/-- Puts a part at the end. -/
def push (progress : Progress) (part : Regular) : Progress :=
  { progress with level := progress.level.push part }

/-- Puts characters at the end. -/
def pushLetters (progress : Progress) (letters : List Char) : Progress :=
  letters.foldl (fun progress c => progress.push (.letter c)) progress

/-- Takes a repetition that has nothing to repeat. -/
def takeLoose (dialect : Dialect) (progress : Progress) (sign : List Char) :
    Except Problem Progress :=
  let isBounds := sign.head? = some '\x7b'
  if !dialect.isExtended then
    if isBounds ∧ dialect.isStrict then .error .nothingToRepeat
    else .ok (progress.pushLetters (sign.filter (· != '\\')))
  else if dialect.isStrict then .error .nothingToRepeat
  else
    let shown := if isBounds then "\x7b...\x7d" else String.ofList sign
    let skipped := if progress.level.isFresh then shown :: progress.skipped else progress.skipped
    .ok ({ progress with skipped := skipped }.pushLetters (sign.drop 1))

/-- Takes a sign. -/
def take (dialect : Dialect) (progress : Progress) (piece : Piece) : Except Problem Progress :=
  let level := progress.level
  match piece with
  | .single regular => .ok (progress.push regular)
  | .edge kind =>
    .ok { progress with level := { level.push (.edge kind) with canRepeat := false } }
  | .again number =>
    if progress.closed.contains number then .ok (progress.push (.again number))
    else .error .noGroup
  | .repetition least most sign =>
    if !level.canRepeat then progress.takeLoose dialect sign
    else if dialect.isStrict ∧ !dialect.isExtended ∧ level.isRepetition ∧
        (sign = ['*'] ∨ sign.head? = some '\x7b') then .error .nothingToRepeat
    else match level.parts with
      | part :: before =>
        .ok { progress with
          level := { level with parts := .repeated part least most :: before, isRepetition := true } }
      | [] => .ok progress
  | .looseBounds problem? =>
    if level.canRepeat then
      match problem? with
      | some problem => .error problem
      | none => .ok (progress.push (.letter '\x7b'))
    else if dialect.isStrict then .error .nothingToRepeat
    else .ok (if dialect.isExtended then progress else progress.push (.letter '\x7b'))
  | .fault problem => .error problem
  | .opening =>
    let number := progress.groups + 1
    .ok { progress with level := .start number, outer := level :: progress.outer, groups := number }
  | .closing =>
    match progress.outer with
    | around :: outer =>
      .ok { progress with
        level := around.push (.group level.number level.regular), outer := outer
        closed := level.number :: progress.closed }
    | [] =>
      if dialect.isExtended ∧ !dialect.isStrict then .ok (progress.push (.letter ')'))
      else .error .unopenedGroup
  | .bar =>
    .ok { progress with
      level := { Level.start level.number with alternatives := level.branch :: level.alternatives } }

end Progress

/-- The expression that a text stands for, the number of its groups, and the signs of repetitions of
nothing that were left out. -/
def parse (dialect : Dialect) (text : List Char) :
    Except Problem (Regular × Nat × List String) := do
  let signs := pieces dialect (text.length + 1) true text
  let progress ← signs.foldlM (Progress.take dialect) ⟨.start 0, [], 0, [], []⟩
  if !progress.outer.isEmpty then throw .unclosedGroup
  return (progress.level.regular, progress.groups, progress.skipped.reverse)

end GrammarChart.Tool.Regular
