import GrammarChart.Tool.Edit.Basic
import GrammarChart.Tool.Regular.Reading
import GrammarChart.Tool.Shell.Sum

/-!
# Reading edit scripts

A script is read from its start to its end. What follows the letter of an instruction depends on
the letter: nothing, a label, the name of a file, a text, or texts between marks.
-/

set_option autoImplicit false

namespace GrammarChart.Tool.Edit

/-- Reads a part of a script. -/
abbrev Read := StateT (List Char) (Except Problem)

/-- Ends the reading here. -/
def fail {α : Type} (message : String) : Read α := do
  throw ⟨message, .beforeEnd (← get).length⟩

/-- A blank. -/
def isBlank (c : Char) : Bool := c == ' ' || c == '\t'

/-- A character that separates instructions. -/
def isSeparator (c : Char) : Bool := ";\n \t\x0b\x0c\r".toList.contains c

/-- Takes the characters that pass a test. -/
def takeWhile (test : Char → Bool) : Read (List Char) := do
  let text ← get
  set (text.dropWhile test)
  return text.takeWhile test

/-- Takes the next character. -/
def next? : Read (Option Char) := do
  match ← get with
  | c :: rest =>
    set rest
    return some c
  | [] => return none

/-- The next character, which stays. -/
def peek? : Read (Option Char) := do return (← get).head?

/-- Passes blanks. -/
def skipBlanks : Read Unit := do
  let _ ← takeWhile isBlank

/-- The value of a digit of a base. -/
def digit? (base : Nat) (c : Char) : Option Nat :=
  let value := if c.isDigit then c.toNat - 48
    else if 'a' ≤ c.toLower ∧ c.toLower ≤ 'f' then c.toLower.toNat - 87 else base
  if value < base then some value else none

/-- Reads a number of at most so many digits of a base. -/
def numeral? (base most : Nat) (text : List Char) : Option (Char × List Char) :=
  let digits := (text.take most).takeWhile fun c => (digit? base c).isSome
  if digits.isEmpty then none
  else
    let value := (digits.filterMap (digit? base)).foldl (fun n d => n * base + d) 0
    some (Char.ofNat (value % 256), text.drop digits.length)

/-- The character that an escape stands for, read after its backslash. -/
def escape? (text : List Char) : Option (Char × List Char) :=
  match text with
  | 'a' :: rest => some ('\x07', rest)
  | 'f' :: rest => some ('\x0c', rest)
  | 'r' :: rest => some ('\r', rest)
  | 't' :: rest => some ('\t', rest)
  | 'v' :: rest => some ('\x0b', rest)
  | 'c' :: c :: rest => some (Char.ofNat (Nat.xor c.toUpper.toNat 64), rest)
  | 'd' :: rest => numeral? 10 3 rest
  | 'o' :: rest => numeral? 8 3 rest
  | 'x' :: rest => numeral? 16 2 rest
  | _ => none

/-- A text with its escapes replaced, read in at most the given number of steps. -/
def unescaped : Nat → List Char → List Char
  | n + 1, '\\' :: rest =>
    match escape? rest, rest with
    | some (c, rest), _ => c :: unescaped n rest
    | none, c :: rest => '\\' :: c :: unescaped n rest
    | none, [] => ['\\']
  | n + 1, c :: rest => c :: unescaped n rest
  | _, text => text

/-- Reads the rest of a set of characters up to its closing bracket, in at most the given number of
steps. Inside a class of characters, brackets do not close. -/
def readSetText (mark : Char) : Nat → Option Char → List Char → Option (List Char × List Char)
  | n + 1, some k, c :: rest =>
    if c == k && rest.head? == some ']' then
      (readSetText mark n none (rest.drop 1)).map fun (text, rest) => (c :: ']' :: text, rest)
    else (readSetText mark n (some k) rest).map fun (text, rest) => (c :: text, rest)
  | _ + 1, none, ']' :: rest => some ([']'], rest)
  | n + 1, none, '[' :: k :: rest =>
    if k == ':' || k == '.' || k == '=' then
      (readSetText mark n (some k) rest).map fun (text, rest) => ('[' :: k :: text, rest)
    else (readSetText mark n none (k :: rest)).map fun (text, rest) => ('[' :: text, rest)
  | n + 1, none, '\\' :: 'n' :: rest =>
    (readSetText mark n none rest).map fun (text, rest) => ('\n' :: text, rest)
  | n + 1, none, '\\' :: c :: rest =>
    if c == mark then (readSetText mark n none rest).map fun (text, rest) => (c :: text, rest)
    else (readSetText mark n none (c :: rest)).map fun (text, rest) => ('\\' :: text, rest)
  | n + 1, none, c :: rest =>
    (readSetText mark n none rest).map fun (text, rest) => (c :: text, rest)
  | _, _, _ => none

/-- Reads a set of characters after its opening bracket. -/
def readSet (mark : Char) (text : List Char) : Option (List Char × List Char) :=
  let start := match text with
    | '^' :: ']' :: _ => ['^', ']']
    | '^' :: _ => ['^']
    | ']' :: _ => [']']
    | _ => []
  (readSetText mark text.length none (text.drop start.length)).map fun (inside, rest) =>
    ('[' :: start ++ inside, rest)

/-- Reads a text up to a mark, in at most the given number of steps. Without a mark it is an error,
which tells how many characters are left. -/
def readMarked (mark : Char) (isRegular : Bool) :
    Nat → List Char → Except Nat (List Char × List Char)
  | 0, text => .error text.length
  | _, [] => .error 0
  | n + 1, c :: rest =>
    let adding (letters : List Char) (rest : List Char) : Except Nat (List Char × List Char) :=
      (readMarked mark isRegular n rest).map fun (text, rest) => (letters ++ text, rest)
    if c == mark then .ok ([], rest)
    else if c == '\n' then .error (c :: rest).length
    else if c == '\\' then
      match rest with
      | [] => .error 0
      | d :: rest =>
        if d == 'n' && isRegular then adding ['\n'] rest
        else if d != '\n' && (d != mark || (!isRegular && d == '&')) then adding ['\\', d] rest
        else adding [d] rest
    else if c == '[' && isRegular then
      match readSet mark rest with
      | some (inside, rest) => adding inside rest
      | none => .error 0
    else adding [c] rest

/-- Reads a text up to a mark. -/
def marked (mark : Char) (isRegular : Bool) (message : String) : Read (List Char) := do
  let text ← get
  match readMarked mark isRegular (text.length + 1) text with
  | .ok (inside, rest) =>
    set rest
    return inside
  | .error left =>
    throw ⟨message, .beforeEnd left⟩

/-- The matcher for the text of an expression; none for the empty one. -/
def matcherOf (isExtended : Bool) (text : List Char) (ignoresCase hasLines : Bool) :
    Read (Option Matcher) := do
  if text.isEmpty then return none
  match Regular.parse ⟨isExtended, true⟩ (unescaped text.length text) with
  | .ok (regular, groups, _) => return some ⟨regular, groups, ignoresCase, hasLines⟩
  | .error .looseClass => throw ⟨Regular.Problem.looseClass.message, .everywhere⟩
  | .error problem => fail problem.message

/-- Reads a number. -/
def number : Read Nat := do
  return Shell.Sum.numberOf 10 (← takeWhile Char.isDigit)

/-- Reads an address that starts with the next character, if it does. -/
def address? (isExtended : Bool) : Read (Option Address) := do
  let text ← get
  match text with
  | '$' :: rest =>
    set rest
    return some .last
  | c :: rest =>
    if c.isDigit then
      let first ← number
      skipBlanks
      match ← get with
      | '~' :: rest =>
        set rest
        skipBlanks
        let step ← number
        return some (if step = 0 then .line first else .step first step)
      | _ => return some (.line first)
    else if c == '/' || c == '\\' then
      set rest
      let mark? ← if c == '/' then pure (some '/') else next?
      match mark? with
      | none => fail "unterminated address regex"
      | some mark =>
        let text ← marked mark true "unterminated address regex"
        let flags ← takeWhile fun c => c == 'I' || c == 'M' || isBlank c
        return some (.matching (← matcherOf isExtended text (flags.contains 'I')
          (flags.contains 'M')))
    else return none
  | [] => return none

/-- Reads the end of a range. -/
def limit? (isExtended : Bool) : Read (Option Limit) := do
  match ← get with
  | '+' :: rest =>
    set rest
    return some (.after (← number))
  | '~' :: rest =>
    set rest
    return some (.multiple (← number))
  | _ => return (← address? isExtended).map .there

/-- Reads the guard of an instruction. -/
def guard (isExtended : Bool) : Read Guard := do
  let first ← address? isExtended
  skipBlanks
  let limit ← match first, ← get with
    | some _, ',' :: rest => do
      set rest
      skipBlanks
      match ← limit? isExtended with
      | some limit =>
        skipBlanks
        pure (some limit)
      | none =>
        let _ ← next?
        fail "unexpected \x60,\x27"
    | _, _ => pure none
  match ← get with
  | '!' :: rest =>
    set rest
    skipBlanks
    if (← peek?) = some '!' then
      let _ ← next?
      fail "multiple \x60!\x27s"
    return ⟨first, limit, true⟩
  | _ => return ⟨first, limit, false⟩

/-- Reads the end of an instruction. -/
def endOfInstruction : Read Unit := do
  skipBlanks
  match ← peek? with
  | none => return ()
  | some c =>
    if c == '\x7d' || c == '#' then return ()
    let _ ← next?
    if c == ';' || c == '\n' then return ()
    fail "extra characters after command"

/-- Reads a label. -/
def label : Read String := do
  skipBlanks
  return String.ofList (← takeWhile fun c => !isSeparator c && c != '\x7d')

/-- Reads the name of a file, up to the end of the line. -/
def fileName : Read String := do
  skipBlanks
  let name ← takeWhile (· != '\n')
  let _ ← next?
  if name.isEmpty then fail "missing filename in r/R/w/W commands"
  return String.ofList name

/-- Reads a text up to the end of a line that does not go on, in at most the given number of
steps. -/
def readText : Nat → List Char → List Char × List Char
  | n + 1, '\\' :: 'n' :: rest => (('\n' :: (readText n rest).1), (readText n rest).2)
  | n + 1, '\\' :: rest =>
    match escape? rest, rest with
    | some (c, rest), _ => ((c :: (readText n rest).1), (readText n rest).2)
    | none, c :: rest => ((c :: (readText n rest).1), (readText n rest).2)
    | none, [] => ([], [])
  | _ + 1, '\n' :: rest => (['\n'], rest)
  | n + 1, c :: rest => ((c :: (readText n rest).1), (readText n rest).2)
  | _, rest => (['\n'], rest)

/-- Reads the text of an instruction that adds one. -/
def text : Read String := do
  skipBlanks
  match ← get with
  | [] => fail "expected \\ after \x60a\x27, \x60c\x27 or \x60i\x27"
  | ['\\'] =>
    set ([] : List Char)
    return ""
  | start =>
    let body := match start with
      | '\\' :: '\n' :: rest => rest
      | '\\' :: rest => rest
      | rest => rest
    let (inside, rest) := match start, body with
      | '\\' :: c :: _, d :: rest =>
        if c == '\n' || d == '\\' then readText (body.length + 1) body
        else ((d :: (readText (rest.length + 1) rest).1), (readText (rest.length + 1) rest).2)
      | _, _ => readText (body.length + 1) body
    set rest
    return String.ofList inside

/-- The parts of a replacement, read in at most the given number of steps. -/
def partsOf : Nat → List Char → List Part
  | n + 1, '&' :: rest => .group 0 :: partsOf n rest
  | n + 1, '\\' :: c :: rest =>
    if c.isDigit then .group (c.toNat - 48) :: partsOf n rest
    else match caseChange? c with
      | some change => .change change :: partsOf n rest
      | none =>
        if c == 'n' then .letter '\n' :: partsOf n rest
        else match escape? (c :: rest) with
          | some (c, rest) => .letter c :: partsOf n rest
          | none => .letter c :: partsOf n rest
  | n + 1, c :: rest => .letter c :: partsOf n rest
  | _, _ => []
where
  /-- The change of case that a letter stands for. -/
  caseChange? (c : Char) : Option CaseChange :=
    [('u', .nextUpper), ('l', .nextLower), ('U', .upper), ('L', .lower), ('E', .plain)].lookup c

/-- What is asked for after a replacement. -/
structure Flags where
  isGlobal : Bool
  prints : Bool
  number : Option Nat
  ignoresCase : Bool
  hasLines : Bool
  target : Option String

/-- Reads the flags of a substitution, at most as many as the given number. -/
def flags : Nat → Flags → Read Flags
  | 0, flags => return flags
  | n + 1, given => do
    match ← next? with
    | none => return given
    | some c =>
      if c == '\x7d' || c == '#' then
        modify (c :: ·)
        return given
      else if c == '\n' || c == ';' then return given
      else if isBlank c || c == '\r' then flags n given
      else if c == 'g' then
        if given.isGlobal then fail "multiple \x60g\x27 options to \x60s\x27 command"
        flags n { given with isGlobal := true }
      else if c == 'p' then
        if given.prints then fail "multiple \x60p\x27 options to \x60s\x27 command"
        flags n { given with prints := true }
      else if c == 'i' || c == 'I' then flags n { given with ignoresCase := true }
      else if c == 'm' || c == 'M' then flags n { given with hasLines := true }
      else if c == 'e' then flags n given
      else if c == 'w' then return { given with target := some (← fileName) }
      else if c.isDigit then
        if given.number.isSome then fail "multiple number options to \x60s\x27 command"
        let number := Shell.Sum.numberOf 10 (c :: (← takeWhile Char.isDigit))
        if number = 0 then fail "number option to \x60s\x27 command may not be zero"
        flags n { given with number := some number }
      else fail "unknown option to \x60s\x27"

/-- Reads a substitution. -/
def substitution (isExtended : Bool) : Read Substitution := do
  let unfinished := "unterminated \x60s\x27 command"
  match ← next? with
  | none => fail unfinished
  | some mark =>
    let sought ← marked mark true unfinished
    let replacement ← marked mark false unfinished
    let parts := partsOf replacement.length replacement
    let flags ← flags ((← get).length + 1) ⟨false, false, none, false, false, none⟩
    let matcher ← matcherOf isExtended sought flags.ignoresCase flags.hasLines
    let isMissing (matcher : Matcher) (part : Part) : Option Nat :=
      match part with
      | .group number => if matcher.groups < number then some number else none
      | _ => none
    match matcher.bind fun matcher => parts.findSome? (isMissing matcher) with
    | some number =>
      fail ("invalid reference \\" ++ toString number ++ " on \x60s\x27 command\x27s RHS")
    | none =>
      return ⟨matcher, parts, flags.isGlobal, flags.number.getD 1, flags.prints, flags.target⟩

/-- The characters of a list for replacements of single characters. -/
def singles : List Char → List Char
  | '\\' :: 'n' :: rest => '\n' :: singles rest
  | '\\' :: c :: rest => c :: singles rest
  | c :: rest => c :: singles rest
  | [] => []

/-- Reads replacements of single characters. -/
def transliteration : Read (List (Char × Char)) := do
  let unfinished := "unterminated \x60y\x27 command"
  match ← next? with
  | none => fail unfinished
  | some mark =>
    let sought ← marked mark false unfinished
    let replacement ← marked mark false unfinished
    let sought := singles (unescaped sought.length sought)
    let replacement := singles (unescaped replacement.length replacement)
    if sought.length ≠ replacement.length then
      fail "strings for \x60y\x27 command are different lengths"
    endOfInstruction
    return sought.zip replacement

/-- The instructions that consist of their letters only. -/
def plainAction? (c : Char) : Option Action :=
  [('=', .tellNumber), ('d', .delete), ('D', .deleteLine), ('F', .tellName), ('g', .recall),
    ('G', .addRecall), ('h', .hold), ('H', .addHold), ('n', .next), ('N', .addNext),
    ('p', .print), ('P', .printLine), ('x', .exchange), ('z', .clear)].lookup c

/-- Reads the rest of an instruction after its letter. -/
def action (isExtended : Bool) (guard : Guard) (c : Char) : Read Action := do
  match plainAction? c with
  | some action =>
    endOfInstruction
    return action
  | none =>
    match c with
    | '\x7b' => return .opening
    | ':' =>
      if guard.first.isSome then fail ": doesn\x27t want any addresses"
      let name ← label
      if name = "" then fail "\":\" lacks a label"
      return .label name
    | 'b' => return .jump (← label)
    | 't' => return .jumpIf (← label)
    | 'T' => return .jumpUnless (← label)
    | 'a' => return .append (← text)
    | 'i' => return .insert (← text)
    | 'c' => return .change (← text)
    | 'r' => return .addFile (← fileName)
    | 'R' => return .addLineOf (← fileName)
    | 'w' => return .write (← fileName)
    | 'W' => return .writeLine (← fileName)
    | 's' => return .substitute (← substitution isExtended)
    | 'y' => return .transliterate (← transliteration)
    | 'v' =>
      let _ ← label
      endOfInstruction
      return .nothing
    | 'q' => finish .quit
    | 'Q' => finish .leave
    | 'l' =>
      skipBlanks
      let digits ← takeWhile Char.isDigit
      endOfInstruction
      return .list (if digits.isEmpty then none else some (Shell.Sum.numberOf 10 digits))
    | c => fail ("unknown command: \x60" ++ c.toString ++ "\x27")
where
  /-- Reads the status of an instruction that ends the script. -/
  finish (action : Nat → Action) : Read Action := do
    if guard.limit.isSome then fail "command only uses one address"
    skipBlanks
    let status ← number
    endOfInstruction
    return action status

/-- The guard may be used: the line before the first one is only the start of a range up to an
expression, or a place to add a file. -/
def isUsable (guard : Guard) (action : Char) : Bool :=
  match guard.first, guard.limit with
  | some (.line 0), some (.there (.matching _)) => true
  | some (.line 0), none => action == 'r'
  | some (.line 0), _ => false
  | _, _ => true

/-- Reads instructions, in at most the given number of steps, inside a number of open blocks. -/
def instructions (isExtended : Bool) : Nat → Nat → Read (List Instruction)
  | 0, _ => return []
  | n + 1, depth => do
    let _ ← takeWhile isSeparator
    if (← get).isEmpty then
      if depth ≠ 0 then throw ⟨"unmatched \x60\x7b\x27", .nowhere⟩
      return []
    let guard ← guard isExtended
    match ← next? with
    | none =>
      if !isUsable guard ' ' then fail "invalid usage of line address 0"
      fail "missing command"
    | some '#' =>
      if guard.first.isSome then fail "comments don\x27t accept any addresses"
      let _ ← takeWhile (· != '\n')
      instructions isExtended n depth
    | some c =>
      if !isUsable guard c then fail "invalid usage of line address 0"
      if c == '\x7d' then
        if depth = 0 then fail "unexpected \x60\x7d\x27"
        if guard.first.isSome then fail "\x60\x7d\x27 doesn\x27t want any addresses"
        endOfInstruction
        return ⟨guard, .closing⟩ :: (← instructions isExtended n (depth - 1))
      else
        let action ← action isExtended guard c
        let inner := if c == '\x7b' then depth + 1 else depth
        return ⟨guard, action⟩ :: (← instructions isExtended n inner)

/-- The labels that an instruction jumps to. -/
def Action.target? : Action → Option String
  | .jump name => some name
  | .jumpIf name => some name
  | .jumpUnless name => some name
  | _ => none

/-- The script that a text stands for. -/
def parse (isExtended : Bool) (source : List Char) : Except Problem Script := do
  let (found, _) ← (instructions isExtended (source.length + 1) 0).run source
  return ⟨found.toArray, ['#', 'n'].isPrefixOf source⟩

/-- A label that a script jumps to and does not have. -/
def Script.lost? (script : Script) : Option String :=
  let labels := script.instructions.toList.filterMap fun instruction =>
    match instruction.action with
    | .label name => some name
    | _ => none
  script.instructions.toList.findSome? fun instruction =>
    instruction.action.target?.filter fun name => name ≠ "" && !labels.contains name

end GrammarChart.Tool.Edit
