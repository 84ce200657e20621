import GrammarChart.Fault

/-!
# Names of hosts

A host is named by an address of four numbers, by an address of eight groups in brackets, or by a
name. What looks like one of the two addresses has to be one; a name in the basic block may be
anything, and a name beyond it has to consist of labels that a host can have.
-/

set_option autoImplicit false

namespace GrammarChart.HostName

/-- Splits a text at a character. -/
def parts (separator : Char) (text : List Char) : List (List Char) :=
  text.splitOn separator

/-- A digit of the basic block. -/
def isDigit (c : Char) : Bool :=
  c.isDigit

/-- The places in a text of four runs of digits with one character between any two of them that can
be reached by a further character. Even places are behind the character between two runs, and odd
ones in a run. -/
def advance (c : Char) (places : List Nat) : List Nat :=
  (places.flatMap fun place =>
    (if isDigit c then [if place % 2 = 0 then place + 1 else place] else []) ++
      (if place % 2 = 1 && place < 7 then [place + 1] else [])).eraseDups

/-- The text consists of four runs of digits with any one character between any two of them. -/
def looksLikeQuad (host : List Char) : Bool :=
  (host.foldl (fun places c => advance c places) [0]).contains 7

/-- The number of at most three digits, without a zero before another digit, is at most 255. -/
def isQuadPart (part : List Char) : Bool :=
  !part.isEmpty && part.length ≤ 3 && part.all isDigit && (part.length = 1 || part.head? ≠ some '0')
    && (part.foldl (fun n c => n * 10 + (c.toNat - 48)) 0) ≤ 255

/-- The text is an address of four numbers. -/
def isQuad (host : List Char) : Bool :=
  let numbers := parts '.' host
  numbers.length = 4 && numbers.all isQuadPart

/-- The text is a group of hexadecimal digits. -/
def isGroup (part : List Char) : Bool :=
  !part.isEmpty && part.length ≤ 4 &&
    part.all fun c => c.isDigit || ('a' ≤ c && c ≤ 'f') || ('A' ≤ c && c ≤ 'F')

/-- Groups between colons, where an address of four numbers at the end counts as two groups. -/
def groups? (text : List Char) : Option (List (List Char)) :=
  let groups := parts ':' text
  match groups.getLast? with
  | some last =>
    if last.contains '.' then
      if isQuad last then some (groups.dropLast ++ [['0'], ['0']]) else none
    else some groups
  | none => none

/-- The groups make up an address: all eight of them, or fewer with one gap of two colons. -/
def areGroups (groups : List (List Char)) : Bool :=
  let gaps := ((groups.drop 1).dropLast.zipIdx 1).filter (·.1.isEmpty)
  match gaps with
  | [] => groups.length = 8 && groups.all isGroup
  | [(_, gap)] =>
    let before := groups.take gap
    let after := groups.drop (gap + 1)
    let before := if before = [[]] then [] else before
    let after := if after = [[]] then [] else after
    before.length + after.length < 8 && before.all isGroup && after.all isGroup
  | _ => false

/-- The text is an address of eight groups, maybe with the name of a zone after a percent sign. -/
def isEightfold (text : List Char) : Bool :=
  let address := text.takeWhile (· != '%')
  let zone := text.dropWhile (· != '%')
  (zone.isEmpty || (zone.length > 1 && !(zone.drop 1).contains '%')) &&
    (parts ':' address).length ≥ 3 && (parts ':' address).length ≤ 9 &&
    (groups? address).any areGroups

/-- The characters that end a label. -/
def isDot (c : Char) : Bool :=
  c == '.' || c == '\u3002' || c == '\uff0e' || c == '\uff61'

/-- A label that a host can have: letters, digits and inner hyphens. -/
def isLabel (label : List Char) : Bool :=
  !label.isEmpty && label.length ≤ 63 && label.head? ≠ some '-' && label.getLast? ≠ some '-' &&
    (label.drop 2).take 2 ≠ ['-', '-'] &&
    label.all fun c => c == '-' || (c != '_' && Text.isWordCharacter c)

/-- The labels of a name. A dot at its end counts for nothing. -/
def labels (host : List Char) : List (List Char) :=
  let labels := host.splitOnP isDot
  if labels.getLast? = some [] then labels.dropLast else labels

/-- The name of a host has the form that it seems to have. -/
def check (host : String) : Except Fault Unit :=
  let text := host.toList
  if text.isEmpty then .ok ()
  else if looksLikeQuad text then
    if isQuad text then .ok () else .error (.badAddress (.badQuad host))
  else if text.head? = some '[' ∧ text.length > 1 ∧ text.getLast? = some ']' then
    if isEightfold (text.drop 1).dropLast then .ok ()
    else .error (.badAddress (.badBrackets host))
  else if text.all fun c => c.toNat < 0x80 then .ok ()
  else if !(labels text).isEmpty && (labels text).all isLabel then .ok ()
  else .error (.badAddress (.badName host))

end GrammarChart.HostName
