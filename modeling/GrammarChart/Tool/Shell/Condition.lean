import GrammarChart.Files.FileTree
import GrammarChart.Tool.Script.Octets
import GrammarChart.Tool.Shell.Sum

/-!
# Conditions

The conditions that a script tests: about files, texts and numbers, joined by signs for not, and
and or. A condition is refused when its words do not form one.
-/

set_option autoImplicit false

namespace GrammarChart.Tool.Shell

/-- The text of a file, in octets. -/
def fileText (content : Content) : String :=
  Octets.ofBytes content.bytes

/-- The signs before one word. -/
def unarySigns : List String :=
  ["-n", "-z", "-e", "-f", "-d", "-s", "-r", "-w", "-x", "-h", "-L", "-t", "-b", "-c", "-p", "-S",
    "-u", "-g", "-k", "-O", "-G"]

/-- The signs between two words. -/
def binarySigns : List String :=
  ["=", "!=", "<", ">", "-eq", "-ne", "-gt", "-ge", "-lt", "-le", "-nt", "-ot", "-ef"]

/-- The meaning of a word in a condition. -/
inductive ConditionSign where
  | nothing
  | operand
  | unary
  | binary
  | not
  | and
  | or
  | opening
  | closing
  deriving DecidableEq, Repr

/-- The sign that a word can be. -/
def sign? (word : String) : Option ConditionSign :=
  if unarySigns.contains word then some .unary
  else if binarySigns.contains word then some .binary
  else match word with
    | "!" => some .not
    | "-a" => some .and
    | "-o" => some .or
    | "(" => some .opening
    | ")" => some .closing
    | _ => none

/-- The meaning of the first of some words. -/
def signOf (words : List String) : ConditionSign :=
  let isOperand : Bool := match words with
    | [_] => true
    | [_, _] => false
    | _ :: next :: _ => sign? next == some .binary
    | [] => false
  match words with
  | [] => .nothing
  | word :: rest =>
    match sign? word with
    | some .unary => if isOperand then .operand else .unary
    | some .opening => if rest.isEmpty then .operand else .opening
    | some sign => sign
    | none => .operand

/-- The number that a word stands for in a condition. -/
def conditionNumber (word : String) : Except String Int :=
  let isBlank (c : Char) : Bool := c == ' ' || c == '\t' || c == '\n'
  let letters := word.toList.dropWhile isBlank
  let (negated, digits) := match letters with
    | '-' :: rest => (true, rest)
    | '+' :: rest => (false, rest)
    | rest => (false, rest)
  let (value, rest) := Sum.readDigits 10 digits
  if (digits.head?.map Char.isDigit).getD false && (rest.dropWhile isBlank).isEmpty then
    .ok (if negated then -(value : Int) else value)
  else .error ("Illegal number: " ++ word)

/-- What stands at a path of a script. -/
def entryAt? (tree : FileTree) (path : String) : Option Entry :=
  if path = "" then none
  else if path = "/dev/null" then some (.file (.plain ""))
  else (tree.find? (.ofText (Octets.decode path))).toOption.join

/-- A condition about one word. -/
def testUnary (tree : FileTree) (sign word : String) : Bool :=
  match sign, entryAt? tree word with
  | "-n", _ => word ≠ ""
  | "-z", _ => word = ""
  | "-d", entry => entry == some .directory
  | "-s", some (.file content) => fileText content ≠ ""
  | "-x", entry => entry == some .directory
  | "-f", some (.file _) => word ≠ "/dev/null"
  | "-c", some (.file _) => word = "/dev/null"
  | _, some entry => ["-e", "-r", "-w", "-O", "-G"].contains sign ||
      (sign = "-s" && entry == .directory)
  | _, none => false

/-- A condition about two words. -/
def testBinary (sign left right : String) : Except String Bool :=
  let compare (test : Int → Int → Bool) : Except String Bool := do
    return test (← conditionNumber left) (← conditionNumber right)
  match sign with
  | "=" => .ok (left = right)
  | "!=" => .ok (left ≠ right)
  | "<" => .ok (left < right)
  | ">" => .ok (right < left)
  | "-eq" => compare (· == ·)
  | "-ne" => compare (· != ·)
  | "-gt" => compare fun a b => b < a
  | "-ge" => compare fun a b => b ≤ a
  | "-lt" => compare fun a b => a < b
  | "-le" => compare fun a b => a ≤ b
  | "-ef" => .ok (left = right)
  | _ => .ok false

mutual

/-- Tests conditions joined by or: the result, and the words from the last one used on. -/
def testAny (tree : FileTree) : Nat → List String → Except String (Bool × List String)
  | 0, words => .ok (false, words)
  | n + 1, words => do
    let (result, words) ← testAll tree n words
    if signOf (words.drop 1) = .or then
      let (other, words) ← testAny tree n (words.drop 2)
      return (result || other, words)
    else return (result, words)

/-- Tests conditions joined by and. -/
def testAll (tree : FileTree) : Nat → List String → Except String (Bool × List String)
  | 0, words => .ok (false, words)
  | n + 1, words => do
    let (result, words) ← testNot tree n words
    if signOf (words.drop 1) = .and then
      let (other, words) ← testAll tree n (words.drop 2)
      return (result && other, words)
    else return (result, words)

/-- Tests a condition that may be denied. -/
def testNot (tree : FileTree) : Nat → List String → Except String (Bool × List String)
  | 0, words => .ok (false, words)
  | n + 1, words => do
    if signOf words = .not then
      let rest := if words.length ≤ 1 then words else words.drop 1
      if words.length ≤ 1 then return (true, rest)
      let (result, words) ← testNot tree n rest
      return (!result, words)
    else testOne tree n words

/-- Tests a condition without joining signs. -/
def testOne (tree : FileTree) : Nat → List String → Except String (Bool × List String)
  | 0, words => .ok (false, words)
  | n + 1, words => do
    match signOf words, words with
    | .nothing, _ => return (false, words)
    | .opening, _ :: rest =>
      if signOf rest = .closing then return (false, rest)
      let (result, rest) ← testAny tree n rest
      if signOf (rest.drop 1) = .closing then return (result, rest.drop 1)
      else throw "closing paren expected"
    | .unary, sign :: word :: rest => return (testUnary tree sign word, word :: rest)
    | .unary, sign :: [] => throw (sign ++ ": argument expected")
    | _, left :: sign :: rest =>
      if signOf (sign :: rest) = .binary then
        match rest with
        | right :: after => return (← testBinary sign left right, right :: after)
        | [] => throw (sign ++ ": argument expected")
      else return (left ≠ "", words)
    | _, word :: [] => return (word ≠ "", words)
    | _, [] => return (false, words)

end

/-- Tests a condition. -/
def testCondition (tree : FileTree) (words : List String) : Except String Bool :=
  let whole (words : List String) : Except String Bool := do
    let (result, rest) ← testAny tree (8 * (words.length + 2)) words
    match rest with
    | word :: _ :: _ => throw (word ++ ": unexpected operator")
    | _ => return result
  match words with
  | [left, sign, right] =>
    if binarySigns.contains sign then testBinary sign left right
    else if left = "(" ∧ right = ")" then whole [sign]
    else if left = "!" then (whole [sign, right]).map not
    else whole words
  | ["(", first, second, ")"] => whole [first, second]
  | ["!", first, second, third] =>
    if binarySigns.contains second then (testBinary second first third).map not
    else (whole [first, second, third]).map not
  | words => whole words

end GrammarChart.Tool.Shell
