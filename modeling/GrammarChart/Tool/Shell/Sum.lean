import GrammarChart.Tool.Script.Basic

/-!
# Sums

The whole numbers that a script reckons with. A sum is read from its signs by the precedence of
its operators and then evaluated; names stand for variables, and an assignment inside a sum is a
result besides its value. Numbers have 64 bits and go round at their ends.
-/

set_option autoImplicit false

namespace GrammarChart.Tool.Shell

/-- A sum. -/
inductive Sum where
  | number (value : Int)
  | named (name : String)
  | unary (operator : String) (operand : Sum)
  | binary (operator : String) (left right : Sum)
  | choice (condition first second : Sum)
  | assignment (name operator : String) (value : Sum)
  deriving Repr

/-- A sign of a sum. -/
inductive Sign where
  | number (value : Nat)
  | name (name : String)
  | operator (text : String)
  deriving DecidableEq, Repr

namespace Sum

/-- The operators between two numbers, the loosest ones first. -/
def levels : List (List String) :=
  [["||"], ["&&"], ["|"], ["^"], ["&"], ["==", "!="], ["<=", ">=", "<", ">"], ["<<", ">>"],
    ["+", "-"], ["*", "/", "%"]]

/-- The operators that assign. -/
def assigning : List String :=
  ["=", "+=", "-=", "*=", "/=", "%=", "<<=", ">>=", "&=", "^=", "|="]

/-- The operators, in the order in which they are tried. -/
def operators : List String :=
  ["<<=", ">>=", "<<", ">>", "<=", ">=", "==", "!=", "&&", "||", "+=", "-=", "*=", "/=", "%=",
    "&=", "^=", "|=", "+", "-", "*", "/", "%", "<", ">", "=", "&", "|", "^", "!", "~", "?", ":",
    "(", ")"]

/-- The value of a digit in a base. -/
def digit? (base : Nat) (c : Char) : Option Nat :=
  let value :=
    if c.isDigit then c.toNat - 48
    else if 'a' ≤ c ∧ c ≤ 'z' then c.toNat - 87
    else if 'A' ≤ c ∧ c ≤ 'Z' then c.toNat - 55
    else base
  if value < base then some value else none

/-- The number that digits in a base make up. -/
def numberOf (base : Nat) (digits : List Char) : Nat :=
  digits.foldl (fun value c => value * base + (digit? base c).getD 0) 0

/-- The digits of a base at the start of a text, as a number, and what comes after them. -/
def readDigits (base : Nat) (text : List Char) : Nat × List Char :=
  let isDigit (c : Char) : Bool := (digit? base c).isSome
  (numberOf base (text.takeWhile isDigit), text.dropWhile isDigit)

/-- Reads a number, whose first digits may tell its base. -/
def readNumber (text : List Char) : Nat × List Char :=
  match text with
  | '0' :: x :: c :: rest =>
    if (x == 'x' || x == 'X') && (digit? 16 c).isSome then readDigits 16 (c :: rest)
    else readDigits 8 text
  | '0' :: _ => readDigits 8 text
  | _ => readDigits 10 text

/-- The signs of a text, at most as many as the given number of steps. A character without a
meaning is a sign that no sum contains. -/
def signs : Nat → List Char → List Sign
  | n + 1, c :: rest =>
    if c == ' ' || c == '\t' || c == '\n' then signs n rest
    else if c.isDigit then
      let (value, after) := readNumber (c :: rest)
      .number value :: signs n after
    else if startsName c then
      .name (String.ofList (c :: rest.takeWhile inName)) :: signs n (rest.dropWhile inName)
    else
      let found := operators.find? fun operator => operator.toList.isPrefixOf (c :: rest)
      let sign := found.getD c.toString
      .operator sign :: signs n ((c :: rest).drop sign.length)
  | _, _ => []

mutual

/-- Reads a sum or an assignment. -/
def readFull : Nat → List Sign → Except String (Sum × List Sign)
  | 0, _ => .error "expecting primary"
  | n + 1, signs =>
    match signs with
    | .name name :: .operator operator :: rest =>
      if assigning.contains operator then do
        let (value, rest) ← readFull n rest
        return (.assignment name operator value, rest)
      else readChoice n signs
    | _ => readChoice n signs

/-- Reads a sum or a choice between two. -/
def readChoice : Nat → List Sign → Except String (Sum × List Sign)
  | 0, _ => .error "expecting primary"
  | n + 1, signs => do
    let (condition, rest) ← readLevel n levels signs
    match rest with
    | .operator "?" :: rest =>
      let (first, rest) ← readFull n rest
      match rest with
      | .operator ":" :: rest =>
        let (second, rest) ← readChoice n rest
        return (.choice condition first second, rest)
      | _ => throw "expecting \x27:\x27"
    | _ => return (condition, rest)

/-- Reads a sum with operators of the given levels. -/
def readLevel : Nat → List (List String) → List Sign → Except String (Sum × List Sign)
  | 0, _, _ => .error "expecting primary"
  | n + 1, [], signs => readPrimary n signs
  | n + 1, level :: tighter, signs => do
    let (left, rest) ← readLevel n tighter signs
    readOperands n level tighter left rest

/-- Reads the operands that follow one at its level. -/
def readOperands : Nat → List String → List (List String) → Sum → List Sign →
    Except String (Sum × List Sign)
  | 0, _, _, _, _ => .error "expecting primary"
  | n + 1, level, tighter, left, signs => do
    match signs with
    | .operator operator :: rest =>
      if level.contains operator then
        let (right, rest) ← readLevel n tighter rest
        readOperands n level tighter (.binary operator left right) rest
      else return (left, signs)
    | _ => return (left, signs)

/-- Reads a sum that binds most tightly. -/
def readPrimary : Nat → List Sign → Except String (Sum × List Sign)
  | 0, _ => .error "expecting primary"
  | n + 1, signs =>
    match signs with
    | .number value :: rest => .ok (.number value, rest)
    | .name name :: rest => .ok (.named name, rest)
    | .operator "(" :: rest => do
      let (inner, rest) ← readFull n rest
      match rest with
      | .operator ")" :: rest => return (inner, rest)
      | _ => throw "expecting \x27)\x27"
    | .operator operator :: rest =>
      if ["+", "-", "!", "~"].contains operator then do
        let (operand, rest) ← readPrimary n rest
        return (.unary operator operand, rest)
      else .error "expecting primary"
    | [] => .error "expecting primary"

end

/-- Reads a sum from a text. -/
def read (text : String) : Except String Sum := do
  match signs (text.length + 1) text.toList with
  | [] => return .number 0
  | signs =>
    let (sum, rest) ← readFull (16 * (signs.length + 4)) signs
    if rest.isEmpty then return sum else throw "expecting EOF"

/-- A number brought into the range of 64 bits. -/
def wrap (value : Int) : Int :=
  (value + 9223372036854775808) % 18446744073709551616 - 9223372036854775808

/-- The number of a truth value. -/
def ofBool (value : Bool) : Int := if value then 1 else 0

/-- The bits of a number. -/
def bits (value : Int) : BitVec 64 := BitVec.ofInt 64 value

/-- Joins two numbers; nothing when a number is divided by nothing. -/
def apply (operator : String) (a b : Int) : Option Int :=
  match operator with
  | "+" => some (wrap (a + b))
  | "-" => some (wrap (a - b))
  | "*" => some (wrap (a * b))
  | "/" => if b = 0 then none else some (wrap (a.tdiv b))
  | "%" => if b = 0 then none else some (a.tmod b)
  | "==" => some (ofBool (a = b))
  | "!=" => some (ofBool (a ≠ b))
  | "<=" => some (ofBool (a ≤ b))
  | ">=" => some (ofBool (b ≤ a))
  | "<" => some (ofBool (a < b))
  | ">" => some (ofBool (b < a))
  | "<<" => some (bits a <<< (b % 64).toNat).toInt
  | ">>" => some ((bits a).sshiftRight (b % 64).toNat).toInt
  | "&" => some (bits a &&& bits b).toInt
  | "^" => some (bits a ^^^ bits b).toInt
  | "|" => some (bits a ||| bits b).toInt
  | _ => some b

/-- Applies an operator to one number. -/
def applyUnary (operator : String) (a : Int) : Int :=
  match operator with
  | "-" => wrap (-a)
  | "!" => ofBool (a = 0)
  | "~" => -a - 1
  | _ => a

/-- Why a sum has no value. -/
inductive Problem where
  | division
  | badNumber (text : String)
  deriving DecidableEq, Repr

/-- The number that the text of a variable stands for. -/
def ofText (text : String) : Except Problem Int :=
  let isBlank (c : Char) : Bool := c == ' ' || c == '\t' || c == '\n'
  let trimmed := text.toList.dropWhile isBlank
  let (negated, digits) := match trimmed with
    | '-' :: rest => (true, rest)
    | '+' :: rest => (false, rest)
    | rest => (false, rest)
  let (value, rest) := readNumber digits
  if trimmed.isEmpty then .ok 0
  else if (digits.head?.map Char.isDigit).getD false && (rest.dropWhile isBlank).isEmpty then
    .ok (max (min (if negated then -(value : Int) else value) 9223372036854775807)
      (-9223372036854775808))
  else .error (.badNumber text)

/-- The variables that were assigned to, the last ones first. -/
abbrev Assigned := List (String × Int)

/-- The value of a variable. -/
def variableValue (outer : String → Option String) (assigned : Assigned) (name : String) :
    Except Problem Int :=
  match assigned.lookup name with
  | some value => .ok value
  | none => ofText ((outer name).getD "")

/-- The value of a sum, where the values of variables are given, and what it assigned. -/
def evaluate (outer : String → Option String) : Sum → Assigned → Except Problem (Int × Assigned)
  | .number value, assigned => .ok (wrap value, assigned)
  | .named name, assigned => do return (← variableValue outer assigned name, assigned)
  | .unary operator operand, assigned => do
    let (value, assigned) ← evaluate outer operand assigned
    return (applyUnary operator value, assigned)
  | .binary operator left right, assigned => do
    let (a, assigned) ← evaluate outer left assigned
    if operator = "||" ∧ a ≠ 0 then return (1, assigned)
    if operator = "&&" ∧ a = 0 then return (0, assigned)
    let (b, assigned) ← evaluate outer right assigned
    if operator = "||" ∨ operator = "&&" then return (ofBool (b ≠ 0), assigned)
    match apply operator a b with
    | some value => return (value, assigned)
    | none => throw .division
  | .choice condition first second, assigned => do
    let (value, assigned) ← evaluate outer condition assigned
    if value ≠ 0 then evaluate outer first assigned else evaluate outer second assigned
  | .assignment name operator value, assigned => do
    let (value, assigned) ← evaluate outer value assigned
    if operator = "=" then return (value, (name, value) :: assigned)
    let before ← variableValue outer assigned name
    match apply (String.ofList operator.toList.dropLast) before value with
    | some value => return (value, (name, value) :: assigned)
    | none => throw .division

/-- The value of the sum in a text and what it assigned, or the message of a refusal. -/
def valueOf (outer : String → Option String) (text : String) : Except String (Int × Assigned) :=
  let told (message : String) : String :=
    "arithmetic expression: " ++ message ++ ": \x22" ++ text ++ "\x22"
  match read text with
  | .error message => .error (told message)
  | .ok sum =>
    match evaluate outer sum [] with
    | .ok result => .ok result
    | .error .division => .error (told "division by zero")
    | .error (.badNumber letters) => .error ("Illegal number: " ++ letters)

end Sum
end GrammarChart.Tool.Shell
