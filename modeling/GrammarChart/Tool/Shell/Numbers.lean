import GrammarChart.Tool.Regular.Reading
import GrammarChart.Tool.Shell.Utilities

/-!
# Numbers and time

The utilities that write sequences of numbers, compute with words, and let time go by.
-/

set_option autoImplicit false

namespace GrammarChart.Tool.Shell

/-- The milliseconds that a text stands for. Nothing stands for no time; for ever is a number of
milliseconds that is not given. -/
def duration? (text : String) : Option (Option Nat) :=
  let whole := text.toList.takeWhile Char.isDigit
  let rest := text.toList.drop whole.length
  let (places, rest) := match rest with
    | '.' :: rest => (rest.takeWhile Char.isDigit, rest.dropWhile Char.isDigit)
    | rest => ([], rest)
  let unit? := match rest with
    | [] => some 1
    | ['s'] => some 1
    | ['m'] => some 60
    | ['h'] => some 3600
    | ['d'] => some 86400
    | _ => none
  if text = "infinity" ∨ text = "inf" then some none
  else if whole.isEmpty && places.isEmpty then none
  else unit?.map fun unit =>
    let digits := Sum.numberOf 10 (whole ++ (places ++ ['0', '0', '0']).take 3)
    some (digits * unit)

/-- Lets time go by. -/
def sleep (words : List String) : Eval Nat :=
  withGiven "sleep" ⟨[], [], [], []⟩ words fun given => do
    if given.operands.isEmpty then misuse "sleep" "missing operand"
    else match given.operands.find? fun word => (duration? word).isNone with
      | some word => misuse "sleep" ("invalid time interval " ++ inCurlyMarks word)
      | none =>
        given.operands.forM fun word =>
          match duration? word with
          | some (some time) => do
            let machine ← get
            set { machine with clock := machine.clock + time }
            if machine.deadline.any (· < machine.clock + time) then throw .endless
          | _ => throw .endless
        return 0

namespace Sequence

/-- A number with places: all its digits, and how many of them are places. -/
structure Placed where
  digits : Int
  places : Nat

/-- The number that a text stands for. -/
def read? (text : String) : Option Placed :=
  let (isNegative, rest) := match text.toList with
    | '-' :: rest => (true, rest)
    | '+' :: rest => (false, rest)
    | rest => (false, rest)
  let whole := rest.takeWhile Char.isDigit
  let places := match rest.drop whole.length with
    | '.' :: rest => some rest
    | [] => some []
    | _ => none
  match places with
  | some places =>
    if (whole ++ places).isEmpty || !places.all Char.isDigit then none
    else
      let value := Sum.numberOf 10 (whole ++ places)
      some ⟨if isNegative then -(value : Int) else value, places.length⟩
  | none => none

/-- The digits of a number that has so many places. -/
def Placed.scaled (number : Placed) (places : Nat) : Int :=
  number.digits * (Sum.numberOf 10 ('1' :: List.replicate (places - number.places) '0') : Nat)

/-- The text of a number with so many places. -/
def shown (places : Nat) (number : Int) : String :=
  let digits := toString number.natAbs
  let digits := String.ofList (List.replicate (places + 1 - digits.length) '0') ++ digits
  let whole := digits.toList.take (digits.length - places)
  let part := digits.toList.drop (digits.length - places)
  (if number < 0 then "-" else "") ++ String.ofList whole ++
    (if places = 0 then "" else "." ++ String.ofList part)

/-- A text with zeros in front, up to a width. -/
def filled (width : Nat) (text : String) : String :=
  let (sign, digits) := match text.toList with
    | '-' :: rest => (['-'], rest)
    | rest => ([], rest)
  String.ofList (sign ++ List.replicate (width - text.length) '0' ++ digits)

/-- The words, with a mark before the first number among them, so that its sign is no option. -/
def marked : List String → List String
  | [] => []
  | word :: rest =>
    if (read? word).isSome then "--" :: word :: rest else word :: marked rest

end Sequence

open Sequence in
/-- Writes a sequence of numbers. -/
def sequence (words : List String) : Eval Nat :=
  let known : Known := ⟨['w'], ['s', 'f'], [],
    [("separator", 's'), ("equal-width", 'w'), ("format", 'f')]⟩
  withGiven "seq" known (Sequence.marked words) fun given => do
    let words := given.operands
    match words.find? fun word => (read? word).isNone, words.filterMap read?, words with
    | some word, _, _ =>
      misuse "seq" ("invalid floating point argument: " ++ inCurlyMarks word)
    | none, _, [] => misuse "seq" "missing operand"
    | none, _, _ :: _ :: _ :: extra :: _ => misuse "seq" ("extra operand " ++ inCurlyMarks extra)
    | none, numbers, _ =>
      let one : Placed := ⟨1, 0⟩
      let (first, step, last) := match numbers with
        | [last] => (one, one, last)
        | [first, last] => (first, one, last)
        | first :: step :: last :: _ => (first, step, last)
        | [] => (one, one, one)
      if step.digits = 0 then
        misuse "seq" ("invalid Zero increment value: " ++ inCurlyMarks ((words[1]?).getD ""))
      else
        let places := max first.places step.places
        let scale := max places last.places
        let (start, width, stop) := (first.scaled scale, step.scaled scale, last.scaled scale)
        let count := ((stop - start) / width + 1).toNat
        let unit : Int := (Sum.numberOf 10 ('1' :: List.replicate (scale - places) '0') : Nat)
        let texts := (List.range count).map fun (k : Nat) =>
          shown places ((start + width * k) / unit)
        let longest := (texts.map String.length).foldl max 0
        let texts := if given.has 'w' then texts.map (filled longest) else texts
        let mark := (given.value? 's').getD "\n"
        if !texts.isEmpty then write 1 (mark.intercalate texts ++ "\n")
        return 0

/-- A computation with words. -/
inductive Formula where
  | word (text : String)
  | apply (operator : String) (left right : Formula)
  | length (text : Formula)
  | part (text first size : Formula)
  | index (text set : Formula)
  deriving Repr

namespace Formula

/-- The operators of a level, from those that bind least. -/
def operators : Nat → List String
  | 0 => ["|"]
  | 1 => ["&"]
  | 2 => ["<", "<=", "=", "==", "!=", ">=", ">"]
  | 3 => ["+", "-"]
  | 4 => ["*", "/", "%"]
  | 5 => [":"]
  | _ => []

/-- The complaint that words are missing. -/
def missing (all rest : List String) : String :=
  "syntax error: missing argument after " ++
    inCurlyMarks ((all[all.length - rest.length - 1]?).getD "")

/-- Reads a formula of a level, in at most the given number of steps; its first operand may have
been read. -/
def read (all : List String) :
    Nat → Nat → Option Formula → List String → Except String (Formula × List String)
  | 0, _, _, rest => .error (missing all rest)
  | n + 1, level, some left, words =>
    match words with
    | operator :: rest =>
      if (operators level).contains operator then
        match read all n (level + 1) none rest with
        | .ok (right, rest) => read all n level (some (.apply operator left right)) rest
        | .error message => .error message
      else .ok (left, words)
    | [] => .ok (left, [])
  | n + 1, level, none, words =>
    if level < 6 then
      match read all n (level + 1) none words with
      | .ok (left, rest) => read all n level (some left) rest
      | .error message => .error message
    else match words with
      | [] => .error (missing all [])
      | "(" :: rest =>
        match read all n 0 none rest with
        | .ok (inner, ")" :: rest) => .ok (inner, rest)
        | .ok (_, []) =>
          .error ("syntax error: expecting \x27)\x27 after " ++ inCurlyMarks (all.getLastD ""))
        | .ok (_, next :: _) =>
          .error ("syntax error: expecting \x27)\x27 instead of " ++ inCurlyMarks next)
        | .error message => .error message
      | [")"] => .error ("syntax error: unexpected \x27)\x27")
      | "+" :: next :: rest => .ok (.word next, rest)
      | "+" :: [] => .error (missing all [])
      | "length" :: rest =>
        (read all n 6 none rest).map fun (text, rest) => (.length text, rest)
      | "match" :: rest =>
        match read all n 6 none rest with
        | .error message => .error message
        | .ok (text, rest) =>
          (read all n 6 none rest).map fun (pattern, rest) => (.apply ":" text pattern, rest)
      | "index" :: rest =>
        match read all n 6 none rest with
        | .error message => .error message
        | .ok (text, rest) =>
          (read all n 6 none rest).map fun (set, rest) => (.index text set, rest)
      | "substr" :: rest =>
        match read all n 6 none rest with
        | .error message => .error message
        | .ok (text, rest) =>
          match read all n 6 none rest with
          | .error message => .error message
          | .ok (first, rest) =>
            (read all n 6 none rest).map fun (size, rest) => (.part text first size, rest)
      | next :: rest => .ok (.word next, rest)

/-- The whole number that a text stands for. -/
def number? (text : String) : Option Int :=
  match text.toList with
  | '-' :: c :: rest =>
    if (c :: rest).all Char.isDigit then some (-(Sum.numberOf 10 (c :: rest) : Int)) else none
  | c :: rest =>
    if (c :: rest).all Char.isDigit then some (Sum.numberOf 10 (c :: rest) : Int) else none
  | [] => none

/-- The text counts as nothing: it is empty or zero. -/
def isNull (text : String) : Bool := text = "" || number? text = some 0

/-- A truth value. -/
def truth (b : Bool) : String := if b then "1" else "0"

/-- What a pattern takes at the start of a text: its first group, or how much it is. -/
def matched (text pattern : String) : Except String String :=
  match Regular.parse ⟨false, false⟩ (Octets.decode pattern).toList with
  | .error problem => .error problem.message
  | .ok (regular, groups, _) =>
    let subject : Subject := ⟨(Octets.decode text).toList.toArray, false, false⟩
    let found := (regular.ends subject regular.looksBack ⟨0, []⟩).head?
    .ok <|
      if groups = 0 then toString ((found.map Found.place).getD 0)
      else match found.bind fun found => found.groups.lookup 1 with
        | some (first, last) => Octets.encode (String.ofList (subject.slice first last))
        | none => ""

/-- The value of a formula. -/
def value : Formula → Except String String
  | .word text => .ok text
  | .length text => do return toString (Octets.decode (← text.value)).length
  | .part text first size => do
    let letters := (Octets.decode (← text.value)).toList
    let first := number? (← first.value)
    let size := number? (← size.value)
    match first, size with
    | some first, some size =>
      if first ≤ 0 ∨ size ≤ 0 then return ""
      let kept := (letters.drop (first.toNat - 1)).take size.toNat
      return Octets.encode (String.ofList kept)
    | _, _ => return ""
  | .index text set => do
    let letters := (Octets.decode (← text.value)).toList
    let set := (Octets.decode (← set.value)).toList
    return toString (((letters.findIdx? set.contains).map (· + 1)).getD 0)
  | .apply operator left right => do
    let a ← left.value
    if operator = "|" then
      if !isNull a then return a
      let b ← right.value
      return if isNull b then "0" else b
    if operator = "&" then
      if isNull a then return "0"
      let b ← right.value
      return if isNull b then "0" else a
    let b ← right.value
    if operator = ":" then return ← matched a b
    if (operators 2).contains operator then
      let order := match number? a, number? b with
        | some a, some b => compare a b
        | _, _ => compare a b
      return truth <| match operator with
        | "<" => order == .lt
        | "<=" => order != .gt
        | "!=" => order != .eq
        | ">=" => order != .lt
        | ">" => order == .gt
        | _ => order == .eq
    match number? a, number? b with
    | some a, some b =>
      match operator with
      | "+" => return toString (a + b)
      | "-" => return toString (a - b)
      | "*" => return toString (a * b)
      | _ =>
        if b = 0 then throw "division by zero"
        return toString (if operator = "/" then a.tdiv b else a.tmod b)
    | _, _ => throw "non-integer argument"

end Formula

/-- Computes with words. -/
def expr (words : List String) : Eval Nat := do
  let fault (message : String) : Eval Nat := do
    utilityComplain "expr" message
    return 2
  let words := if words.head? = some "--" then words.drop 1 else words
  if words.isEmpty then misuseWith 2 "expr" "missing operand"
  else match Formula.read words (20 * (words.length + 1)) 0 none words with
    | .error message => fault message
    | .ok (_, word :: _) => fault ("syntax error: unexpected argument " ++ inCurlyMarks word)
    | .ok (formula, []) =>
      match formula.value with
      | .error message => fault message
      | .ok text =>
        write 1 (text ++ "\n")
        return if Formula.isNull text then 1 else 0

end GrammarChart.Tool.Shell
