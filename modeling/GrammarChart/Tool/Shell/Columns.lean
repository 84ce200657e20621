import GrammarChart.Tool.Shell.Utilities

/-!
# Columns and characters

The utilities that cut fields out of lines, put lines side by side, and replace characters.
-/

set_option autoImplicit false

namespace GrammarChart.Tool.Shell

namespace Cutting

/-- The numbers between two bounds; the last one may be open. -/
abbrev Bounds := Nat × Option Nat

/-- Reads bounds. What is wrong is told with what is numbered. -/
def boundsOf (isField : Bool) (text : List Char) : Except String Bounds :=
  let number (digits : List Char) : Nat := Sum.numberOf 10 digits
  let isNumber (digits : List Char) : Bool := digits.all Char.isDigit
  let kind := if isField then "field value " else "byte/character position "
  let unnumbered := (if isField then "fields" else "byte/character positions") ++
    " are numbered from 1"
  match text.splitOn '-' with
  | [single] =>
    if single.isEmpty || (isNumber single && number single = 0) then .error unnumbered
    else if isNumber single then .ok (number single, some (number single))
    else .error ("invalid " ++ kind ++ inCurlyMarks (String.ofList single))
  | [first, last] =>
    if first.isEmpty && last.isEmpty then .error "invalid range with no endpoint: -"
    else if !isNumber first then
      .error ("invalid " ++ kind ++ inCurlyMarks (String.ofList first))
    else if !isNumber last then
      .error ("invalid " ++ kind ++ inCurlyMarks (String.ofList last))
    else if !first.isEmpty && number first = 0 then .error unnumbered
    else
      let start := if first.isEmpty then 1 else number first
      if last.isEmpty then .ok (start, none)
      else if number last < start then .error "invalid decreasing range"
      else .ok (start, some (number last))
  | _ => .error ("invalid " ++ (if isField then "field range" else "byte or character range"))

/-- Bounds that lie in a list. -/
def listOf (isField : Bool) (text : String) : Except String (List Bounds) :=
  (text.toList.splitOnP fun c => c == ',' || c == ' ').mapM (boundsOf isField)

/-- A number lies in a list of bounds. -/
def isIn (bounds : List Bounds) (number : Nat) : Bool :=
  bounds.any fun (first, last) => first ≤ number && last.all (number ≤ ·)

/-- The elements whose numbers are chosen. -/
def chosen {α : Type} (isChosen : Nat → Bool) (elements : List α) : List α :=
  (elements.zipIdx.filter fun (_, k) => isChosen (k + 1)).map Prod.fst

end Cutting

/-- Cuts fields or characters out of lines. -/
def cut (words : List String) : Eval Nat :=
  let known : Known := ⟨"sznX".toList, "fcbdO".toList, [],
    [("fields", 'f'), ("characters", 'c'), ("bytes", 'b'), ("delimiter", 'd'),
      ("only-delimited", 's'), ("output-delimiter", 'O'), ("complement", 'X')]⟩
  withGiven "cut" known words fun given => do
    let lists := given.options.filter fun option => ['f', 'c', 'b'].contains option.1
    let delimiter := (given.value? 'd').getD "\t"
    match lists with
    | [] => misuse "cut" "you must specify a list of bytes, characters, or fields"
    | _ :: _ :: _ => misuse "cut" "only one list may be specified"
    | [(letter, text)] =>
      let isField := letter = 'f'
      if 1 < (Octets.decode delimiter).length then
        misuse "cut" "the delimiter must be a single character"
      else if given.has 'd' && !isField then
        misuse "cut" "an input delimiter may be specified only when operating on fields"
      else if given.has 's' && !isField then
        misuse "cut" ("suppressing non-delimited lines makes sense\n\t" ++
          "only when operating on fields")
      else match Cutting.listOf isField text with
        | .error message => misuse "cut" message
        | .ok bounds =>
          let (texts, isGood) ← readFiles "cut" given.operands
          let isChosen (number : Nat) : Bool := Cutting.isIn bounds number != given.has 'X'
          let mark := (delimiter.toList.head?).getD '\x00'
          let joint := ((given.value? 'O').map String.toList).getD [mark]
          let cutLine (line : List Char) : Option (List Char) :=
            if isField then
              let fields := line.splitOn mark
              if fields.length = 1 then (if given.has 's' then none else some line)
              else some (joint.intercalate (Cutting.chosen isChosen fields))
            else some (Cutting.chosen isChosen line)
          writeLines (texts.flatMap fun (_, text) =>
            ((linesOf text.toList).map lineText).filterMap cutLine)
          return statusOf [isGood]

namespace Pasting

/-- The marks between columns, with their escapes replaced. -/
def marksOf : List Char → List (List Char)
  | '\\' :: 'n' :: rest => ['\n'] :: marksOf rest
  | '\\' :: 't' :: rest => ['\t'] :: marksOf rest
  | '\\' :: '0' :: rest => [] :: marksOf rest
  | '\\' :: c :: rest => [c] :: marksOf rest
  | c :: rest => [c] :: marksOf rest
  | [] => []

/-- Texts with marks between them, which are used one after the other, again and again. -/
def joined (marks : List (List Char)) (texts : List (List Char)) : List Char :=
  (texts.zipIdx.map fun (text, k) =>
    (if k = 0 then [] else (marks[(k - 1) % max marks.length 1]?).getD []) ++ text).flatten

/-- Lists of lines for columns that read the input in turn. -/
def dealt (columns : Nat) (lines : List (List Char)) (column : Nat) : List (List Char) :=
  (lines.zipIdx.filter fun (_, k) => k % columns = column).map Prod.fst

end Pasting

/-- Puts lines of files side by side, or the lines of each file. -/
def paste (words : List String) : Eval Nat :=
  let known : Known := ⟨['s', 'z'], ['d'], [], [("serial", 's'), ("delimiters", 'd')]⟩
  withGiven "paste" known words fun given => do
    let marks := Pasting.marksOf ((given.value? 'd').getD "\t").toList
    let paths := if given.operands.isEmpty then ["-"] else given.operands
    let shared := paths.count "-"
    let input ← if shared = 0 then pure "" else readInput
    let lines (text : String) : List (List Char) := (linesOf text.toList).map lineText
    let found ← paths.zipIdx.mapM fun (path, k) => do
      if path = "-" then
        if given.has 's' then
          return some (if (paths.take k).contains "-" then [] else lines input)
        else return some (Pasting.dealt shared (lines input) ((paths.take k).count "-"))
      return (← readOrComplain "paste" path).map lines
    let columns := found.filterMap id
    if given.has 's' then
      writeLines (columns.map (Pasting.joined marks))
    else if found.all Option.isSome then
      let height := (columns.map List.length).foldl max 0
      writeLines ((List.range height).map fun row =>
        Pasting.joined marks (columns.map fun column => (column[row]?).getD []))
    return statusOf (found.map Option.isSome)

namespace Replacing

/-- A piece of a set of characters: characters, or one that is repeated; as often as needed if no
number is given. -/
inductive Piece where
  | letters (letters : List Char)
  | filled (c : Char) (count : Option Nat)

/-- Reads a character, which an escape may stand for. -/
def readLetter : List Char → Option (Char × List Char)
  | '\\' :: c :: rest =>
    let digits := ((c :: rest).take 3).takeWhile fun c => '0' ≤ c && c ≤ '7'
    if !digits.isEmpty then
      some (Char.ofNat (Sum.numberOf 8 digits % 256), (c :: rest).drop digits.length)
    else
      let named := [('a', '\x07'), ('b', '\x08'), ('f', '\x0c'), ('n', '\n'), ('r', '\r'),
        ('t', '\t'), ('v', '\x0b')]
      some ((named.lookup c).getD c, rest)
  | c :: rest => some (c, rest)
  | [] => none

/-- Reads a class of characters, or a repeated one, after its opening bracket. -/
def readBracket? (text : List Char) : Option (Except String (Piece × List Char)) :=
  match text with
  | ':' :: rest =>
    let name := rest.takeWhile (· != ':')
    match rest.drop name.length with
    | ':' :: ']' :: rest =>
      match characterClasses.lookup (String.ofList name) with
      | some test =>
        let all := (List.range 256).map Char.ofNat
        some (.ok (.letters (all.filter fun c => c.toNat < 128 && test c), rest))
      | none =>
        some (.error ("invalid character class " ++ inCurlyMarks (String.ofList name)))
    | _ => none
  | '=' :: c :: '=' :: ']' :: rest => some (.ok (.letters [c], rest))
  | _ =>
    match readLetter text with
    | some (c, '*' :: rest) =>
      let digits := rest.takeWhile Char.isDigit
      match rest.drop digits.length with
      | ']' :: rest =>
        let base := if digits.head? = some '0' then 8 else 10
        let number := Sum.numberOf base digits
        some (.ok (.filled c (if number = 0 then none else some number), rest))
      | _ => none
    | _ => none

/-- Reads the pieces of a set, in at most the given number of steps. -/
def readPieces : Nat → List Char → Except String (List Piece)
  | 0, _ => .ok []
  | _, [] => .ok []
  | n + 1, c :: rest =>
    match if c == '[' then readBracket? rest else none with
    | some (.ok (piece, rest)) => (readPieces n rest).map (piece :: ·)
    | some (.error message) => .error message
    | none =>
      match readLetter (c :: rest) with
      | none => .ok []
      | some (first, '-' :: d :: rest) =>
        match readLetter (d :: rest) with
        | none => .ok []
        | some (last, rest) =>
          if last < first then
            .error ("range-endpoints of \x27" ++ first.toString ++ "-" ++ last.toString ++
              "\x27 are in reverse collating sequence order")
          else
            let letters := (List.range (last.toNat + 1 - first.toNat)).map fun k =>
              Char.ofNat (first.toNat + k)
            (readPieces n rest).map (.letters letters :: ·)
      | some (c, rest) => (readPieces n rest).map (.letters [c] :: ·)

/-- The characters of a set that is to have the given number of them if it can. -/
def spelled (pieces : List Piece) (wanted : Nat) : List Char :=
  let sized (piece : Piece) : Nat := match piece with
    | .letters letters => letters.length
    | .filled _ count => count.getD 0
  let size := (pieces.map sized).foldl (· + ·) 0
  pieces.flatMap fun piece => match piece with
    | .letters letters => letters
    | .filled c count => List.replicate (count.getD (wanted - size)) c

/-- Leaves one of neighbours that are equal and in a set. -/
def squeeze (isIn : Char → Bool) : List Char → List Char
  | a :: b :: rest =>
    if a == b && isIn a then squeeze isIn (b :: rest) else a :: squeeze isIn (b :: rest)
  | rest => rest

end Replacing

open Replacing in
/-- Replaces or removes characters. -/
def replaceLetters (words : List String) : Eval Nat :=
  let known : Known := ⟨"cCdst".toList, [], [],
    [("complement", 'c'), ("delete", 'd'), ("squeeze-repeats", 's'), ("truncate-set1", 't')]⟩
  withGiven "tr" known words fun given => do
    let removes := given.has 'd'
    let squeezes := given.has 's'
    let isTurned := given.has 'c' || given.has 'C'
    let least := if removes != squeezes then 1 else 2
    let most := if removes && !squeezes then 1 else 2
    match given.operands with
    | [] => misuse "tr" "missing operand"
    | words =>
      if words.length < least then
        misuse "tr" ("missing operand after " ++ inCurlyMarks (words.headD "") ++
          (if removes then "\nTwo strings must be given when both deleting and squeezing repeats."
          else "\nTwo strings must be given when translating."))
      else if most < words.length then
        misuse "tr" ("extra operand " ++ inCurlyMarks ((words.drop most).headD "") ++
          (if most = 1 ∧ words.length = 2 then
            "\nOnly one string may be given when deleting without squeezing repeats." else ""))
      else
        match words.mapM fun word => readPieces (word.length + 1) word.toList with
        | .error message =>
          utilityComplain "tr" message
          return 1
        | .ok sets =>
          let named := spelled (sets.headD []) 0
          let first := if isTurned then
              ((List.range 256).map Char.ofNat).filter fun c => !named.contains c
            else named
          let second? := (sets[1]?).map fun pieces => spelled pieces first.length
          let first := match second? with
            | some second => if given.has 't' then first.take second.length else first
            | none => first
          let input := (← readInput).toList
          let replace (second : List Char) (c : Char) : Char :=
            if !first.contains c then c
            else (second[first.idxOf c]?).getD (second.getLastD c)
          let left := if removes then input.filter fun c => !first.contains c
            else match second? with
              | some second => input.map (replace second)
              | none => input
          let last := second?.getD first
          write 1 (String.ofList (if squeezes then squeeze last.contains left else left))
          return 0

end GrammarChart.Tool.Shell
