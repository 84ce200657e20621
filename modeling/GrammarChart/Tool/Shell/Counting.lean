import GrammarChart.Tool.Shell.Utilities

/-!
# Counting and ordering lines

The utilities that count lines, words and octets, put lines in order, and tell lines apart that
equal their neighbours.
-/

set_option autoImplicit false

namespace GrammarChart.Tool.Shell

/-- The number of words of a text. -/
def wordCount (text : List Char) : Nat :=
  ((text.splitOnP fun c => " \t\n\x0b\x0c\r".toList.contains c).filter
    fun word => !word.isEmpty).length

/-- The length of the longest line of a text. -/
def longestLine (text : List Char) : Nat :=
  ((text.splitOn '\n').map fun line =>
    (Octets.decode (String.ofList line)).length).foldl max 0

/-- Counts the lines, words and octets of its input. -/
def count (words : List String) : Eval Nat :=
  let known : Known := ⟨"lwcmL".toList, [], [],
    [("lines", 'l'), ("words", 'w'), ("bytes", 'c'), ("chars", 'm'), ("max-line-length", 'L')]⟩
  withGiven "wc" known words fun given => do
    let chosen := ['l', 'w', 'm', 'c', 'L'].filter given.has
    let chosen := if chosen.isEmpty then ['l', 'w', 'c'] else chosen
    let counted (text : String) (letter : Char) : Nat :=
      match letter with
      | 'l' => text.toList.count '\n'
      | 'w' => wordCount text.toList
      | 'm' => (Octets.decode text).length
      | 'c' => text.length
      | _ => longestLine text.toList
    let paths := if given.operands.isEmpty then ["-"] else given.operands
    let isFile ← readsFile
    let found ← paths.mapM fun path => do
      if path = "-" then return (path, Except.ok (← readInput))
      return (path, ← readFile path)
    let sizes := found.map fun (path, found) =>
      match found with
      | .ok text => if path = "-" && !isFile then (0, 7) else (text.length, 1)
      | .error problem => (0, if problem = .isADirectory then 7 else 1)
    let size := (sizes.map Prod.fst).foldl (· + ·) 0
    let width := if paths.length = 1 && chosen.length = 1 then 1
      else (sizes.map Prod.snd).foldl max (toString size).length
    let show_ (counts : List Nat) (name : String) : Eval Unit :=
      write 1 (" ".intercalate (counts.map fun n => padded width (toString n)) ++
        (if name = "" then "" else " " ++ name) ++ "\n")
    let none_ := chosen.map fun _ => 0
    let counts ← found.mapM fun (path, found) => do
      match found with
      | .ok text =>
        let counts := chosen.map (counted text)
        show_ counts (if given.operands.isEmpty then "" else path)
        return (counts, true)
      | .error problem =>
        utilityComplain "wc" (path ++ ": " ++ problem.message)
        if problem = .isADirectory then show_ none_ path
        return (none_, false)
    if 1 < paths.length then
      let totals := counts.foldl (fun totals entry =>
        (totals.zip (entry.1.zip chosen)).map fun (total, n, letter) =>
          if letter = 'L' then max total n else total + n) none_
      show_ totals "total"
    return statusOf (counts.map Prod.snd)

namespace Sorting

/-- How lines are compared: by a part of them between two fields, with characters of the fields, and
by letters that say how. -/
structure Key where
  first : Nat
  firstLetter : Nat
  /-- The last field; the end of the line if there is none. -/
  last : Option Nat
  /-- The last character of the last field; all of it if there is none. -/
  lastLetter : Option Nat
  options : List Char

/-- Reads a place in a line: a field, a character of it, and letters. -/
def readPlace (text : List Char) : Nat × Option Nat × List Char × List Char :=
  let field := text.takeWhile Char.isDigit
  let rest := text.drop field.length
  let (letter, rest) := match rest with
    | '.' :: rest => (some (rest.takeWhile Char.isDigit), rest.dropWhile Char.isDigit)
    | rest => (none, rest)
  let options := rest.takeWhile Char.isAlpha
  (Sum.numberOf 10 field, letter.map (Sum.numberOf 10), options, rest.drop options.length)

/-- The key that a text describes. -/
def keyOf (text : String) : Key :=
  let (first, firstLetter, options, rest) := readPlace text.toList
  match rest with
  | ',' :: rest =>
    let (last, lastLetter, more, _) := readPlace rest
    ⟨first, firstLetter.getD 1, some last, lastLetter.filter (· ≠ 0), options ++ more⟩
  | _ => ⟨first, firstLetter.getD 1, none, none, options⟩

/-- The fields of a line, each with the blanks before it; with a separator, the texts between. -/
def fields (separator : Option Char) (line : List Char) : List (List Char) :=
  match separator with
  | some c => line.splitOn c
  | none => blankFields line.length line
where
  /-- The fields of a line that blanks separate, at most as many as the given number. -/
  blankFields : Nat → List Char → List (List Char)
    | 0, _ => []
    | _, [] => []
    | n + 1, line =>
      let blanks := line.takeWhile isFieldBlank
      let rest := line.drop blanks.length
      let word := rest.takeWhile fun c => !isFieldBlank c
      (blanks ++ word) :: blankFields n (rest.drop word.length)
  /-- A blank between fields. -/
  isFieldBlank (c : Char) : Bool := c == ' ' || c == '\t'

/-- The part of a line that a key takes. -/
def Key.part (key : Key) (separator : Option Char) (line : List Char) : List Char :=
  let all := fields separator line
  let mark := match separator with
    | some c => [c]
    | none => []
  let join (parts : List (List Char)) : List Char := mark.intercalate parts
  let trimmed (field : List Char) : List Char :=
    if key.options.contains 'b' then field.dropWhile (fun c => c == ' ' || c == '\t') else field
  let chosen := all.drop (key.first - 1)
  let chosen := match key.last with
    | some last => chosen.take (last + 1 - key.first)
    | none => chosen
  let chosen := match key.last, key.lastLetter with
    | some last, some letter =>
      if last - key.first < chosen.length then
        chosen.modify (last - key.first) fun field => field.take letter
      else chosen
    | _, _ => chosen
  match chosen with
  | first :: rest => join ((trimmed first).drop (key.firstLetter - 1) :: rest)
  | [] => []

/-- The number at the start of a text, in units of so small a part that its places count. -/
def numberAt (text : List Char) : Int :=
  let rest := text.dropWhile fun c => c == ' ' || c == '\t'
  let (isNegative, rest) := match rest with
    | '-' :: rest => (true, rest)
    | rest => (false, rest)
  let whole := rest.takeWhile Char.isDigit
  let places := match rest.drop whole.length with
    | '.' :: rest => rest.takeWhile Char.isDigit
    | _ => []
  let value := Sum.numberOf 10 (whole ++ (places ++ List.replicate 20 '0').take 20)
  if isNegative then -(value : Int) else (value : Int)

/-- Compares the parts of two lines. -/
def compareParts (options : List Char) (a b : List Char) : Ordering :=
  let settled (text : List Char) : List Char :=
    let text := if options.contains 'b' then text.dropWhile (· == ' ') else text
    let text := if options.contains 'd' then
        text.filter fun c => c.isAlphanum || c == ' ' || c == '\t' else text
    if options.contains 'f' then text.map Char.toUpper else text
  if options.contains 'n' || options.contains 'g' || options.contains 'h' then
    compare (numberAt a) (numberAt b)
  else compare (String.ofList (settled a)) (String.ofList (settled b))

/-- How lines are ordered. -/
structure Manner where
  keys : List Key
  separator : Option Char
  options : List Char

/-- Compares two lines by the keys. -/
def Manner.compareKeys (manner : Manner) (a b : List Char) : Ordering :=
  let turned (options : List Char) (order : Ordering) : Ordering :=
    if options.contains 'r' then order.swap else order
  if manner.keys.isEmpty then turned manner.options (compareParts manner.options a b)
  else manner.keys.foldl (fun order key =>
    order.then <|
      let options := if key.options.all (· == 'b') then manner.options else key.options
      turned options (compareParts options (key.part manner.separator a)
        (key.part manner.separator b))) .eq

/-- Compares two lines; lines with the same keys by all their characters. -/
def Manner.compareLines (manner : Manner) (a b : List Char) : Ordering :=
  let order := manner.compareKeys a b
  if manner.options.contains 's' || manner.options.contains 'u' then order
  else
    let whole := compare (String.ofList a) (String.ofList b)
    order.then (if manner.options.contains 'r' then whole.swap else whole)

/-- The first lines of neighbours that have the same keys. -/
def Manner.distinct (manner : Manner) : List (List Char) → List (List Char)
  | a :: b :: rest =>
    if manner.compareKeys a b == .eq then
      match manner.distinct (b :: rest) with
      | _ :: others => a :: others
      | [] => [a]
    else a :: manner.distinct (b :: rest)
  | short => short

end Sorting

open Sorting in
/-- Orders lines. -/
def order (words : List String) : Eval Nat := do
  let known : Known := ⟨"nrufbsdghicCzVMmR".toList, ['k', 't', 'o', 'S', 'T'], [],
    [("numeric-sort", 'n'), ("reverse", 'r'), ("unique", 'u'), ("ignore-case", 'f'),
      ("ignore-leading-blanks", 'b'), ("stable", 's'), ("key", 'k'), ("field-separator", 't'),
      ("output", 'o'), ("check", 'c'), ("general-numeric-sort", 'g'), ("merge", 'm')]⟩
  match known.read words with
  | .error wrong => misuseWith 2 "sort" wrong.message
  | .ok given =>
    let paths := if given.operands.isEmpty then ["-"] else given.operands
    let found ← paths.mapM fun path => do
      if path = "-" then return (path, Except.ok (← readInput))
      return (path, ← readFile path)
    let wrong? := found.findSome? fun (path, found) =>
      match found with
      | .error .isADirectory =>
        some ("read failed: " ++ path ++ ": " ++ FileProblem.isADirectory.message)
      | .error problem => some ("cannot read: " ++ path ++ ": " ++ problem.message)
      | .ok _ => none
    match wrong? with
    | some message =>
      utilityComplain "sort" message
      return 2
    | none =>
      let manner : Sorting.Manner :=
        { keys := (given.values 'k').map keyOf
          separator := (given.value? 't').bind fun text => text.toList.head?
          options := given.options.map Prod.fst }
      let lines := found.flatMap fun (_, found) =>
        match found with
        | .ok text => (linesOf text.toList).map lineText
        | .error _ => []
      let isBefore (a b : List Char) : Bool := manner.compareLines a b != .gt
      if given.has 'c' || given.has 'C' then
        let pairs := (lines.zip (lines.drop 1)).zipIdx
        match pairs.find? fun ((a, b), _) => !isBefore a b with
        | some ((_, line), k) =>
          if given.has 'c' then
            utilityComplain "sort" (paths.headD "-" ++ ":" ++ toString (k + 2) ++
              ": disorder: " ++ String.ofList line)
          return 1
        | none => return 0
      let sorted := lines.mergeSort isBefore
      let sorted := if given.has 'u' then manner.distinct sorted else sorted
      match given.value? 'o' with
      | none =>
        writeLines sorted
        return 0
      | some path =>
        match ← locationOf path with
        | .ok location =>
          let text := String.ofList (sorted.flatMap (· ++ ['\n']))
          modify fun machine =>
            let cleared := machine.tree.put location (.file (.plain ""))
            { machine with tree := appended cleared location text }
          return 0
        | .error problem =>
          utilityComplain "sort" ("open failed: " ++ path ++ ": " ++ problem.message)
          return 2

/-- Lines in runs of neighbours that a test finds equal, with their numbers. -/
def countRuns (isSame : List Char → List Char → Bool) :
    List (List Char) → List (Nat × List Char)
  | [] => []
  | line :: rest =>
    match countRuns isSame rest with
    | (n, next) :: more =>
      if isSame line next then (n + 1, line) :: more else (1, line) :: (n, next) :: more
    | [] => [(1, line)]

/-- Leaves one of neighbouring lines that are equal. -/
def unique (words : List String) : Eval Nat :=
  let known : Known := ⟨"cduiDz".toList, ['f', 's', 'w'], [],
    [("count", 'c'), ("repeated", 'd'), ("unique", 'u'), ("ignore-case", 'i'),
      ("skip-fields", 'f'), ("skip-chars", 's'), ("check-chars", 'w')]⟩
  withGiven "uniq" known words fun given => do
    match given.operands with
    | _ :: _ :: extra :: _ => misuse "uniq" ("extra operand " ++ inCurlyMarks extra)
    | paths =>
      let (texts, isGood) ← readFiles "uniq" (paths.take 1)
      if !isGood then return 1
      let number (letter : Char) : Option Nat := (given.value? letter).bind String.toNat?
      let seen (line : List Char) : List Char :=
        let line := ((Sorting.fields none line).drop ((number 'f').getD 0)).flatten
        let line := line.drop ((number 's').getD 0)
        let line := match number 'w' with
          | some width => line.take width
          | none => line
        if given.has 'i' then line.map Char.toUpper else line
      let lines := texts.flatMap fun (_, text) => (linesOf text.toList).map lineText
      let runs := countRuns (fun a b => seen a == seen b) lines
      let runs := runs.filter fun (n, _) =>
        (!given.has 'd' || 1 < n) && (!given.has 'u' || n = 1)
      let shown (n : Nat) : List Char :=
        if given.has 'c' then (padded 7 (toString n) ++ " ").toList else []
      let text := String.ofList (runs.flatMap fun (n, line) => shown n ++ line ++ ['\n'])
      match paths.drop 1 with
      | path :: _ =>
        if let .ok location ← locationOf path then
          modify fun machine =>
            let cleared := machine.tree.put location (.file (.plain ""))
            { machine with tree := appended cleared location text }
      | [] => write 1 text
      return 0

end GrammarChart.Tool.Shell
