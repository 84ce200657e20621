import GrammarChart.Tool.Regular.Reading
import GrammarChart.Tool.Shell.Given
import GrammarChart.Tool.Shell.Utilities

/-!
# Looking for lines

`grep` writes the lines of its input in which a part is found that a pattern describes, or the
parts themselves, or how many such lines there are and in which files.
-/

set_option autoImplicit false

namespace GrammarChart.Tool.Shell

namespace Search

/-- The options of `grep`. -/
def known : Known where
  plain := "cvinlLowxEFGPshHqrRabyzTIUZ0123456789".toList
  valued := ['e', 'f', 'm', 'A', 'B', 'C', 'd', 'D', 'N']
  joined := ['K']
  long := [("count", 'c'), ("invert-match", 'v'), ("ignore-case", 'i'), ("line-number", 'n'),
    ("files-with-matches", 'l'), ("files-without-match", 'L'), ("only-matching", 'o'),
    ("word-regexp", 'w'), ("line-regexp", 'x'), ("extended-regexp", 'E'), ("fixed-strings", 'F'),
    ("basic-regexp", 'G'), ("perl-regexp", 'P'), ("no-messages", 's'), ("no-filename", 'h'),
    ("with-filename", 'H'), ("quiet", 'q'), ("silent", 'q'), ("recursive", 'r'),
    ("dereference-recursive", 'R'), ("text", 'a'), ("byte-offset", 'b'), ("null-data", 'z'),
    ("initial-tab", 'T'), ("null", 'Z'), ("regexp", 'e'), ("file", 'f'), ("max-count", 'm'),
    ("after-context", 'A'), ("before-context", 'B'), ("context", 'C'), ("directories", 'd'),
    ("devices", 'D'), ("label", 'N'), ("color", 'K'), ("colour", 'K')]

/-- What is looked for, and what is told about it. -/
structure Request where
  regular : Regular
  given : Given
  /-- The most lines of a file that are selected. -/
  most : Option Nat
  /-- The numbers of lines that are shown before and after a selected one. -/
  before : Nat
  after : Nat
  /-- The character between lines. -/
  ending : Char

/-- A line: its octets without the end, its number, and the number of octets before it. -/
structure Line where
  text : List Char
  number : Nat
  offset : Nat

/-- The subject that a line is. -/
def Request.subject (request : Request) (text : List Char) : Subject where
  letters := (Octets.decode (String.ofList text)).toList.toArray
  ignoresCase := request.given.has 'i' || request.given.has 'y'
  hasLines := false

/-- A part may be found between two places. -/
def Request.fits (request : Request) (subject : Subject) (first last : Nat) : Bool :=
  if request.given.has 'x' then first == 0 && last == subject.letters.size
  else !request.given.has 'w' || (!subject.isWordBefore first && !subject.isWordAt last)

/-- The parts of a subject that are described, from a place on, at most as many as the given
number. Empty parts are passed over. -/
def Request.parts (request : Request) (subject : Subject) : Nat → Nat → List (Nat × Nat)
  | 0, _ => []
  | n + 1, start =>
    match request.regular.find? subject start (request.fits subject) with
    | none => []
    | some (first, found) =>
      if first < found.place then (first, found.place) :: request.parts subject n found.place
      else request.parts subject n (first + 1)

/-- The line is selected. -/
def Request.selects (request : Request) (text : List Char) : Bool :=
  let subject := request.subject text
  (request.regular.find? subject 0 (request.fits subject)).isSome != request.given.has 'v'

/-- The lines that texts make up. -/
def linesFrom : Nat → Nat → List (List Char) → List Line
  | number, offset, text :: rest =>
    ⟨text, number, offset⟩ :: linesFrom (number + 1) (offset + text.length + 1) rest
  | _, _, [] => []

/-- The lines of a file. -/
def Request.linesOf (request : Request) (text : String) : List Line :=
  let texts := text.toList.splitOn request.ending
  linesFrom 1 0 (if texts.getLast? = some [] then texts.dropLast else texts)

/-- The lines up to the last one that is selected, each with whether it is; what follows them is not
selected. -/
def Request.marked (request : Request) : Option Nat → List Line → List (Line × Bool)
  | _, [] => []
  | most, line :: rest =>
    if most = some 0 then (line :: rest).map fun line => (line, false)
    else
      let isSelected := request.selects line.text
      (line, isSelected) ::
        request.marked (if isSelected then most.map (· - 1) else most) rest

/-- What stands before a line, or a part of it that starts after some octets. -/
def Request.mark (request : Request) (name : Option String) (line : Line) (skipped : Nat)
    (isSelected : Bool) : String :=
  let sign := if isSelected then ":" else "-"
  let shown (text : String) : String := text ++ sign
  (name.map shown).getD "" ++
    (if request.given.has 'n' then shown (toString line.number) else "") ++
    (if request.given.has 'b' then shown (toString (line.offset + skipped)) else "")

/-- What is written of a line. -/
def Request.shown (request : Request) (name : Option String) (line : Line) (isSelected : Bool) :
    String :=
  let ending := request.ending.toString
  if request.given.has 'o' then
    if !isSelected || request.given.has 'v' then ""
    else
      let subject := request.subject line.text
      let size := subject.letters.size
      String.join ((request.parts subject (size + 1) 0).map fun (first, last) =>
        let part (first last : Nat) : String :=
          Octets.encode (String.ofList (subject.slice first last))
        request.mark name line (part 0 first).length true ++ part first last ++ ending)
  else request.mark name line 0 isSelected ++ String.ofList line.text ++ ending

/-- For each line, the number of lines since the last selected one. -/
def distances : Option Nat → List Bool → List (Option Nat)
  | _, [] => []
  | ago, isSelected :: rest =>
    let ago := if isSelected then some 0 else ago.map (· + 1)
    ago :: distances ago rest

/-- The lines that are shown: the selected ones and those near to them. -/
def Request.near (request : Request) (lines : List (Line × Bool)) : List (Line × Bool) :=
  let selected := lines.map Prod.snd
  let since := distances none selected
  let till := (distances none selected.reverse).reverse
  let isShown (since till : Option Nat) : Bool :=
    since.any (· ≤ request.after) || till.any (· ≤ request.before)
  ((lines.zip (since.zip till)).filter fun entry => isShown entry.2.1 entry.2.2).map Prod.fst

/-- The request is for more than the selected lines. -/
def Request.hasContext (request : Request) : Bool :=
  request.before != 0 || request.after != 0

/-- What is written of lines, with marks between lines that are no neighbours. -/
def Request.pages (request : Request) (name : Option String) : List (Line × Bool) → String
  | (line, isSelected) :: (next, isNext) :: rest =>
    request.shown name line isSelected ++
      (if request.hasContext && line.number + 1 < next.number then "--\n" else "") ++
      request.pages name ((next, isNext) :: rest)
  | [(line, isSelected)] => request.shown name line isSelected
  | [] => ""

/-- The octets are no text of characters. -/
def isGarbled (text : String) : Bool :=
  match Text.Utf8.decode (Octets.toBytes text) with
  | .ok _ => false
  | .error _ => true

/-- The lines up to the first one that is no text, and whether there is one among the shown ones. -/
def Request.readable (request : Request) (text : String) (lines : List (Line × Bool)) :
    List (Line × Bool) × Bool :=
  if request.given.has 'a' then (lines, false)
  else if text.toList.contains '\x00' && request.ending != '\x00' then ([], true)
  else
    let readable := lines.takeWhile fun entry => !isGarbled (String.ofList entry.1.text)
    (readable, readable.length < lines.length)

/-- Writes what is found in one file. Tells whether a line is selected. -/
def Request.write (request : Request) (isMarked isFirst : Bool) (name text : String) :
    Eval Bool := do
  let given := request.given
  let lines := request.marked request.most (request.linesOf text)
  let selected := (lines.filter Prod.snd).length
  let isFound := selected ≠ 0
  let told := if isMarked then some name else none
  if given.has 'q' then return isFound
  if let some letter := given.last? ['l', 'L'] then
    if isFound = (letter = 'l') then Shell.write 1 (name ++ "\n")
    return isFound
  if given.has 'c' then
    Shell.write 1 ((told.map (· ++ ":")).getD "" ++ toString selected ++ "\n")
  else if isFound then
    let (readable, isCut) := request.readable text (request.near lines)
    if request.hasContext && !isFirst then Shell.write 1 "--\n"
    Shell.write 1 (request.pages told readable)
    if isCut && !(given.has 'o' && given.has 'v') then
      utilityComplain "grep" (name ++ ": binary file matches")
  return isFound

/-- The files to which paths lead, with the texts of these files. A directory stands for the files
in it, up to the given depth. -/
def filesUnder (tree : FileTree) : Nat → Bool → Location → String → List (String × Location)
  | 0, _, _, _ => []
  | n + 1, isTop, location, path =>
    match tree.get? location with
    | some .directory =>
      (namesIn tree location).flatMap fun name =>
        let shown := Octets.encode name
        let inner := if isTop && path = "" then shown
          else if path.endsWith "/" then path ++ shown else path ++ "/" ++ shown
        filesUnder tree n false (location ++ [name]) inner
    | some (.file _) => [(path, location)]
    | none => []

/-- How a search has gone so far: a line was selected, and every file could be read. -/
structure Progress where
  isFound : Bool
  isGood : Bool

/-- Searches texts one after the other; a silent search ends with the first selected line. -/
def Request.searchTexts (request : Request) (isMarked : Bool) :
    Progress → List (String × String) → Eval Progress
  | progress, [] => return progress
  | progress, (name, text) :: rest => do
    if progress.isFound && request.given.has 'q' then return progress
    let isFound ← request.write isMarked (!progress.isFound) name text
    request.searchTexts isMarked { progress with isFound := progress.isFound || isFound } rest

/-- Searches the files to which paths lead, one after the other. -/
def Request.search (request : Request) (isMarked : Bool) : Progress → List String → Eval Progress
  | progress, [] => return progress
  | progress, path :: rest => do
    let given := request.given
    if progress.isFound && given.has 'q' then return progress
    let refuse (problem : FileProblem) : Eval Progress := do
      if !given.has 's' then utilityComplain "grep" (path ++ ": " ++ problem.message)
      return { progress with isGood := false }
    let tree := (← get).tree
    let after ← if path = "-" then do
        let name := (given.value? 'N').getD "(standard input)"
        request.searchTexts isMarked progress [(name, ← readInput)]
      else do
        match ← locationOf (if path = "" then "." else path) with
        | .error problem => refuse problem
        | .ok location =>
          match tree.get? location with
          | some (.file content) =>
            request.searchTexts isMarked progress [(path, fileText content)]
          | some .directory =>
            if given.has 'r' || given.has 'R' then
              let files := (filesUnder tree maxDepth true location path).filterMap
                fun (name, place) =>
                  match tree.get? place with
                  | some (.file content) => some (name, fileText content)
                  | _ => none
              request.searchTexts isMarked progress files
            else if given.value? 'd' = some "skip" then pure progress
            else
              let progress ← refuse .isADirectory
              if given.has 'c' || given.has 'L' then
                request.searchTexts isMarked progress [(path, "")]
              else pure progress
          | none =>
            match ← readFile path with
            | .ok text => request.searchTexts isMarked progress [(path, text)]
            | .error problem => refuse problem
    request.search isMarked after rest
where
  /-- The greatest depth of directories. -/
  maxDepth : Nat := 100

/-- The patterns that are given, or none if one of their files cannot be read, and the operands
that are left. -/
def patterns? (given : Given) : Eval (Option (List String) × List String) := do
  let files ← (given.values 'f').mapM fun path => do
    match ← readOrComplain "grep" path with
    | some text => return some ((linesOf text.toList).map (String.ofList ∘ lineText))
    | none => return none
  let split (text : String) : List String := (text.toList.splitOn '\n').map String.ofList
  let words := (given.values 'e').flatMap split
  if files.any Option.isNone then return (none, given.operands)
  if given.has 'e' || given.has 'f' then
    return (some (words ++ (files.filterMap id).flatten), given.operands)
  match given.operands with
  | pattern :: rest => return (some (split pattern), rest)
  | [] => return (none, [])

/-- The expression for a pattern. -/
def regularOf (given : Given) (pattern : String) :
    Except Regular.Problem (Regular × List String) :=
  let letters := (Octets.decode pattern).toList
  match given.last? ['E', 'F', 'G', 'P'] with
  | some 'F' =>
    .ok (letters.foldr (fun c rest => .both (.letter c) rest) .nothing, [])
  | kind =>
    let dialect : Regular.Dialect := ⟨kind = some 'E' || kind = some 'P', false⟩
    let letters := if kind = some 'P' then digitClasses letters else letters
    (Regular.parse dialect letters).map fun (regular, _, skipped) => (regular, skipped)
where
  /-- The signs for digits in their longer form. -/
  digitClasses : List Char → List Char
    | '\\' :: 'd' :: rest => "[0-9]".toList ++ digitClasses rest
    | '\\' :: 'D' :: rest => "[^0-9]".toList ++ digitClasses rest
    | '\\' :: c :: rest => '\\' :: c :: digitClasses rest
    | c :: rest => c :: digitClasses rest
    | [] => []

/-- The expressions for patterns together. No pattern at all describes nothing. -/
def regularOfAll (given : Given) (patterns : List String) :
    Except Regular.Problem (Regular × List String) := do
  let found ← patterns.mapM (regularOf given)
  match found.map Prod.fst with
  | [] => return (.set false [], [])
  | first :: rest => return (rest.foldl .either first, found.flatMap Prod.snd)

/-- The number of lines that an option asks for. -/
def contextOf (given : Given) (letter : Char) : Except String Nat :=
  let digits := (given.options.map Prod.fst).filter Char.isDigit
  let text := (given.value? letter).or (given.value? 'C')
  match text with
  | some text =>
    match text.toNat? with
    | some number => .ok number
    | none => .error (text ++ ": invalid context length argument")
  | none => .ok (Sum.numberOf 10 digits)

/-- The complaint about a wrong use. -/
def misused : Eval Nat := do
  write 2 "Usage: grep [OPTION]... PATTERNS [FILE]...\nTry \x27grep --help\x27 for more information.\n"
  return 2

end Search

open Search in
/-- Looks for lines. -/
def grep (words : List String) : Eval Nat := do
  match Search.known.read words with
  | .error wrong =>
    utilityComplain "grep" wrong.message
    misused
  | .ok given =>
    match contextOf given 'A', contextOf given 'B', (given.value? 'm').map String.toInt? with
    | .error message, _, _ => fault message
    | _, .error message, _ => fault message
    | _, _, some none => fault "invalid max count"
    | .ok after, .ok before, most =>
      match ← patterns? given with
      | (none, _) => if given.has 'f' then return 2 else misused
      | (some patterns, paths) =>
        match regularOfAll given patterns with
        | .error problem => fault problem.message
        | .ok (regular, skipped) =>
          skipped.forM fun sign =>
            utilityComplain "grep" ("warning: " ++ sign ++ " at start of expression")
          let isDeep := given.has 'r' || given.has 'R'
          let searched := if !paths.isEmpty then paths else if isDeep then [""] else ["-"]
          let tree := (← get).tree
          let isDirectory ← searched.mapM fun path => do
            match ← locationOf (if path = "" then "." else path) with
            | .ok location => return tree.get? location == some .directory
            | .error _ => return false
          let isMarked := match given.last? ['h', 'H'] with
            | some letter => letter == 'H'
            | none => 1 < searched.length || (isDeep && isDirectory.any id)
          let most := (most.bind id).bind fun (most : Int) =>
            if most < 0 then none else some most.toNat
          let ending := if given.has 'z' then '\x00' else '\n'
          let request : Search.Request :=
            { regular := regular, given := given, most := most, before := before, after := after
              ending := ending }
          let selectsNothing := most = some 0 || (patterns = [""] && given.has 'v' &&
            !given.has 'x' && !given.has 'w')
          if selectsNothing && !given.has 'L' then return 1
          let progress ← request.search isMarked ⟨false, true⟩ searched
          if progress.isFound && given.has 'q' then return 0
          if !progress.isGood then return 2
          return if progress.isFound then 0 else 1
where
  /-- The complaint that ends the search. -/
  fault (message : String) : Eval Nat := do
    utilityComplain "grep" message
    return 2

end GrammarChart.Tool.Shell
