import GrammarChart.Tool.Shell.Utilities

/-!
# Finding files and repeating commands

`find` goes through directories and carries out what its words say for the files that they choose;
`xargs` repeats a command with words that it reads. Both are given a way to run commands.
-/

set_option autoImplicit false

namespace GrammarChart.Tool.Shell

namespace Finding

/-- A choice of files, or something that is done with them. -/
inductive Clause where
  | named (isCaseless : Bool) (pattern : List PatternLetter)
  | located (pattern : List PatternLetter)
  | kind (c : Char)
  | vacant
  | show_ (ending : Char)
  | erase
  | run (words : List String)
  | gather (words : List String)
  | always (holds : Bool)
  | negation (clause : Clause)
  | both (first second : Clause)
  | either (first second : Clause)

/-- A file that was found: its path, its location, its depth, and whether it is a directory. -/
structure Item where
  path : String
  location : Location
  depth : Nat
  isDirectory : Bool

/-- The letters of a pattern, of which those after a backslash are quoted. -/
def patternLetters : List Char → List PatternLetter
  | '\\' :: c :: rest => (c, true) :: patternLetters rest
  | c :: rest => (c, false) :: patternLetters rest
  | [] => []

/-- Something is done by a clause. -/
def Clause.acts : Clause → Bool
  | .show_ _ => true
  | .erase => true
  | .run _ => true
  | .gather _ => true
  | .negation clause => clause.acts
  | .both a b => a.acts || b.acts
  | .either a b => a.acts || b.acts
  | _ => false

/-- Directories come after what is in them. -/
def Clause.isDeep : Clause → Bool
  | .erase => true
  | .negation clause => clause.isDeep
  | .both a b => a.isDeep || b.isDeep
  | .either a b => a.isDeep || b.isDeep
  | _ => false

/-- The words up to one that ends a command, and the rest. -/
def commandOf (words : List String) : List String × List String :=
  let command := words.takeWhile fun word => word ≠ ";" && word ≠ "+"
  (command, words.drop command.length)

/-- Reads one clause. -/
def readPlain (words : List String) : Except String (Clause × List String) :=
  let missing (name : String) : String := "missing argument to \x60" ++ name ++ "\x27"
  match words with
  | [] => .ok (.always true, [])
  | name :: rest =>
    let valued (clause : String → Clause) : Except String (Clause × List String) :=
      match rest with
      | value :: rest => .ok (clause value, rest)
      | [] => .error (missing name)
    match name with
    | "-name" => valued fun value => .named false (patternLetters value.toList)
    | "-iname" => valued fun value => .named true (patternLetters value.toList)
    | "-path" => valued fun value => .located (patternLetters value.toList)
    | "-wholename" => valued fun value => .located (patternLetters value.toList)
    | "-type" => valued fun value => .kind ((value.toList.head?).getD 'f')
    | "-empty" => .ok (.vacant, rest)
    | "-print" => .ok (.show_ '\n', rest)
    | "-print0" => .ok (.show_ '\x00', rest)
    | "-delete" => .ok (.erase, rest)
    | "-true" => .ok (.always true, rest)
    | "-false" => .ok (.always false, rest)
    | "-depth" => .ok (.always true, rest)
    | "-maxdepth" => valued fun _ => .always true
    | "-mindepth" => valued fun _ => .always true
    | "-exec" =>
      match commandOf rest with
      | (words, ";" :: rest) => .ok (.run words, rest)
      | (words, "+" :: rest) => .ok (.gather (words.filter (· ≠ "\x7b\x7d")), rest)
      | _ => .error (missing name)
    | name =>
      if name.startsWith "-" then .error ("unknown predicate \x60" ++ name ++ "\x27")
      else .error ("paths must precede expression: \x60" ++ name ++ "\x27")

/-- Reads clauses of a level, in at most the given number of steps: alternatives, clauses one after
the other, and single ones. The first of them may have been read. -/
def read : Nat → Nat → Option Clause → List String → Except String (Clause × List String)
  | 0, _, _, words => .ok (.always true, words)
  | n + 1, 0, none, words =>
    match read n 1 none words with
    | .ok (first, rest) => read n 0 (some first) rest
    | .error message => .error message
  | n + 1, 0, some first, words =>
    match words with
    | word :: rest =>
      if word = "-o" ∨ word = "-or" then
        match read n 1 none rest with
        | .ok (second, rest) => read n 0 (some (.either first second)) rest
        | .error message => .error message
      else .ok (first, words)
    | [] => .ok (first, [])
  | n + 1, 1, none, words =>
    match read n 2 none words with
    | .ok (first, rest) => read n 1 (some first) rest
    | .error message => .error message
  | n + 1, 1, some first, words =>
    match words with
    | [] => .ok (first, [])
    | word :: rest =>
      if word = "-o" ∨ word = "-or" ∨ word = ")" then .ok (first, words)
      else
        let rest := if word = "-a" ∨ word = "-and" then rest else words
        match read n 2 none rest with
        | .ok (second, rest) => read n 1 (some (.both first second)) rest
        | .error message => .error message
  | n + 1, _, _, words =>
    match words with
    | "(" :: rest =>
      match read n 0 none rest with
      | .ok (inner, ")" :: rest) => .ok (inner, rest)
      | .ok _ =>
        .error ("invalid expression; I was expecting to find a \x27)\x27 somewhere but did " ++
          "not see one.")
      | .error message => .error message
    | "!" :: rest => (read n 2 none rest).map fun (inner, rest) => (.negation inner, rest)
    | "-not" :: rest => (read n 2 none rest).map fun (inner, rest) => (.negation inner, rest)
    | words => readPlain words

/-- The files under a path, down to a depth. -/
def itemsUnder (tree : FileTree) (isDeep : Bool) : Nat → Nat → Location → String → List Item
  | 0, _, _, _ => []
  | n + 1, depth, location, path =>
    match tree.get? location with
    | some .directory =>
      let inner := (namesIn tree location).flatMap fun name =>
        let shown := Octets.encode name
        itemsUnder tree isDeep n (depth + 1) (location ++ [name])
          (if path.endsWith "/" then path ++ shown else path ++ "/" ++ shown)
      let item : Item := ⟨path, location, depth, true⟩
      if isDeep then inner ++ [item] else item :: inner
    | some (.file _) => [⟨path, location, depth, false⟩]
    | none => []

/-- The last name of a path that was found. -/
def nameOf (path : String) : String :=
  let letters := path.toList.reverse.dropWhile (· == '/')
  if letters.isEmpty then path else String.ofList (letters.takeWhile (· != '/')).reverse

/-- Carries out clauses for a file. Tells whether they hold, with the commands that are gathered. -/
def carryOut (run : List String → Eval Nat) (item : Item) :
    Clause → Eval (Bool × List (List String × String))
  | .named isCaseless pattern => do
    let name := nameOf item.path
    if isCaseless then
      let pattern := pattern.map fun (c, quoted) => (c.toLower, quoted)
      return (accepts (patternOf pattern) (name.toList.map Char.toLower), [])
    return (accepts (patternOf pattern) name.toList, [])
  | .located pattern => return (accepts (patternOf pattern) item.path.toList, [])
  | .kind c => return (c == (if item.isDirectory then 'd' else 'f'), [])
  | .vacant => do
    let tree := (← get).tree
    match tree.get? item.location with
    | some .directory => return ((namesIn tree item.location).isEmpty, [])
    | some (.file content) => return (content.bytes.isEmpty, [])
    | none => return (false, [])
  | .show_ ending => do
    write 1 (item.path ++ ending.toString)
    return (true, [])
  | .erase => do
    let tree := (← get).tree
    if item.isDirectory && !(namesIn tree item.location).isEmpty then
      utilityComplain "find" ("cannot delete " ++ inCurlyMarks item.path ++
        ": Directory not empty")
      return (false, [])
    else
      modify fun machine => { machine with tree := machine.tree.erase item.location }
      return (true, [])
  | .run words => do
    let filled (word : String) : String := item.path.intercalate (word.splitOn "\x7b\x7d")
    return ((← run (words.map filled)) = 0, [])
  | .gather words => return (true, [(words, item.path)])
  | .always holds => return (holds, [])
  | .negation clause => do
    let (holds, gathered) ← carryOut run item clause
    return (!holds, gathered)
  | .both first second => do
    let (holds, gathered) ← carryOut run item first
    if !holds then return (false, gathered)
    let (holds, more) ← carryOut run item second
    return (holds, gathered ++ more)
  | .either first second => do
    let (holds, gathered) ← carryOut run item first
    if holds then return (true, gathered)
    let (holds, more) ← carryOut run item second
    return (holds, gathered ++ more)

/-- The number after a word. -/
def numberAfter (name : String) : List String → Option Nat
  | word :: value :: rest => if word = name then value.toNat? else numberAfter name (value :: rest)
  | _ => none

end Finding

open Finding in
/-- Goes through directories. -/
def find (run : List String → Eval Nat) (words : List String) : Eval Nat := do
  let isExpression (word : String) : Bool :=
    (word.startsWith "-" && word ≠ "-") || word = "(" || word = "!"
  let paths := words.takeWhile fun word => !isExpression word
  let rest := words.drop paths.length
  match Finding.read (4 * (rest.length + 2)) 0 none rest with
  | .error message =>
    utilityComplain "find" message
    return 1
  | .ok (clause, _) =>
    let clause := if clause.acts then clause else .both clause (.show_ '\n')
    let isDeep := clause.isDeep || rest.contains "-depth"
    let paths := if paths.isEmpty then ["."] else paths
    let results ← paths.mapM fun path => do
      let items ← match ← locationOf path with
        | .ok location =>
          pure (itemsUnder (← get).tree isDeep 100 0 location path)
        | .error _ => pure []
      if items.isEmpty then
        utilityComplain "find" (inCurlyMarks path ++ ": " ++ FileProblem.notFound.message)
        return (false, [])
      let chosen := items.filter fun item =>
        (numberAfter "-maxdepth" rest).all (item.depth ≤ ·) &&
          (numberAfter "-mindepth" rest).all (· ≤ item.depth)
      let gathered ← chosen.mapM fun item => do return (← carryOut run item clause).2
      return (true, gathered.flatten)
    let gathered := results.flatMap Prod.snd
    match gathered with
    | (command, _) :: _ =>
      let _ ← run (command ++ gathered.map Prod.snd)
    | [] => pure ()
    return statusOf (results.map Prod.fst)

namespace Repeating

/-- What is said of a quotation that is not closed. -/
def unmatched (mark : Char) : String :=
  "unmatched " ++ (if mark == '"' then "double" else "single") ++
    " quote; by default quotes are special to xargs unless you use the -0 option"

/-- The words of a text: blanks separate them unless they are quoted. The present word is given
backwards, when there is one, and the mark between which text stands. -/
def wordsOf : Option (List Char) → Option Char → List Char → Except String (List String)
  | word, none, [] => .ok ((word.map fun word => String.ofList word.reverse).toList)
  | _, some mark, [] => .error (unmatched mark)
  | word, some mark, c :: rest =>
    if c == mark then wordsOf word none rest
    else if c == '\n' then .error (unmatched mark)
    else wordsOf (some (c :: word.getD [])) (some mark) rest
  | word, none, '\\' :: c :: rest => wordsOf (some (c :: word.getD [])) none rest
  | word, none, c :: rest =>
    if c == '"' || c == '\x27' then wordsOf (some (word.getD [])) (some c) rest
    else if c == ' ' || c == '\t' || c == '\n' then
      match word with
      | none => wordsOf none none rest
      | some word =>
        (wordsOf none none rest).map fun words => String.ofList word.reverse :: words
    else wordsOf (some (c :: word.getD [])) none rest

/-- Groups of so many elements, at most as many as the given number. -/
def groupsOf {α : Type} (size : Nat) : Nat → List α → List (List α)
  | 0, _ => []
  | _, [] => []
  | n + 1, elements => elements.take size :: groupsOf size n (elements.drop size)

/-- The words that each command is run with. -/
def argumentsOf (given : Given) (text : String) : Except String (List (List String)) := do
  let split (c : Char) : List String :=
    let parts := text.toList.splitOn c
    (if parts.getLast? = some [] then parts.dropLast else parts).map String.ofList
  let limited (words : List String) : List (List String) :=
    match (given.value? 'n').bind String.toNat? with
    | some size => groupsOf size words.length words
    | none => [words]
  let delimiter := if given.has '0' then some '\x00'
    else (given.value? 'd').bind fun text =>
      if text = "\\n" then some '\n' else if text = "\\0" then some '\x00' else text.toList.head?
  if given.has 'I' || given.has 'i' then
    let lines := (split (delimiter.getD '\n')).filter fun line => !line.trimAscii.isEmpty
    lines.mapM fun line => do
      if delimiter.isSome then return [line]
      let bare := line.toList.dropWhile fun c => c == ' ' || c == '\t'
      return [String.ofList bare]
  else match delimiter with
    | some c => return limited (split c)
    | none =>
      match (given.value? 'L').bind String.toNat? with
      | some size =>
        let lines ← (split '\n').mapM fun line => wordsOf none none line.toList
        let lines := lines.filter fun words => !words.isEmpty
        return (groupsOf size lines.length lines).map List.flatten
      | none => return limited (← wordsOf none none text.toList)

end Repeating

open Repeating in
/-- Repeats a command with words that are read. A command that does not exist has no status. -/
def xargs (run : List String → Eval (Option Nat)) (words : List String) : Eval Nat := do
  let known : Known := ⟨"0trxpo".toList, "nILdsPaE".toList, ['i', 'l', 'e'],
    [("null", '0'), ("max-args", 'n'), ("replace", 'i'), ("max-lines", 'L'), ("delimiter", 'd'),
      ("verbose", 't'), ("no-run-if-empty", 'r'), ("max-procs", 'P')]⟩
  let isValue (before : Option String) : Bool :=
    before.any fun word => ["-n", "-I", "-L", "-d", "-s", "-P", "-a", "-E"].contains word
  let options := ((words.zip (none :: words.map some)).takeWhile fun (word, before) =>
    word.startsWith "-" || isValue before).map Prod.fst
  let command := words.drop options.length
  withGiven "xargs" known options fun given => do
    if (given.value? 'n').bind String.toNat? = some 0 then
      return ← misuse "xargs" "value 0 for -n option should be >= 1"
    match argumentsOf given (← readInput) with
    | .error message =>
      utilityComplain "xargs" message
      return 1
    | .ok groups =>
      let command := if command.isEmpty then ["echo"] else command
      let place? := (given.value? 'I').or
        ((given.value? 'i').map fun text => if text = "" then "\x7b\x7d" else text)
      let groups := if groups.isEmpty || groups = [[]] then
          (if given.has 'r' || place?.isSome then [] else [[]])
        else groups
      let statuses ← groups.mapM fun group => do
        let line := match place? with
          | some place => command.map fun word =>
              (group.headD "").intercalate (word.splitOn place)
          | none => command ++ group
        if given.has 't' then write 2 (" ".intercalate line ++ "\n")
        match ← run line with
        | some status => return if status = 0 then 0 else if status = 255 then 124 else 123
        | none =>
          utilityComplain "xargs" (command.headD "" ++ ": " ++ FileProblem.notFound.message)
          return 127
      return statuses.foldl max 0

end GrammarChart.Tool.Shell
