import GrammarChart.Tool.Shell.Utilities

/-!
# Showing files

The utilities that write their input, or a part of it: as it is, numbered, backwards, the first or
the last lines of it, or also to files.
-/

set_option autoImplicit false

namespace GrammarChart.Tool.Shell

namespace Showing

/-- How far `cat` has come: the number of the last line that was numbered, whether a line starts
here, and whether the line before is empty. -/
structure Progress where
  number : Nat
  isStart : Bool
  isBlank : Bool

/-- A character that shows one that cannot be seen. -/
def visible (c : Char) : List Char :=
  let n := c.toNat
  let low (n : Nat) : List Char :=
    if n < 32 then ['^', Char.ofNat (n + 64)]
    else if n = 127 then ['^', '?'] else [Char.ofNat n]
  if n < 128 then low n else ['M', '-'] ++ low (n - 128)

/-- The options of `cat` that make a character visible. -/
def shown (given : Given) (c : Char) : List Char :=
  let has (letters : List Char) : Bool := letters.any given.has
  if c == '\n' then (if has ['E', 'A', 'e'] then ['$', '\n'] else ['\n'])
  else if c == '\t' then (if has ['T', 'A', 't'] then ['^', 'I'] else ['\t'])
  else if has ['v', 'A', 'e', 't'] then visible c
  else [c]

/-- Writes a text as the options of `cat` ask for. -/
def decorated (given : Given) : Progress → List Char → List Char × Progress
  | progress, [] => ([], progress)
  | progress, c :: rest =>
    let isBlank := progress.isStart && c == '\n'
    if isBlank && progress.isBlank && given.has 's' then decorated given progress rest
    else
      let isNumbered := progress.isStart &&
        (if given.has 'b' then !isBlank else given.has 'n')
      let number := if isNumbered then progress.number + 1 else progress.number
      let mark := if isNumbered then (padded 6 (toString number) ++ "\t").toList else []
      let next : Progress := ⟨number, c == '\n', isBlank⟩
      (mark ++ shown given c ++ (decorated given next rest).1, (decorated given next rest).2)

/-- Writes files one after the other. Tells whether all of them could be read. -/
def writeFiles (given : Given) : Progress → List String → Eval Bool
  | _, [] => return true
  | progress, path :: rest => do
    match ← readOrComplain "cat" path with
    | none =>
      let _ ← writeFiles given progress rest
      return false
    | some text =>
      let (letters, progress) := decorated given progress text.toList
      write 1 (String.ofList letters)
      writeFiles given progress rest

end Showing

/-- Writes files. -/
def cat (words : List String) : Eval Nat :=
  let known : Known := ⟨"AbeEnstTuv".toList, [], [],
    [("show-all", 'A'), ("number-nonblank", 'b'), ("show-ends", 'E'), ("number", 'n'),
      ("squeeze-blank", 's'), ("show-tabs", 'T'), ("show-nonprinting", 'v')]⟩
  withGiven "cat" known words fun given => do
    let paths := if given.operands.isEmpty then ["-"] else given.operands
    let isPlain := given.options.all fun option => option.1 == 'u'
    if isPlain then
      let good ← paths.mapM fun path => do
        let text ← readOrComplain "cat" path
        write 1 (text.getD "")
        return text.isSome
      return statusOf good
    else return statusOf [← Showing.writeFiles given ⟨0, true, false⟩ paths]

/-- Writes the lines of its input from the last one to the first. -/
def reverseLines (words : List String) : Eval Nat :=
  withGiven "tac" ⟨[], [], [], []⟩ words fun given => do
    let (texts, isGood) ← readFiles "tac" given.operands
    texts.forM fun (_, text) =>
      write 1 (String.ofList (linesOf text.toList).reverse.flatten)
    return statusOf [isGood]

/-- Writes each line of its input backwards. -/
def reverseLetters (words : List String) : Eval Nat :=
  withGiven "rev" ⟨[], [], [], []⟩ words fun given => do
    let (texts, isGood) ← readFiles "rev" given.operands
    texts.forM fun (_, text) =>
      let turned (line : List Char) : List Char :=
        let text := Octets.decode (String.ofList (lineText line))
        (Octets.encode (String.ofList text.toList.reverse)).toList ++
          line.drop (lineText line).length
      write 1 (String.ofList ((linesOf text.toList).flatMap turned))
    return statusOf [isGood]

/-- Numbers the lines of its input, or only those that are not empty. -/
def numberLines (words : List String) : Eval Nat :=
  let known : Known := ⟨['p'], "bdfhilnsvw".toList, [],
    [("body-numbering", 'b'), ("number-width", 'w'), ("number-separator", 's'),
      ("starting-line-number", 'v'), ("line-increment", 'i'), ("number-format", 'n')]⟩
  withGiven "nl" known words fun given => do
    let (texts, isGood) ← readFiles "nl" given.operands
    let width := ((given.value? 'w').bind String.toNat?).getD 6
    let mark := (given.value? 's').getD "\t"
    let step := ((given.value? 'i').bind String.toNat?).getD 1
    let start := ((given.value? 'v').bind String.toNat?).getD 1
    let kind := (given.value? 'b').getD "t"
    let shown (number : Nat) : String :=
      let digits := toString number
      match given.value? 'n' with
      | some "ln" => digits ++ String.ofList (List.replicate (width - digits.length) ' ')
      | some "rz" => String.ofList (List.replicate (width - digits.length) '0') ++ digits
      | _ => padded width digits
    let numbered (state : Nat × List String) (line : List Char) : Nat × List String :=
      let isNumbered := kind = "a" || (kind ≠ "n" && !(lineText line).isEmpty)
      let mark := if isNumbered then shown state.1 ++ mark
        else String.ofList (List.replicate (width + mark.length) ' ')
      (if isNumbered then state.1 + step else state.1,
        (mark ++ String.ofList (lineText line) ++ "\n") :: state.2)
    let lines := texts.flatMap fun (_, text) => linesOf text.toList
    write 1 (String.join (lines.foldl numbered (start, [])).2.reverse)
    return statusOf [isGood]

namespace Ends

/-- A part of a text at one of its ends: what is counted, how many of them, and whether that many
are left out at the other end instead. -/
structure Portion where
  inOctets : Bool
  count : Nat
  isRest : Bool

/-- The number in the value of an option, with the sign that turns it round. -/
def countOf? (sign : Char) (text : String) : Option (Nat × Bool) :=
  let digits := match text.toList with
    | '-' :: rest => rest
    | '+' :: rest => rest
    | rest => rest
  if digits.isEmpty || !digits.all Char.isDigit then none
  else some (Sum.numberOf 10 digits, text.toList.head? = some sign)

/-- The part of a text that is asked for. -/
def Portion.of (portion : Portion) (isFirst : Bool) (text : String) : String :=
  let pieces := if portion.inOctets then text.toList.map fun c => [c] else linesOf text.toList
  let kept := match isFirst, portion.isRest with
    | true, false => pieces.take portion.count
    | true, true => pieces.take (pieces.length - portion.count)
    | false, false => pieces.drop (pieces.length - portion.count)
    | false, true => pieces.drop (portion.count - 1)
  String.ofList kept.flatten

/-- The words with a number as an option in its longer form. -/
def longer (isFirst : Bool) : List String → List String
  | [] => []
  | word :: rest =>
    match word.toList with
    | '-' :: c :: more =>
      if c.isDigit && (c :: more).all Char.isDigit then ("-n" ++ String.ofList (c :: more)) :: rest
      else word :: rest
    | '+' :: c :: _ =>
      if c.isDigit && !isFirst then ("-n" ++ word) :: rest else word :: rest
    | _ => word :: rest

/-- Writes the first or the last lines or octets of its input. -/
def write (name : String) (isFirst : Bool) (words : List String) : Eval Nat :=
  let known : Known := ⟨"qvzfF".toList, ['n', 'c', 's'], [],
    [("lines", 'n'), ("bytes", 'c'), ("quiet", 'q'), ("silent", 'q'), ("verbose", 'v')]⟩
  withGiven name known (longer isFirst words) fun given => do
    let letter := (given.last? ['n', 'c']).getD 'n'
    let text := (given.value? letter).getD "10"
    match countOf? (if isFirst then '-' else '+') text with
    | none =>
      utilityComplain name ("invalid number of " ++ (if letter = 'c' then "bytes" else "lines") ++
        ": " ++ inCurlyMarks text)
      return 1
    | some (count, isRest) =>
      let portion : Portion := ⟨letter = 'c', count, isRest⟩
      let paths := if given.operands.isEmpty then ["-"] else given.operands
      let isHeaded := !given.has 'q' && (given.has 'v' || 1 < paths.length)
      return statusOf (← writeAll name isFirst portion isHeaded true paths)
where
  /-- Writes the parts of files one after the other. -/
  writeAll (name : String) (isFirst : Bool) (portion : Portion) (isHeaded : Bool) :
      Bool → List String → Eval (List Bool)
    | _, [] => return []
    | isStart, path :: rest => do
      let found ← if path = "-" then pure (Except.ok (← readInput)) else readFile path
      let header := (if isStart then "" else "\n") ++ "==> " ++
        (if path = "-" then "standard input" else path) ++ " <==\n"
      match found with
      | .ok text =>
        if isHeaded then Shell.write 1 header
        Shell.write 1 (portion.of isFirst text)
        return true :: (← writeAll name isFirst portion isHeaded false rest)
      | .error problem =>
        if problem = .isADirectory then
          if isHeaded then Shell.write 1 header
          utilityComplain name ("error reading " ++ quoted path ++ ": " ++ problem.message)
        else
          utilityComplain name ("cannot open " ++ quoted path ++ " for reading: " ++
            problem.message)
        let isShown := problem == .isADirectory
        return false :: (← writeAll name isFirst portion isHeaded (isStart && !isShown) rest)

end Ends

/-- Writes its input to files and on. -/
def tee (words : List String) : Eval Nat :=
  let known : Known := ⟨['a', 'i', 'p'], [], [],
    [("append", 'a'), ("ignore-interrupts", 'i')]⟩
  withGiven "tee" known words fun given => do
    let text ← readInput
    let good ← given.operands.mapM fun path => do
      if path = "/dev/null" then return true
      if path = "/dev/stderr" then
        write 2 text
        return true
      match ← locationOf path with
      | .ok location =>
        if (← get).tree.get? location == some .directory then
          utilityComplain "tee" (path ++ ": " ++ FileProblem.isADirectory.message)
          return false
        modify fun machine =>
          let cleared := if given.has 'a' && (machine.tree.get? location).isSome then machine.tree
            else machine.tree.put location (.file (.plain ""))
          { machine with tree := appended cleared location text }
        return true
      | .error problem =>
        utilityComplain "tee" (path ++ ": " ++ problem.message)
        return false
    write 1 text
    return statusOf good

end GrammarChart.Tool.Shell
