import GrammarChart.Tool.Shell.Fields
import GrammarChart.Tool.Shell.Naming
import GrammarChart.Tool.Shell.Options
import GrammarChart.Tool.Shell.Print

/-!
# Commands of the shell

The commands that a shell carries out itself and that run no other command: printing, testing,
reading, and changes of its variables, arguments, options and directory.
-/

set_option autoImplicit false

namespace GrammarChart.Tool.Shell

/-- A command, given its arguments; its result is its status. -/
abbrev Action := List String → Eval Nat

/-- The number that an argument stands for. -/
def numberArgument (argument : String) : Eval Nat :=
  match argument.toNat? with
  | some number =>
    if argument.toList.all Char.isDigit && number < 2147483648 then return number
    else fail ("Illegal number: " ++ argument)
  | none => fail ("Illegal number: " ++ argument)

/-- Writes its arguments, with escapes replaced, and a line end. -/
def echo : Action := fun arguments => do
  let (isSilent, arguments) := match arguments with
    | "-n" :: rest => (true, rest)
    | arguments => (false, arguments)
  let (text, isWhole) := unescaped (" ".intercalate arguments)
  write 1 (String.ofList text ++ if isWhole && !isSilent then "\n" else "")
  return 0

/-- Prints its arguments by a format. -/
def printf : Action := fun arguments => do
  let arguments := match arguments with
    | "--" :: rest => rest
    | arguments => arguments
  match arguments with
  | [] => fail "usage: printf format [arg ...]"
  | format :: arguments =>
    let printed := print format.toList (arguments.length + 1) arguments
    printed.complaints.forM complain
    match printed.refusal with
    | some message => complain message
    | none => pure ()
    write 1 (String.ofList printed.text)
    if printed.refusal.isSome then return 2
    return if printed.complaints.isEmpty then 0 else 1

/-- Tests a condition. -/
def test : Action := fun arguments => do
  match testCondition (← get).tree arguments with
  | .ok result => return if result then 0 else 1
  | .error message => fail message

/-- Tests a condition between square brackets. -/
def bracketTest : Action := fun arguments => do
  if arguments.getLast? = some "]" then test arguments.dropLast else fail "missing ]"

/-- Ends the script. -/
def exit : Action := fun arguments => do
  match arguments with
  | argument :: _ => setStatus ((← numberArgument argument) % 256)
  | [] => pure ()
  throw .exit

/-- Ends a function. -/
def leaveFunction : Action := fun arguments => do
  match arguments with
  | argument :: _ => setStatus ((← numberArgument argument) % 256)
  | [] => pure ()
  throw .result

/-- Ends loops, or the rounds that they are in. -/
def leaveLoops (flow : Nat → Flow) : Action := fun arguments => do
  let count ← match arguments with
    | argument :: _ => numberArgument argument
    | [] => pure 1
  if count = 0 then fail ("Illegal number: " ++ arguments.headD "")
  setStatus 0
  let loops := (← scope).loops
  if loops = 0 then return 0 else throw (flow (min count loops))

/-- Takes away the first arguments of the script. -/
def shift : Action := fun arguments => do
  let count ← match arguments with
    | argument :: _ => numberArgument argument
    | [] => pure 1
  if (← scope).arguments.length < count then fail "can\x27t shift that many"
  modifyScope fun scope => { scope with arguments := scope.arguments.drop count }
  return 0

/-- The options by their long names. -/
def longOptions : List (String × Char) :=
  [("errexit", 'e'), ("noglob", 'f'), ("ignoreeof", 'I'), ("interactive", 'i'), ("monitor", 'm'),
    ("noexec", 'n'), ("stdin", 's'), ("xtrace", 'x'), ("verbose", 'v'), ("vi", 'V'),
    ("emacs", 'E'), ("noclobber", 'C'), ("allexport", 'a'), ("notify", 'b'), ("nounset", 'u')]

/-- Sets or takes back an option. -/
def changeOption (isSet : Bool) (option : Char) : Eval Unit :=
  modifyScope fun scope =>
    let others := scope.options.filter (· != option)
    { scope with options := if isSet then others ++ [option] else others }

/-- Changes the options that the words of a command name, and gives the words that are left, if
any were meant to be. -/
def changeOptions : List String → Eval (Option (List String))
  | [] => return none
  | word :: rest => do
    match word.toList with
    | ['-', '-'] => return some rest
    | ['-'] => return some rest
    | sign :: letters =>
      if sign != '-' && sign != '+' then return some (word :: rest)
      else if letters = ['o'] then
        match rest with
        | [] => return none
        | name :: rest =>
          match longOptions.lookup name with
          | some option =>
            changeOption (sign == '-') option
            changeOptions rest
          | none => fail ("Illegal option -o " ++ name)
      else
        letters.forM fun letter => do
          if longOptions.any fun entry => entry.2 == letter then changeOption (sign == '-') letter
          else fail ("Illegal option -" ++ letter.toString)
        changeOptions rest
    | [] => return some (word :: rest)

/-- Changes the options and the arguments of the script. -/
def setOptions : Action := fun arguments => do
  if arguments.isEmpty then listVariables "" fun entry => entry.value.isSome
  match ← changeOptions arguments with
  | some words => modifyScope fun scope => { scope with arguments := words }
  | none => pure ()
  return 0

/-- Sets the variables that words name and marks them. -/
def markVariables (mark : Variable → Variable) (words : List String) : Eval Unit :=
  words.forM fun word => do
    let (name, value) := splitAssignment word
    if !isName name then fail (name ++ ": bad variable name")
    match value with
    | some value => setVariable name value
    | none => pure ()
    putVariable name (some (mark ((← binding? name).getD ⟨none, false, false⟩)))

/-- Marks variables, or lists those that have the mark. -/
def markOrList (name : String) (mark : Variable → Variable) (hasMark : Variable → Bool) : Action :=
  fun arguments => do
    let options := arguments.takeWhile fun word => word.startsWith "-" && word ≠ "-"
    let letters := options.flatMap fun option => option.toList.drop 1
    match letters.find? fun letter => letter != 'p' && letter != '-' with
    | some letter => fail ("Illegal option -" ++ letter.toString)
    | none =>
      let words := arguments.drop options.length
      if letters.contains 'p' || words.isEmpty then listVariables (name ++ " ") hasMark
      else markVariables mark words
      return 0

/-- Gives a function variables of its own. -/
def makeLocal : Action := fun arguments => do
  match (← scope).locals with
  | none => fail "not in a function"
  | some _ =>
    arguments.forM fun word => do
      let (name, value) := splitAssignment word
      if !isName name then fail (name ++ ": bad variable name")
      modifyScope fun scope => { scope with locals := scope.locals.map (name :: ·) }
      match value with
      | some value => setVariable name value
      | none => pure ()
    return 0

/-- Unsets variables or functions. -/
def unset : Action := fun arguments => do
  match arguments with
  | "-f" :: names =>
    modifyScope fun scope =>
      { scope with functions := scope.functions.filter fun entry => !names.contains entry.1 }
  | arguments =>
    let names := if arguments.head? = some "-v" then arguments.drop 1 else arguments
    names.forM fun name => do
      if isName name then unsetVariable name else fail (name ++ ": bad variable name")
  return 0

/-- Goes to another directory. -/
def changeDirectory : Action := fun arguments => do
  match arguments.filter fun word => word ≠ "--" ∧ word ≠ "-P" ∧ word ≠ "-L" with
  | [] => return 0
  | path :: _ =>
    let tree := (← get).tree
    match tree.locate (.ofText (Octets.decode path)) with
    | .ok location =>
      if tree.get? location = some .directory then
        modify fun machine => { machine with tree := { tree with workingDirectory := location } }
        return 0
      else fail ("can\x27t cd to " ++ path)
    | .error _ => fail ("can\x27t cd to " ++ path)

/-- Writes the path of the directory. -/
def printDirectory : Action := fun _ => do
  write 1 (Octets.encode (FileTree.absolute (← get).tree.workingDirectory).text ++ "\n")
  return 0

/-- The letters of a line that is read, each with a mark whether a backslash stood before it. A
backslash can join the next line. -/
def readLetters (isRaw : Bool) : List Char → List PatternLetter × Option (List Char)
  | [] => ([], none)
  | '\n' :: rest => ([], some rest)
  | '\\' :: c :: rest =>
    if isRaw then
      let (letters, after) := readLetters isRaw (c :: rest)
      (('\\', false) :: letters, after)
    else
      let (letters, after) := readLetters isRaw rest
      (if c == '\n' then letters else (c, true) :: letters, after)
  | c :: rest =>
    let (letters, after) := readLetters isRaw rest
    ((c, false) :: letters, after)

/-- Shares the letters of a line among variables; the last one takes what is left. -/
def shareLetters (separators : List Char) : List String → List PatternLetter →
    List (String × String)
  | [], _ => []
  | [name], letters =>
    let isBlank (l : PatternLetter) : Bool := !l.2 && isBlankSeparator separators l.1
    let kept := (letters.reverse.dropWhile isBlank).reverse
    [(name, String.ofList (kept.map Prod.fst))]
  | name :: rest, letters =>
    let isBlank (l : PatternLetter) : Bool := !l.2 && isBlankSeparator separators l.1
    let isSeparator (l : PatternLetter) : Bool := !l.2 && separators.contains l.1
    let field := letters.takeWhile fun l => !isSeparator l
    let after := (letters.drop field.length).dropWhile isBlank
    let after := match after with
      | l :: more => if isSeparator l then more.dropWhile isBlank else l :: more
      | [] => []
    (name, String.ofList (field.map Prod.fst)) :: shareLetters separators rest after

/-- Reads a line into variables. -/
def readVariables : Action := fun arguments => do
  let isRaw := arguments.head? = some "-r"
  let names := if isRaw then arguments.drop 1 else arguments
  if names.isEmpty then fail "arg count"
  let input ← readInput
  let (letters, after) := readLetters isRaw input.toList
  putBack (String.ofList (after.getD []))
  let separators ← separators
  let isBlank (l : PatternLetter) : Bool := !l.2 && isBlankSeparator separators l.1
  (shareLetters separators names (letters.dropWhile isBlank)).forM fun (name, value) => do
    if isName name then setVariable name value else fail (name ++ ": bad variable name")
  return if after.isNone then 1 else 0

/-- Waits for the commands beside the script: for the ones of the given numbers, or for all. -/
def waitForJobs : Action := fun arguments => do
  let isAwaited (job : Job) : Bool :=
    arguments.isEmpty || arguments.any fun word => word.toNat? = some job.number
  let awaited := (← get).jobs.filter isAwaited
  modify fun machine =>
    { machine with clock := awaited.foldl (fun time job => max time job.ending) machine.clock }
  match arguments.getLast? with
  | none => return 0
  | some word =>
    match awaited.find? fun job => word.toNat? = some job.number with
    | some job => return job.status
    | none => return 127

/-- The commands that a shell carries out itself, except those that run other commands. -/
def builtin? (name : String) : Option Action :=
  match name with
  | ":" => some fun _ => return 0
  | "true" => some fun _ => return 0
  | "false" => some fun _ => return 1
  | "echo" => some echo
  | "printf" => some printf
  | "test" => some test
  | "[" => some bracketTest
  | "exit" => some exit
  | "return" => some leaveFunction
  | "break" => some (leaveLoops .leave)
  | "continue" => some (leaveLoops .again)
  | "shift" => some shift
  | "set" => some setOptions
  | "export" => some (markOrList name (fun entry => { entry with isExported := true })
      Variable.isExported)
  | "readonly" => some (markOrList name (fun entry => { entry with isFixed := true })
      Variable.isFixed)
  | "local" => some makeLocal
  | "unset" => some unset
  | "cd" => some changeDirectory
  | "pwd" => some printDirectory
  | "read" => some readVariables
  | "wait" => some waitForJobs
  | "umask" => some changeMask
  | "getopts" => some getOption
  | "times" => some fun _ => do
    write 1 "0m0.000000s 0m0.000000s\n0m0.000000s 0m0.000000s\n"
    return 0
  | "hash" => some fun _ => return 0
  | "alias" => some makeAliases
  | "unalias" => some removeAliases
  | _ => none

end GrammarChart.Tool.Shell
