import GrammarChart.Tool.Script.Reading
import GrammarChart.Tool.Shell.Condition

/-!
# The state of a shell

A shell holds variables, functions, arguments and descriptors, and acts on files, buffers and a
clock. What a part of a script has for itself is its scope; the rest of the state is shared. A
command either comes to its end, with a status in the state, or breaks the flow of the script.
Nothing is waited for: the clock is moved on instead.
-/

set_option autoImplicit false

namespace GrammarChart.Tool.Shell

/-- What a descriptor leads to: a buffer, the end of a file, or nowhere. -/
inductive End where
  | buffer (number : Nat)
  | file (location : Location)
  | nowhere
  deriving DecidableEq, Repr

/-- A variable. -/
structure Variable where
  value : Option String
  isExported : Bool
  isFixed : Bool
  deriving Repr

/-- The directories in which a shell looks for programs. -/
def usualPath : String := "/usr/local/sbin:/usr/local/bin:/usr/sbin:/usr/bin:/sbin:/bin"

/-- The variables that a shell sets by itself. -/
def initialVariables : List (String × Variable) :=
  [("IFS", " \t\n"), ("OPTIND", "1"), ("PATH", usualPath), ("PS1", "# "), ("PS2", "> "),
    ("PS4", "+ ")].map fun (name, value) => (name, ⟨some value, false, false⟩)

/-- The variables that a shell does not take over from the one that starts it. -/
def ownVariables : List String := ["IFS", "OPTIND"]

/-- The variables of a shell that is started with the given ones. -/
def startingVariables (given : List (String × Variable)) : List (String × Variable) :=
  let given := given.filter fun entry => !ownVariables.contains entry.1
  given ++ initialVariables.filter fun entry => (given.lookup entry.1).isNone

/-- How far a script has read its options: the number of the word that is read next, and how many
characters of the word before it have been read, unless that is done. -/
structure OptionPlace where
  index : Nat
  offset : Option Nat
  deriving DecidableEq, Repr

/-- The place before the first option. -/
def OptionPlace.start : OptionPlace := ⟨1, none⟩

/-- What a script, or a part of it that runs apart, has for itself. -/
structure Scope where
  bindings : List (String × Variable)
  functions : List (String × Command)
  /-- The name of the script. -/
  name : String
  arguments : List String
  options : List Char
  traps : List (String × String)
  /-- The texts that stand for other commands. -/
  aliases : List (String × String)
  /-- The permissions that new files do not get. -/
  mask : Nat
  /-- How far the options have been read. -/
  place : OptionPlace
  descriptors : List (Nat × End)
  /-- The command that complains at present, when it has a name of its own. -/
  speaker : Option String
  /-- The line of the command that runs at present. -/
  line : Nat
  /-- The number of loops around the command that runs at present. -/
  loops : Nat
  /-- The variables that a function has for itself; nothing outside functions. -/
  locals : Option (List String)
  /-- The number of functions around the command that runs at present. -/
  depth : Nat
  /-- The number of the process. -/
  process : Nat

/-- A command that runs beside the script: its number, when it ends and with which status, and
whether it holds the outputs of the script. -/
structure Job where
  number : Nat
  ending : Nat
  status : Nat
  holdsOutput : Bool
  deriving Repr

/-- The state of a shell. -/
structure Machine where
  scope : Scope
  status : Nat
  tree : FileTree
  buffers : Array String
  /-- The buffers that hold files. -/
  opened : List Nat
  /-- The milliseconds since the start. -/
  clock : Nat
  /-- The moment at which a command that runs for a limited time is ended. -/
  deadline : Option Nat
  jobs : List Job
  /-- The number of the last process. -/
  processes : Nat
  /-- The number of parts that ran apart. -/
  parts : Nat
  /-- The status of the last command whose output a word took in. -/
  substituted : Nat

/-- What breaks the flow of a script. -/
inductive Flow where
  /-- The script ends. -/
  | exit
  /-- The script ends by an error of a command. -/
  | failure
  | leave (loops : Nat)
  | again (loops : Nat)
  | result
  /-- A process is ended by a signal. -/
  | killed (process signal : Nat)
  /-- The script does not end. -/
  | endless

/-- An action of a shell. -/
abbrev Eval := ExceptT Flow (StateM Machine)

/-- Runs an action and tells how it ended. -/
def attempt {α : Type} (action : Eval α) : Eval (Except Flow α) :=
  ExceptT.mk (do return .ok (← action.run))

/-- Ends as an attempt did. -/
def resume {α : Type} : Except Flow α → Eval α
  | .ok value => return value
  | .error flow => throw flow

/-- Runs an action, and undoes something afterwards, however it ends. -/
def restoring {α : Type} (action : Eval α) (undo : Eval Unit) : Eval α := do
  let ending ← attempt action
  undo
  resume ending

/-- Changes the scope. -/
def modifyScope (change : Scope → Scope) : Eval Unit :=
  modify fun machine => { machine with scope := change machine.scope }

/-- The scope. -/
def scope : Eval Scope := do return (← get).scope

/-- Sets the status. -/
def setStatus (status : Nat) : Eval Unit :=
  modify fun machine => { machine with status := status }

/-- The script has an option. -/
def hasOption (option : Char) : Eval Bool := do
  return (← scope).options.contains option

/-- Makes a buffer with a text. -/
def newBuffer (text : String) : Eval Nat :=
  modifyGet fun machine =>
    (machine.buffers.size, { machine with buffers := machine.buffers.push text })

/-- Makes a buffer with the text of a file. -/
def openBuffer (text : String) : Eval Nat := do
  let number ← newBuffer text
  modify fun machine => { machine with opened := number :: machine.opened }
  return number

/-- The input is a file. -/
def readsFile : Eval Bool := do
  let machine ← get
  match machine.scope.descriptors.lookup 0 with
  | some (.buffer number) => return machine.opened.contains number
  | _ => return false

/-- The buffers with a text added to one of them. -/
def addTo (buffers : Array String) (number : Nat) (text : String) : Array String :=
  buffers.modify number (· ++ text)

/-- The tree with a text added to a file. -/
def appended (tree : FileTree) (location : Location) (text : String) : FileTree :=
  let before := match tree.get? location with
    | some (.file content) => content.bytes
    | _ => []
  tree.put location (.file (.ofBytes (before ++ Octets.toBytes text)))

/-- Writes a text to what a descriptor leads to. -/
def writeTo (place : End) (text : String) : Eval Unit :=
  modify fun machine =>
    match place with
    | .buffer number => { machine with buffers := addTo machine.buffers number text }
    | .file location => { machine with tree := appended machine.tree location text }
    | .nowhere => machine

/-- Writes a text to a descriptor. -/
def write (descriptor : Nat) (text : String) : Eval Unit := do
  match (← scope).descriptors.lookup descriptor with
  | some place => writeTo place text
  | none => return ()

/-- Takes everything that can be read from the input. -/
def readInput : Eval String := do
  match (← scope).descriptors.lookup 0 with
  | some (.buffer number) =>
    let text := ((← get).buffers[number]?).getD ""
    modify fun machine => { machine with buffers := machine.buffers.modify number fun _ => "" }
    return text
  | _ => return ""

/-- Puts back what was taken from the input and not used. -/
def putBack (text : String) : Eval Unit := do
  match (← scope).descriptors.lookup 0 with
  | some (.buffer number) =>
    modify fun machine =>
      { machine with buffers := machine.buffers.modify number fun rest => text ++ rest }
  | _ => return ()

/-- Writes a complaint of the script, from the given line. -/
def complainAt (line : Nat) (message : String) : Eval Unit := do
  let scope ← scope
  let speaker := (scope.speaker.map (· ++ ": ")).getD ""
  write 2 (scope.name ++ ": " ++ toString line ++ ": " ++ speaker ++ message ++ "\n")

/-- Writes a complaint of the script. -/
def complain (message : String) : Eval Unit := do
  complainAt (← scope).line message

/-- Ends a command by an error. -/
def fail {α : Type} (message : String) : Eval α := do
  complain message
  setStatus 2
  throw .failure

/-- The variable of a name. -/
def binding? (name : String) : Eval (Option Variable) := do
  return (← scope).bindings.lookup name

/-- Lists a variable for a name, or nothing. -/
def putVariable (name : String) (entry : Option Variable) : Eval Unit :=
  modifyScope fun scope =>
    let others := scope.bindings.filter fun other => other.1 != name
    { scope with
      bindings := match entry with
        | some entry => (name, entry) :: others
        | none => others }

/-- Sets a variable and nothing else. -/
def assignVariable (name value : String) : Eval Unit := do
  let before := (← binding? name).getD ⟨none, (← hasOption 'a'), false⟩
  if before.isFixed then fail (name ++ ": is read only")
  putVariable name (some { before with value := some value })

/-- Starts to read options anew at a word whose number is given by its text. -/
def restartOptions (text : String) : Eval Unit := do
  match text.toNat? with
  | some number =>
    if !text.toList.all Char.isDigit then fail ("Illegal number: " ++ text)
    modifyScope fun scope => { scope with place := ⟨max number 1, none⟩ }
  | none => fail ("Illegal number: " ++ text)

/-- Sets a variable. The number of the next word with options decides where they are read. -/
def setVariable (name value : String) : Eval Unit := do
  if name = "OPTIND" then restartOptions value
  assignVariable name value

/-- Unsets a variable. -/
def unsetVariable (name : String) : Eval Unit := do
  match ← binding? name with
  | some before =>
    if before.isFixed then fail (name ++ ": is read only")
    if name = "OPTIND" then restartOptions ""
    putVariable name none
  | none => return ()

/-- The value of a parameter, unless it is unset. -/
def parameter? (name : String) : Eval (Option String) := do
  let machine ← get
  let scope := machine.scope
  match name with
  | "?" => return some (toString machine.status)
  | "#" => return some (toString scope.arguments.length)
  | "$" => return some (toString scope.process)
  | "-" => return some (String.ofList scope.options)
  | "!" => return (machine.jobs.head?.map fun job => toString job.number)
  | "0" => return some scope.name
  | name =>
    match name.toNat?, scope.bindings.lookup name with
    | some number, _ => return scope.arguments[number - 1]?
    | none, some entry => return entry.value
    | none, none =>
      if name ≠ "PWD" then return none
      else return some (Octets.encode (FileTree.absolute machine.tree.workingDirectory).text)

/-- The directories for programs. -/
def programDirectories : List String := ["/bin", "/usr/bin"]

/-- A list of directories leads to the programs. -/
def leadsToPrograms (path : String) : Bool :=
  (path.toList.splitOn ':').any fun directory =>
    programDirectories.contains (String.ofList (directory.reverse.dropWhile (· == '/')).reverse)

/-- Programs are found by their names alone. -/
def findsPrograms (scope : Scope) : Bool :=
  ((scope.bindings.lookup "PATH").bind Variable.value).any leadsToPrograms

/-- The characters that separate fields. -/
def separators : Eval (List Char) := do
  return ((← parameter? "IFS").getD " \t\n").toList

/-- The last moment of the clock at which a command still holds the outputs of the script. -/
def Machine.ending (machine : Machine) : Nat :=
  (machine.jobs.filter Job.holdsOutput).foldl (fun time job => max time job.ending) machine.clock

end GrammarChart.Tool.Shell
