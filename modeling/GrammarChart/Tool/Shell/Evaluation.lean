import GrammarChart.Tool.Shell.Builtins
import GrammarChart.Tool.Shell.Signals
import GrammarChart.Tool.Shell.Toolbox

/-!
# Evaluation of scripts

Words are expanded and commands are run, one after the other: a pipeline runs its stages in order,
each reading what the one before has written, and a command beside the script runs at once. All
commands share the files and the clock; a part that runs apart keeps its own scope. Every function
is given the number of steps that it may take; a script that needs more of them does not end.
-/

set_option autoImplicit false

namespace GrammarChart.Tool.Shell

/-- A script that took all its steps. -/
def outOfSteps {α : Type} : Eval α := throw .endless

/-- Removes the line ends at the end of a text. -/
def withoutLineEnds (text : String) : String :=
  String.ofList (text.toList.reverse.dropWhile (· == '\n')).reverse

/-- The atoms of the arguments of a script. -/
def argumentAtoms (arguments : List String) (quoted : Bool) : List Atom :=
  let atoms (argument : String) : List Atom :=
    if quoted then .edge :: atomsOf argument.toList true false
    else atomsOf argument.toList false true
  [Atom.gap].intercalate (arguments.map atoms)

/-- Opens a file for a redirection. -/
def openFile (access : Access) (path : String) : Eval End := do
  let isWritten := access != .input
  let refuse (problem : FileProblem) : Eval End := do
    let reason := match problem with
      | .notFound => if isWritten then "Directory nonexistent" else "No such file"
      | problem => problem.message
    fail ((if isWritten then "cannot create " else "cannot open ") ++ path ++ ": " ++ reason)
  if path = "/dev/null" then return .nowhere
  if path = "/dev/stdout" ∨ path = "/dev/stderr" then
    let descriptor := if path = "/dev/stdout" then 1 else 2
    return ((← scope).descriptors.lookup descriptor).getD .nowhere
  match ← locationOf path with
  | .error problem => refuse problem
  | .ok location =>
    match (← get).tree.get? location, access with
    | some .directory, .input => return .nowhere
    | some .directory, _ => refuse .isADirectory
    | none, .input => refuse .notFound
    | some (.file content), .input => return .buffer (← openBuffer (fileText content))
    | some (.file _), .append => return .file location
    | _, _ =>
      modify fun machine => { machine with tree := machine.tree.put location (.file (.plain "")) }
      return .file location

/-- Lets a descriptor lead to another end, or to none. -/
def connect (descriptor : Nat) (place : Option End) : Eval Unit :=
  modifyScope fun scope =>
    let others := scope.descriptors.filter fun entry => entry.1 != descriptor
    { scope with
      descriptors := match place with
        | some place => (descriptor, place) :: others
        | none => others }

/-- The scope of a script that is started by another one. -/
def freshScope (outer : Scope) (process : Nat) : Scope :=
  { outer with
    bindings := startingVariables ((outer.bindings.filter fun entry =>
      entry.2.isExported && entry.2.value.isSome).map fun entry =>
        (entry.1, { entry.2 with isFixed := false }))
    functions := [], name := "sh", arguments := [], options := [], traps := [], aliases := []
    place := .start, speaker := none
    line := 0, loops := 0, locals := none, depth := 0, process := process }

/-- The commands that a shell carries out itself. -/
def isBuiltin (name : String) : Bool :=
  specialCommands.contains name || (builtin? name).isSome ||
    ["command", "kill", "type"].contains name

/-- The programs that are also commands of the shell. -/
def doubledPrograms : List String :=
  ["true", "false", "echo", "printf", "test", "[", "pwd", "kill"]

/-- The programs that start other ones. -/
def startingPrograms : List String := ["sh", "dash", "env", "find", "xargs", "timeout", "nohup"]

/-- The name of a program in one of the directories for programs. -/
def programName (name : String) : String :=
  match ["/bin/", "/usr/bin/"].find? fun directory => name.startsWith directory with
  | some directory => String.ofList (name.toList.drop directory.length)
  | none => name

/-- There is a program of this name. -/
def isProgram (name : String) : Bool :=
  startingPrograms.contains name || (utility? name).isSome || doubledPrograms.contains name

/-- How a command is found, told in one line; nothing when it is not found. -/
def location? (scope : Scope) (name : String) (isTold : Bool) : Option String :=
  let told (text : String) : String := if isTold then name ++ " is " ++ text else name
  if reservedWords.contains name then some (told "a shell keyword")
  else if specialCommands.contains name then some (told "a special shell builtin")
  else if (scope.functions.lookup name).isSome then some (told "a shell function")
  else if isBuiltin name then some (told "a shell builtin")
  else if isProgram name && findsPrograms scope then
    some (if isTold then name ++ " is /usr/bin/" ++ name else "/usr/bin/" ++ name)
  else none

/-- Tells how commands are found. -/
def tellLocations (isTold : Bool) (names : List String) : Eval Nat := do
  let scope ← scope
  let found := names.map fun name => location? scope name isTold
  (names.zip found).forM fun (name, line) =>
    match line with
    | some line => write 1 (line ++ "\n")
    | none => if isTold then write 1 (name ++ ": not found\n") else return ()
  return if found.all Option.isSome then 0 else 127

/-- Shows a command that is about to run. -/
def trace (words : List String) : Eval Unit := do
  if ← hasOption 'x' then
    let mark := (← parameter? "PS4").getD "+ "
    write 2 (mark ++ " ".intercalate words ++ "\n")

/-- Ends the script after a command that failed, if it is to end then. -/
def checkStatus (isTested : Bool) : Eval Unit := do
  if (← get).status ≠ 0 && !isTested && (← hasOption 'e') then throw .exit

/-- Sets what is to be done on signals. -/
def setTraps : List String → Eval Nat
  | [] => do
    let traps := (← scope).traps
    ("EXIT" :: signalNames).forM fun name =>
      match traps.lookup name with
      | some text => write 1 ("trap -- " ++ inPlainMarks text ++ " " ++ name ++ "\n")
      | none => return ()
    return 0
  | words => do
    let words := if words.head? = some "--" then words.drop 1 else words
    let (text, names) := match words with
      | [name] => (none, [name])
      | "-" :: names => (none, names)
      | text :: names => if text.toNat?.isSome then (none, words) else (some text, names)
      | [] => (none, [])
    let statuses ← names.mapM fun word => do
      match signal? word with
      | none =>
        write 2 ("trap: " ++ word ++ ": bad trap\n")
        return 1
      | some number =>
        let name := signalName number
        modifyScope fun scope =>
          let others := scope.traps.filter fun entry => entry.1 != name
          { scope with
            traps := match text with
              | some text => (name, text) :: others
              | none => others }
        return 0
    return statuses.foldl max 0

/-- How deep functions may run in each other. -/
def maxDepth : Nat := 1000

/-- How many parts of a script may run apart. -/
def maxParts : Nat := 20000

/-- Runs an action apart: it has a scope and a directory of its own. -/
def apart (action : Eval Unit) : Eval Unit := do
  modify fun machine => { machine with parts := machine.parts + 1 }
  let outer ← get
  if maxParts < outer.parts then throw .endless
  let ending ← attempt action
  modify fun machine =>
    { machine with
      scope := outer.scope
      tree := { machine.tree with workingDirectory := outer.tree.workingDirectory } }
  match ending with
  | .error (.killed process signal) => throw (.killed process signal)
  | .error .endless => throw .endless
  | _ => return ()

/-- The flow out of a round of a loop ends the loop. -/
def endsLoop : Flow → Eval Bool
  | .leave 1 => return true
  | .leave loops => throw (.leave (loops - 1))
  | .again 1 => return false
  | .again loops => throw (.again (loops - 1))
  | flow => throw flow

mutual

/-- Expands a word to atoms. The flag tells that unquoted letters of it can be split. -/
def expandWord : Nat → Bool → Word → Eval (List Atom)
  | 0, _, _ => outOfSteps
  | n + 1, splits, word => do
    let atoms ← word.mapM (expandPart n splits)
    return atoms.flatten
termination_by structural n => n

/-- Expands a part of a word to atoms. -/
def expandPart : Nat → Bool → Part → Eval (List Atom)
  | 0, _, _ => outOfSteps
  | n + 1, splits, part => do
    match part with
    | .text text quoted =>
      return if quoted && text.isEmpty then [.edge] else atomsOf text quoted (splits && !quoted)
    | .parameter name use quoted => expandParameter n name use quoted
    | .output body quoted =>
      let text ← outputOf n body
      return atomsOf (withoutLineEnds text).toList quoted (!quoted)
    | .sum expression quoted =>
      let text ← expandText n expression
      let bindings := (← scope).bindings
      match Sum.valueOf (fun name => (bindings.lookup name).bind Variable.value) text with
      | .ok (value, assigned) =>
        assigned.reverse.forM fun (name, value) => setVariable name (toString value)
        return atomsOf (toString value).toList quoted (!quoted)
      | .error message => fail message
termination_by structural n => n

/-- Expands a parameter to atoms. -/
def expandParameter : Nat → String → Use → Bool → Eval (List Atom)
  | 0, _, _, _ => outOfSteps
  | n + 1, name, use, quoted => do
    let arguments := (← scope).arguments
    let isAll := name = "@" ∨ name = "*"
    let separators ← separators
    let joined := (String.ofList (separators.take 1)).intercalate arguments
    let value ← if isAll then pure (if arguments.isEmpty then none else some joined)
      else parameter? name
    let atoms : List Atom :=
      if isAll then
        if name = "*" && quoted then atomsOf joined.toList true false
        else argumentAtoms arguments quoted
      else atomsOf (value.getD "").toList quoted (!quoted)
    let demand : Eval Unit := do
      if value.isNone && !isAll && (← hasOption 'u') then fail (name ++ ": parameter not set")
    match use with
    | .bad => fail "Bad substitution"
    | .value =>
      demand
      return atoms
    | .length =>
      demand
      return atomsOf (toString (value.getD "").length).toList quoted (!quoted)
    | .without atEnd longest pattern =>
      demand
      let letters := lettersOf (← expandWord n false pattern)
      return atomsOf (without atEnd longest (patternOf letters) (value.getD "").toList) quoted
        (!quoted)
    | .resort resort orEmpty word =>
      let isSet := value.isSome && !(orEmpty && value = some "")
      match resort, isSet with
      | .nothing, true => expandWord n (!quoted) word
      | .nothing, false => return []
      | _, true => return atoms
      | .word, false => expandWord n (!quoted) word
      | .assign, false =>
        let text ← expandText n word
        if !isName name then fail (name ++ ": bad variable name")
        setVariable name text
        return atomsOf text.toList quoted (!quoted)
      | .stop, false =>
        let text ← expandText n word
        let missing := if orEmpty then "parameter not set or null" else "parameter not set"
        fail (name ++ ": " ++ if word.isEmpty then missing else text)
termination_by structural n => n

/-- Expands a word to one text. -/
def expandText : Nat → Word → Eval String
  | 0, _ => outOfSteps
  | n + 1, word => do return textOfAtoms (← expandWord n false word)
termination_by structural n => n

/-- Expands words to fields. -/
def expandFields : Nat → List Word → Eval (List String)
  | 0, _ => outOfSteps
  | n + 1, words => do
    let fields ← words.mapM fun word => do fieldsOfAtoms (← expandWord n false word)
    return fields.flatten
termination_by structural n => n

/-- The output of a command. -/
def outputOf : Nat → Command → Eval String
  | 0, _ => outOfSteps
  | n + 1, body => do
    let number ← newBuffer ""
    let before := (← get).status
    runApart n (do
      connect 1 (some (.buffer number))
      run n false body)
    let machine ← get
    set { machine with substituted := machine.status, status := before }
    let text := (machine.buffers[number]?).getD ""
    return String.ofList (text.toList.filter (· != '\x00'))
termination_by structural n => n

/-- Runs an action apart, with what it wants to be done at its end. -/
def runApart : Nat → Eval Unit → Eval Unit
  | 0, _ => outOfSteps
  | n + 1, action =>
    apart (do
      modifyScope fun scope => { scope with traps := [], loops := 0 }
      let ending ← attempt action
      runEnding n
      resume ending)
termination_by structural n => n

/-- Runs what is to be done at the end of a script. -/
def runEnding : Nat → Eval Unit
  | 0 => outOfSteps
  | n + 1 => do
    match (← scope).traps.lookup "EXIT" with
    | none => return ()
    | some text =>
      let status := (← get).status
      modifyScope fun scope => { scope with traps := [] }
      match ← attempt (runText n false (.ofText text 1)) with
      | .error .exit => return ()
      | .error .failure => return ()
      | ending =>
        setStatus status
        resume ending
termination_by structural n => n

/-- Runs the lines of a text. -/
def runText : Nat → Bool → Source → Eval Unit
  | 0, _, _ => outOfSteps
  | n + 1, isTested, source => do
    match Script.readLine.run { source with aliases := (← scope).aliases } with
    | .error refusal =>
      complainAt refusal.line ("Syntax error: " ++ refusal.message)
      setStatus 2
      throw .failure
    | .ok (none, _) => return ()
    | .ok (some command, rest) =>
      run n isTested command
      runText n isTested rest
termination_by structural n => n

/-- Carries out redirections, one after the other. -/
def redirect : Nat → List Redirection → Eval Unit
  | 0, _ => outOfSteps
  | _ + 1, [] => return ()
  | n + 1, .mk descriptor target :: rest => do
    match target with
    | .file access name =>
      let path ← expandText n name
      connect descriptor (some (← openFile access path))
    | .document text =>
      let text ← expandText n text
      connect descriptor (some (.buffer (← newBuffer text)))
    | .copy source =>
      let text ← expandText n source
      if text = "-" then connect descriptor none
      else
        match text.toNat? with
        | none => fail "Bad fd number"
        | some number =>
          match (← scope).descriptors.lookup number with
          | some place => connect descriptor (some place)
          | none => fail (text ++ ": Bad file descriptor")
    redirect n rest
termination_by structural n => n

/-- Runs an action with redirections, which are taken back afterwards. A redirection that fails is
the failure of the whole, and ends the script if that is asked for. -/
def runRedirected : Nat → Bool → List Redirection → Eval Unit → Eval Unit
  | 0, _, _, _ => outOfSteps
  | n + 1, isFatal, redirections, action => do
    let outer := (← scope).descriptors
    let undo := modifyScope fun scope => { scope with descriptors := outer }
    match ← attempt (redirect n redirections) with
    | .ok _ => restoring action undo
    | .error .failure =>
      undo
      if isFatal then throw .failure
    | .error flow => throw flow
termination_by structural n => n

/-- Runs a command. The flag tells that its status is tested, so that a failure does not end the
script. -/
def run : Nat → Bool → Command → Eval Unit
  | 0, _, _ => outOfSteps
  | n + 1, isTested, command => do
    if ← hasOption 'n' then return ()
    match command with
    | .empty => return ()
    | .simple line assignments words redirections =>
      runSimple n isTested line assignments words redirections
      checkStatus isTested
    | .negation body =>
      run n true body
      modify fun machine => { machine with status := if machine.status = 0 then 1 else 0 }
    | .pipeline stages =>
      runStages n isTested (← get).clock none stages
      checkStatus isTested
    | .both first second =>
      -- Only the status of the last command that is run may end the script.
      run n true first
      if (← get).status = 0 then run n isTested second
    | .either first second =>
      run n true first
      if (← get).status ≠ 0 then run n isTested second
    | .sequence first second =>
      run n isTested first
      run n isTested second
    | .background body => runBeside n isTested body
    | .redirected (.subshell body) redirections =>
      -- The redirections are made within the subshell, so they are gone with it.
      runApart n (do
        redirect n redirections
        run n isTested body)
      checkStatus isTested
    | .redirected body redirections => runRedirected n false redirections (run n isTested body)
    | .group body => run n isTested body
    | .subshell body =>
      runApart n (run n isTested body)
      checkStatus isTested
    | .choice condition body otherwise =>
      run n true condition
      if (← get).status = 0 then run n isTested body
      else match otherwise with
        | .empty => setStatus 0
        | otherwise => run n isTested otherwise
    | .loop isUntil condition body =>
      let loops := (← scope).loops
      modifyScope fun scope => { scope with loops := loops + 1 }
      restoring (runLoop n isTested isUntil condition body 0)
        (modifyScope fun scope => { scope with loops := loops })
    | .iteration name words body =>
      let values ← match words with
        | some words => expandFields n words
        | none => pure (← scope).arguments
      let loops := (← scope).loops
      modifyScope fun scope => { scope with loops := loops + 1 }
      setStatus 0
      restoring (runIteration n isTested name values body)
        (modifyScope fun scope => { scope with loops := loops })
    | .selection subject branches =>
      let text ← expandText n subject
      setStatus 0
      runSelection n isTested text.toList branches
    | .definition name body =>
      modifyScope fun scope =>
        let others := scope.functions.filter fun entry => entry.1 != name
        { scope with functions := (name, body) :: others }
      setStatus 0
termination_by structural n => n

/-- Runs the rounds of a loop; the number is the status of the last one. -/
def runLoop : Nat → Bool → Bool → Command → Command → Nat → Eval Unit
  | 0, _, _, _, _, _ => outOfSteps
  | n + 1, isTested, isUntil, condition, body, status => do
    let round : Eval (Option Nat) := do
      run n true condition
      if ((← get).status = 0) = isUntil then return none
      run n isTested body
      return some (← get).status
    match ← attempt round with
    | .ok none => setStatus status
    | .ok (some status) => runLoop n isTested isUntil condition body status
    | .error flow =>
      if ← endsLoop flow then return () else runLoop n isTested isUntil condition body 0
termination_by structural n => n

/-- Runs the rounds of an iteration. -/
def runIteration : Nat → Bool → String → List String → Command → Eval Unit
  | 0, _, _, _, _ => outOfSteps
  | _ + 1, _, _, [], _ => return ()
  | n + 1, isTested, name, value :: rest, body => do
    setVariable name value
    match ← attempt (run n isTested body) with
    | .ok _ => runIteration n isTested name rest body
    | .error flow =>
      if ← endsLoop flow then return () else runIteration n isTested name rest body
termination_by structural n => n

/-- Runs the first branch of which a pattern describes the text. -/
def runSelection : Nat → Bool → List Char → List (List Word × Command) → Eval Unit
  | 0, _, _, _ => outOfSteps
  | _ + 1, _, _, [] => return ()
  | n + 1, isTested, text, (patterns, body) :: rest => do
    if ← isDescribed n text patterns then run n isTested body
    else runSelection n isTested text rest
termination_by structural n => n

/-- One of the patterns describes the text. -/
def isDescribed : Nat → List Char → List Word → Eval Bool
  | 0, _, _ => outOfSteps
  | _ + 1, _, [] => return false
  | n + 1, text, pattern :: rest => do
    let letters := lettersOf (← expandWord n false pattern)
    if accepts (patternOf letters) text then return true else isDescribed n text rest
termination_by structural n => n

/-- Runs the stages of a pipeline, all of which start at the same time. -/
def runStages : Nat → Bool → Nat → Option Nat → List Command → Eval Unit
  | 0, _, _, _, _ => outOfSteps
  | _ + 1, _, _, _, [] => return ()
  | n + 1, isTested, start, input, stage :: rest => do
    let before := (← get).clock
    modify fun machine => { machine with clock := start }
    let output ← newBuffer ""
    runApart n (do
      if let some input := input then connect 0 (some (.buffer input))
      if !rest.isEmpty then connect 1 (some (.buffer output))
      run n isTested stage)
    modify fun machine => { machine with clock := max before machine.clock }
    runStages n isTested start (some output) rest
termination_by structural n => n

/-- Runs a command beside the script. -/
def runBeside : Nat → Bool → Command → Eval Unit
  | 0, _, _ => outOfSteps
  | n + 1, isTested, body => do
    let before ← get
    let number := before.processes + 1
    set { before with processes := number }
    let body := match body with
      | .redirected body redirections => Command.redirected (.subshell body) redirections
      | body => body
    runApart n (do
      connect 0 (some .nowhere)
      run n isTested body)
    let holds := match body with
      | .simple _ _ _ redirections => redirections.isEmpty
      | .redirected .. => false
      | _ => true
    modify fun machine =>
      { machine with
        jobs := ⟨number, machine.clock, machine.status, holds⟩ :: machine.jobs
        clock := before.clock, status := 0 }
termination_by structural n => n

/-- Runs a simple command. -/
def runSimple : Nat → Bool → Nat → List (String × Word) → List Word → List Redirection →
    Eval Unit
  | 0, _, _, _, _, _ => outOfSteps
  | n + 1, isTested, line, assignments, words, redirections => do
    modifyScope fun scope => { scope with line := line }
    modify fun machine => { machine with substituted := 0 }
    let fields ← expandFields n words
    let assign : Eval (List String) :=
      assignments.mapM fun (name, value) => do
        let text ← expandText n value
        setVariable name text
        return name ++ "=" ++ text
    match fields with
    | [] =>
      runRedirected n false redirections (do
        let told ← assign
        if !told.isEmpty then trace told
        setStatus (← get).substituted)
    | "exec" :: arguments =>
      let arguments := if arguments.head? = some "--" then arguments.drop 1 else arguments
      redirect n redirections
      let told ← assign
      trace (told ++ fields)
      if arguments.isEmpty then setStatus 0
      else
        modifyScope fun scope => { scope with speaker := some "exec", traps := [] }
        runProgram n arguments
        throw .exit
    | name :: arguments =>
      let isSpecial := specialCommands.contains name
      let outer := (← scope).bindings
      let undo : Eval Unit := do
        if !isSpecial then assignments.forM fun (name, _) => putVariable name (outer.lookup name)
      runRedirected n isSpecial redirections (do
        let told ← assign
        if !isSpecial then
          assignments.forM fun (name, _) => do
            putVariable name ((← binding? name).map fun entry => { entry with isExported := true })
        trace (told ++ fields)
        restoring (runNamed n isTested true name arguments) undo)
termination_by structural n => n

/-- Runs a command of the given name: a function, if functions are asked for, or another one. -/
def runNamed : Nat → Bool → Bool → String → List String → Eval Unit
  | 0, _, _, _, _ => outOfSteps
  | n + 1, isTested, withFunctions, name, arguments => do
    let isSpecial := specialCommands.contains name
    let scope ← scope
    let functions := if withFunctions && !isSpecial then scope.functions else []
    match functions.lookup name with
    | some body => runFunction n isTested body arguments
    | none =>
      if !isBuiltin name then runProgram n (name :: arguments)
      else
        let speaker := scope.speaker
        modifyScope fun scope => { scope with speaker := some name }
        let action := restoring (runBuiltin n isTested name arguments)
          (modifyScope fun scope => { scope with speaker := speaker })
        match ← attempt action with
        | .ok status => setStatus status
        | .error .failure => if isSpecial && withFunctions then throw .failure
        | .error flow => throw flow
termination_by structural n => n

/-- Runs a function. -/
def runFunction : Nat → Bool → Command → List String → Eval Unit
  | 0, _, _, _ => outOfSteps
  | n + 1, isTested, body, arguments => do
    let outer ← scope
    if maxDepth < outer.depth then
      fail ("Maximum function recursion depth (" ++ toString maxDepth ++ ") reached")
    modifyScope fun scope =>
      { scope with
        arguments := arguments, loops := 0, locals := some [], depth := outer.depth + 1
        place := .start }
    let ending ← attempt (run n isTested body)
    let own := ((← scope).locals.getD []).eraseDups
    own.forM fun name => putVariable name (outer.bindings.lookup name)
    modifyScope fun scope =>
      { scope with
        arguments := outer.arguments, loops := outer.loops, locals := outer.locals
        depth := outer.depth, place := outer.place }
    match ending with
    | .error .result => return ()
    | ending => resume ending
termination_by structural n => n

/-- Runs a command that the shell carries out itself. -/
def runBuiltin : Nat → Bool → String → List String → Eval Nat
  | 0, _, _, _ => outOfSteps
  | n + 1, isTested, name, arguments => do
    match name, arguments with
    | "eval", words =>
      setStatus 0
      runText n isTested (.ofText (" ".intercalate words) (← scope).line)
      return (← get).status
    | ".", path :: _ =>
      if !path.toList.contains '/' then fail (path ++ ": not found")
      match ← readFile path with
      | .ok text =>
        setStatus 0
        match ← attempt (runText n false (.ofText text 1)) with
        | .error .result => return (← get).status
        | ending =>
          resume ending
          return (← get).status
      | .error .notFound => fail ("cannot open " ++ path ++ ": No such file")
      | .error problem => fail ("cannot open " ++ path ++ ": " ++ problem.message)
    | ".", [] => fail "filename argument required"
    | "trap", words => setTraps words
    | "kill", words => sendSignal n words
    | "type", words => tellLocations true words
    | "command", "-v" :: words => tellLocations false (words.take 1)
    | "command", "-V" :: words => tellLocations true (words.take 1)
    | "command", words =>
      let words := words.filter fun word => word ≠ "-p" && word ≠ "--"
      modifyScope fun scope => { scope with speaker := none }
      match words with
      | [] => return 0
      | name :: arguments =>
        runNamed n isTested false name arguments
        return (← get).status
    | name, arguments =>
      match builtin? name with
      | some action => action arguments
      | none => return 0
termination_by structural n => n

/-- Sends a signal to processes. -/
def sendSignal : Nat → List String → Eval Nat
  | 0, _ => outOfSteps
  | _ + 1, "-l" :: words => do
    match words with
    | [] => write 1 (String.join ("0\n" :: signalNames.map (· ++ "\n")))
    | word :: _ =>
      match word.toNat? with
      | some number => write 1 (signalName (number % 128) ++ "\n")
      | none => fail ("invalid signal number or exit status: " ++ word)
    return 0
  | n + 1, words => do
    match killArguments words with
    | .error message => fail message
    | .ok (_, []) =>
      fail ("Usage: kill [-s sigspec | -signum | -sigspec] [pid | job]... or\n" ++
        "kill -l [exitstatus]")
    | .ok (signal, processes) =>
      let statuses ← processes.mapM fun word => do
        let machine ← get
        let isJob (job : Job) : Bool := word.toNat? = some job.number
        if word.toNat? = some machine.scope.process then
          match machine.scope.traps.lookup (signalName signal) with
          | some text =>
            if signal = 9 then throw (.killed machine.scope.process signal)
            runText n false (.ofText text 1)
            return 0
          | none =>
            if harmlessSignals.contains signal then return 0
            throw (.killed machine.scope.process signal)
        else if machine.jobs.any isJob then
          let ended := machine.jobs.map fun job =>
            if isJob job then { job with ending := min job.ending machine.clock } else job
          set { machine with jobs := ended }
          return 0
        else if (word.toNat?).isNone then fail ("Illegal number: " ++ word)
        else
          complain "No such process\n"
          return 1
      return statuses.foldl max 0
termination_by structural n => n

/-- Runs a program. -/
def runProgram : Nat → List String → Eval Unit
  | 0, _ => outOfSteps
  | _ + 1, [] => return ()
  | n + 1, name :: arguments => do
    let program := programName name
    if program = name ∧ !findsPrograms (← scope) then
      complain (name ++ if name = "" then ": Permission denied" else ": not found")
      setStatus 127
    else if program = "sh" ∨ program = "dash" then runShell n name arguments
    else if program = "env" then
      let isPlain (word : String) : Bool := !word.toList.contains '=' && word ≠ "-i" && word ≠ "-"
      let words := arguments.dropWhile fun word => !isPlain word
      let given := arguments.takeWhile fun word => !isPlain word
      -- The variables that are given hold for the program only.
      let outer := (← scope).bindings
      restoring (do
        if given.contains "-i" || given.contains "-" then
          modifyScope fun scope => { scope with bindings := startingVariables [] }
        markVariables (fun entry => { entry with isExported := true })
          (given.filter (·.toList.contains '='))
        if words.isEmpty then setStatus (← printEnvironment [])
        else runProgram n words) (modifyScope fun scope => { scope with bindings := outer })
    else if program = "find" then
      setStatus (← find (fun words => do
        runProgram n words
        return (← get).status) arguments)
    else if program = "xargs" then
      setStatus (← xargs (fun words => do
        let name := words.headD ""
        if !name.toList.contains '/' && !isProgram name then return none
        runProgram n words
        return (← get).status) arguments)
    else if program = "nohup" then runProgram n arguments
    else if program = "timeout" then
      match arguments with
      | limit :: name :: words =>
        match duration? limit with
        | some (some limit) =>
          let before ← get
          -- A program that would never end is ended when the clock of the machine is there.
          let deadline := before.clock + limit
          if limit ≠ 0 then set { before with deadline := some deadline }
          let ending ← attempt (runProgram n (name :: words))
          modify fun machine => { machine with deadline := before.deadline }
          match ending, limit with
          | .error .endless, _ + 1 =>
            modify fun machine => { machine with clock := deadline }
            setStatus 124
          | ending, _ => resume ending
        | some none => runProgram n (name :: words)
        | none =>
          setStatus (← misuseWith 125 "timeout" ("invalid time interval " ++ inCurlyMarks limit))
      | _ =>
        write 2 "Try \x27timeout --help\x27 for more information.\n"
        setStatus 125
    else match utility? program with
      | some action => setStatus (← action arguments)
      | none =>
        if program ≠ name && doubledPrograms.contains program then
          runNamed n false false program arguments
        else if doubledPrograms.contains name then runNamed n false false name arguments
        else
          let isThere ← if name.toList.contains '/' then do
              match ← locationOf name with
              | .ok location => pure ((← get).tree.get? location).isSome
              | .error problem => pure (problem == .notADirectory)
            else pure false
          if isThere then
            complain (name ++ ": Permission denied")
            setStatus 126
          else
            complain (name ++ if name = "" then ": Permission denied" else ": not found")
            setStatus 127
termination_by structural n => n

/-- Runs a script in a shell of its own, which is a process of the given number. -/
def runProcess : Nat → Nat → String → List String → Eval Unit
  | 0, _, _, _ => outOfSteps
  | n + 1, process, name, arguments =>
    apart (do
      modifyScope fun scope => { freshScope scope process with name := name }
      let ending ← attempt (runArguments n arguments)
      match ending with
      | .error .endless => throw .endless
      | .error (.killed process signal) => throw (.killed process signal)
      | _ => runEnding n)
termination_by structural n => n

/-- Runs a script in a shell of its own, and tells when that is ended by a signal. -/
def runShell : Nat → String → List String → Eval Unit
  | 0, _, _ => outOfSteps
  | n + 1, name, arguments => do
    let before ← get
    let process := before.processes + 1
    set { before with processes := process }
    match ← attempt (runProcess n process name arguments) with
    | .error (.killed number signal) =>
      if number = process then
        write 2 (((signalTexts.lookup signal).map (· ++ "\n")).getD "")
        setStatus (128 + signal)
      else throw (.killed number signal)
    | ending => resume ending
termination_by structural n => n

/-- Runs the script that the arguments of a shell name. -/
def runArguments : Nat → List String → Eval Unit
  | 0, _ => outOfSteps
  | n + 1, arguments => do
    let isOption (word : String) : Bool :=
      (word.startsWith "-" || word.startsWith "+") && 1 < word.length
    let options := arguments.takeWhile fun word => isOption word && word ≠ "--"
    let rest := arguments.drop options.length
    let rest := if rest.head? = some "--" then rest.drop 1 else rest
    let isScript := options.any fun word => word.startsWith "-" && word.toList.contains 'c'
    setStatus 0
    let plain := (options.map fun word => word.toList.filter (· != 'c')).filter (1 < ·.length)
    match ← attempt (changeOptions (plain.map String.ofList)) with
    | .ok _ => pure ()
    | .error flow => throw flow
    match rest with
    | [] =>
      if isScript then fail "-c requires an argument"
      else runText n false (.ofText (← readInput) 1)
    | word :: more =>
      if isScript then
        modifyScope fun scope =>
          { scope with name := more.headD scope.name, arguments := more.drop 1, line := 1 }
        runText n false (.ofText word 1)
      else
        match ← readFile word with
        | .ok text =>
          modifyScope fun scope => { scope with name := word, arguments := more }
          runText n false (.ofText text 1)
        | .error .isADirectory => return ()
        | .error _ =>
          complain ("cannot open " ++ word ++ ": No such file")
          setStatus 2
termination_by structural n => n

end

end GrammarChart.Tool.Shell
