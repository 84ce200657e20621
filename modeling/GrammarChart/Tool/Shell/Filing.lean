import GrammarChart.Tool.Shell.Utilities

/-!
# Files and directories

The utilities that list, make and remove files and directories, and take paths apart.
-/

set_option autoImplicit false

namespace GrammarChart.Tool.Shell

/-- The last name of a path, without an ending that is not all of it. -/
def nameIn (path ending : String) : String :=
  let bare := (path.toList.reverse.dropWhile (· == '/')).takeWhile (· != '/')
  let last := ending.toList.reverse
  let name := if last.isPrefixOf bare && last ≠ bare then bare.drop last.length else bare
  if bare.isEmpty && path ≠ "" then "/" else String.ofList name.reverse

/-- Writes the last names of paths. -/
def baseName (words : List String) : Eval Nat :=
  let known : Known := ⟨['a', 'z'], ['s'], [],
    [("multiple", 'a'), ("suffix", 's'), ("zero", 'z')]⟩
  withGiven "basename" known words fun given => do
    match given.operands with
    | [] => misuse "basename" "missing operand"
    | path :: rest =>
      if given.has 'a' || given.has 's' then
        (path :: rest).forM fun path =>
          write 1 (nameIn path ((given.value? 's').getD "") ++ "\n")
        return 0
      match rest with
      | _ :: extra :: _ => misuse "basename" ("extra operand " ++ inCurlyMarks extra)
      | rest =>
        write 1 (nameIn path (rest.headD "") ++ "\n")
        return 0

/-- Writes paths without their last names. -/
def directoryName (words : List String) : Eval Nat :=
  withGiven "dirname" ⟨['z'], [], [], [("zero", 'z')]⟩ words fun given => do
    if given.operands.isEmpty then misuse "dirname" "missing operand"
    else
      given.operands.forM fun path => do
        let bare := path.toList.reverse.dropWhile (· == '/')
        let above := (bare.dropWhile (· != '/')).dropWhile (· == '/')
        let shown := if !above.isEmpty then above
          else if path.startsWith "/" then ['/'] else ['.']
        write 1 (String.ofList shown.reverse ++ "\n")
      return 0

/-- Makes files that are missing. -/
def touch (words : List String) : Eval Nat :=
  let known : Known := ⟨"acmfh".toList, ['d', 'r', 't'], [],
    [("no-create", 'c'), ("date", 'd'), ("reference", 'r')]⟩
  withGiven "touch" known words fun given => do
    if given.operands.isEmpty then misuse "touch" "missing file operand"
    else
      let good ← given.operands.mapM fun path => do
        match ← locationOf path with
        | .ok location =>
          if ((← get).tree.get? location).isNone && !given.has 'c' then
            modify fun machine =>
              { machine with tree := machine.tree.put location (.file (.plain "")) }
          return true
        | .error problem =>
          utilityComplain "touch" ("cannot touch " ++ quoted path ++ ": " ++ problem.message)
          return false
      return statusOf good

/-- The paths of a directory and of those above it, the outermost first. -/
def pathsTo (path : String) : List String :=
  let parts := (path.toList.splitOn '/').zipIdx.filter fun (part, k) => !part.isEmpty || k = 0
  (List.range parts.length).filterMap fun k =>
    let shown := String.ofList (['/'].intercalate ((parts.take (k + 1)).map Prod.fst))
    if shown = "" then none else some shown

/-- Makes directories. -/
def makeDirectories (words : List String) : Eval Nat :=
  let known : Known := ⟨['p', 'v'], ['m'], [],
    [("parents", 'p'), ("verbose", 'v'), ("mode", 'm')]⟩
  withGiven "mkdir" known words fun given => do
    let make (path : String) : Eval (Option FileProblem) := do
      match (← get).tree.makeDirectory (.ofText (Octets.decode path)) with
      | .ok tree =>
        modify fun machine => { machine with tree := tree }
        if given.has 'v' then
          write 1 ("mkdir: created directory " ++ quoted path ++ "\n")
        return none
      | .error (.file problem _) => return some problem
      | .error _ => return some .notFound
    let complain (path : String) (problem : FileProblem) : Eval Bool := do
      utilityComplain "mkdir" ("cannot create directory " ++ inCurlyMarks path ++ ": " ++
        problem.message)
      return false
    if given.operands.isEmpty then misuse "mkdir" "missing operand"
    else
      let good ← given.operands.mapM fun path => do
        if path = "" then return ← complain path .notFound
        if given.has 'p' then
          let above := pathsTo path
          let problems ← above.mapM fun path => do
            match ← locationOf path with
            | .ok location =>
              match (← get).tree.get? location with
              | some .directory => return none
              | some (.file _) =>
                return some (path, if above.getLast? = some path then FileProblem.alreadyExists
                  else FileProblem.notADirectory)
              | none => return (← make path).map fun problem => (path, problem)
            | .error problem => return some (path, problem)
          match problems.findSome? id with
          | some (path, problem) => complain path problem
          | none => return true
        else match ← make path with
          | some problem => complain path problem
          | none => return true
      return statusOf good

namespace Removal

/-- The files and directories below a directory, each after what is in it, with paths that start as
given, down to a depth. -/
def below (tree : FileTree) : Nat → Location → String → List (String × Bool)
  | 0, _, _ => []
  | n + 1, location, path =>
    match tree.get? location with
    | some .directory =>
      (namesIn tree location).flatMap (fun name =>
        let shown := Octets.encode name
        below tree n (location ++ [name])
          (if path.endsWith "/" then path ++ shown else path ++ "/" ++ shown)) ++ [(path, true)]
    | _ => [(path, false)]

end Removal

/-- Removes files, and directories if that is asked for. -/
def remove (words : List String) : Eval Nat :=
  let known : Known := ⟨"rRfdvi".toList, [], [],
    [("recursive", 'r'), ("force", 'f'), ("dir", 'd'), ("verbose", 'v')]⟩
  withGiven "rm" known words fun given => do
    let isDeep := given.has 'r' || given.has 'R'
    let isForced := given.last? ['f', 'i'] = some 'f'
    let complain (path reason : String) : Eval Bool := do
      utilityComplain "rm" ("cannot remove " ++ quoted path ++ ": " ++ reason)
      return false
    let erase (location : Location) (shown : List (String × Bool)) : Eval Bool := do
      modify fun machine => { machine with tree := machine.tree.erase location }
      if given.has 'v' then
        shown.forM fun (path, isDirectory) =>
          write 1 ((if isDirectory then "removed directory " else "removed ") ++ quoted path ++
            "\n")
      return true
    if given.operands.isEmpty && !isForced then misuse "rm" "missing operand"
    else
      let good ← given.operands.mapM fun path => do
        match ← locationOf path with
        | .error problem =>
          if isForced && (problem == .notFound || problem == .notADirectory) then return true
          else complain path problem.message
        | .ok location =>
          let tree := (← get).tree
          match tree.get? location with
          | none => if isForced then return true else complain path FileProblem.notFound.message
          | some (.file _) =>
            if path.endsWith "/" then complain path FileProblem.notADirectory.message
            else erase location [(path, false)]
          | some .directory =>
            let name := nameIn path ""
            if !isDeep && !given.has 'd' then complain path FileProblem.isADirectory.message
            else if name = "." || name = ".." then
              utilityComplain "rm"
                ("refusing to remove \x27.\x27 or \x27..\x27 directory: skipping " ++ quoted path)
              return false
            else if !isDeep && !(namesIn tree location).isEmpty then
              complain path "Directory not empty"
            else erase location (Removal.below tree 100 location path)
      return statusOf good

namespace Listing

/-- The names in a directory that are listed. -/
def listed (given : Given) (tree : FileTree) (location : Location) : List String :=
  let names := namesIn tree location
  let chosen := if given.has 'a' then "." :: ".." :: names
    else if given.has 'A' then names
    else names.filter fun name => !name.startsWith "."
  if given.has 'r' then chosen.reverse else chosen

/-- Names in the form that is asked for. -/
def shown (given : Given) (names : List (String × Bool)) : String :=
  let marked := names.map fun (name, isDirectory) =>
    let name := if given.has 'Q' then "\"" ++ name ++ "\"" else name
    if isDirectory && (given.has 'F' || given.has 'p') then name ++ "/" else name
  match given.last? ['m', 'C', 'x', '1'] with
  | some 'm' => if marked.isEmpty then "" else ", ".intercalate marked ++ "\n"
  | some 'C' => if marked.isEmpty then "" else "  ".intercalate marked ++ "\n"
  | some 'x' => if marked.isEmpty then "" else "  ".intercalate marked ++ "\n"
  | _ => String.join (marked.map (· ++ "\n"))

/-- The directories to list, with those below them if that is asked for, down to a depth. -/
def directories (given : Given) (tree : FileTree) : Nat → Location → String →
    List (Location × String)
  | 0, _, _ => []
  | n + 1, location, path =>
    let inner := (namesIn tree location).filter fun name =>
      tree.get? (location ++ [name]) == some .directory &&
        (given.has 'a' || given.has 'A' || !name.startsWith ".")
    let inner := if given.has 'r' then inner.reverse else inner
    (location, path) :: if !given.has 'R' then [] else inner.flatMap fun name =>
      let shown := Octets.encode name
      directories given tree n (location ++ [name])
        (if path.endsWith "/" then path ++ shown else path ++ "/" ++ shown)

end Listing

open Listing in
/-- Lists directories and files. -/
def list (words : List String) : Eval Nat := do
  let known : Known := ⟨"aA1dFprRQmCxtSUfbklhginosuvXNqcGB".toList, ['I', 'w'], ['K'],
    [("all", 'a'), ("almost-all", 'A'), ("directory", 'd'), ("recursive", 'R'),
      ("reverse", 'r'), ("color", 'K'), ("quote-name", 'Q')]⟩
  match known.read words with
  | .error wrong => misuseWith 2 "ls" wrong.message
  | .ok given =>
    let paths := if given.operands.isEmpty then ["."] else given.operands
    let found ← paths.mapM fun path => do
      let refuse (problem : FileProblem) : Eval (Option (String × Location × Bool)) := do
        utilityComplain "ls" ("cannot access " ++ quoted path ++ ": " ++ problem.message)
        return none
      match ← locationOf path with
      | .error problem => refuse problem
      | .ok location =>
        match (← get).tree.get? location with
        | some .directory => return some (path, location, true)
        | some (.file _) =>
          if path.endsWith "/" then refuse .notADirectory
          else return some (path, location, false)
        | none => refuse .notFound
    let tree := (← get).tree
    let isBefore (a b : String × Location × Bool) : Bool := decide (a.1 ≤ b.1)
    let there := (found.filterMap id).mergeSort isBefore
    let there := if given.has 'r' then there.reverse else there
    let isPlain (entry : String × Location × Bool) : Bool := !entry.2.2 || given.has 'd'
    let files := (there.filter isPlain).map fun entry => (entry.1, entry.2.2)
    write 1 (shown given files)
    let groups := (there.filter fun entry => !isPlain entry).flatMap fun entry =>
      directories given tree 100 entry.2.1 entry.1
    let isHeaded := 1 < paths.length || given.has 'R'
    groups.zipIdx.forM fun ((location, path), k) => do
      if isHeaded then
        write 1 ((if k = 0 && files.isEmpty then "" else "\n") ++ path ++ ":\n")
      let names := (listed given tree location).map fun name =>
        (Octets.encode name, name = "." || name = ".." ||
          tree.get? (location ++ [name]) == some .directory)
      write 1 (shown given names)
    return if found.all Option.isSome then 0 else 2

end GrammarChart.Tool.Shell
