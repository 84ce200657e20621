import GrammarChart.Tool.Shell.Given
import GrammarChart.Tool.Shell.Utilities

/-!
# Copying and moving files

`cp` copies files and directories, `mv` moves them, and `rmdir` removes empty directories.
-/

set_option autoImplicit false

namespace GrammarChart.Tool.Shell

namespace Copying

/-- What stands at a path, or why nothing does. -/
def entryAt (path : String) : Eval (Except FileProblem (Location × Entry)) := do
  match ← locationOf path with
  | .error problem => return .error problem
  | .ok location =>
    match (← get).tree.get? location with
    | none => return .error .notFound
    | some .directory => return .ok (location, .directory)
    | some entry =>
      return if path.endsWith "/" then .error .notADirectory else .ok (location, entry)

/-- The last name of a path. -/
def lastName (path : String) : String :=
  let letters := path.toList.reverse.dropWhile (· == '/')
  String.ofList (letters.takeWhile (· != '/')).reverse

/-- The path of a name in a directory. -/
def inside (directory name : String) : String :=
  if directory.endsWith "/" then directory ++ name else directory ++ "/" ++ name

/-- The entries below a location, under another one. -/
def moved (tree : FileTree) (source target : Location) : List (Location × Entry) :=
  (tree.entries.filter fun entry => source.isPrefixOf entry.1).map fun (location, entry) =>
    (target ++ location.drop source.length, entry)

/-- Where files go: into a directory, or to a path. Nothing is told when the words ask for neither,
after a complaint. -/
def destination? (name : String) (given : Given) : Eval (Option (List String × String × Bool)) := do
  match given.value? 't', given.operands.reverse with
  | some directory, [] =>
    let _ ← misuse name "missing file operand"
    let _ := directory
    return none
  | some directory, _ => return some (given.operands, directory, true)
  | none, [] =>
    let _ ← misuse name "missing file operand"
    return none
  | none, [path] =>
    let _ ← misuse name ("missing destination file operand after " ++ quoted path)
    return none
  | none, target :: sources =>
    if given.has 'T' then return some (sources.reverse, target, false)
    match ← entryAt target with
    | .ok (_, .directory) => return some (sources.reverse, target, true)
    | found =>
      if sources.length = 1 then return some (sources, target, false)
      let problem := match found with
        | .ok _ => FileProblem.notADirectory
        | .error problem => problem
      utilityComplain name ("target " ++ quoted target ++ ": " ++ problem.message)
      return none

/-- Something in the way of a copy at a target: nothing may replace a directory but a directory. -/
def obstacle (source target : String) (isDirectory : Bool) : Option Entry → Option String
  | some .directory =>
    if isDirectory then none
    else some ("cannot overwrite directory " ++ quoted target ++ " with non-directory")
  | some (.file _) =>
    if isDirectory then
      some ("cannot overwrite non-directory " ++ quoted target ++ " with directory " ++
        quoted source)
    else none
  | none => none

/-- The location of a target, or why it cannot be made. -/
def targetLocation (target : String) (isDirectory : Bool) :
    Eval (Except FileProblem Location) := do
  match ← locationOf target with
  | .error problem => return .error problem
  | .ok location =>
    let isMissing := ((← get).tree.get? location).isNone
    return if target.endsWith "/" && isMissing && !isDirectory then .error .notADirectory
      else .ok location

/-- Copies a file or a directory. Tells whether that went well. -/
def copy (given : Given) (source target : String) : Eval Bool := do
  let complain (message : String) : Eval Bool := do
    utilityComplain "cp" message
    return false
  let isDeep := given.has 'r' || given.has 'R' || given.has 'a'
  match ← entryAt source with
  | .error problem => complain ("cannot stat " ++ quoted source ++ ": " ++ problem.message)
  | .ok (origin, entry) =>
    let isDirectory := entry == .directory
    if isDirectory && !isDeep then
      complain ("-r not specified; omitting directory " ++ quoted source)
    else match ← targetLocation target isDirectory with
      | .error problem =>
        let kind := if isDirectory then "directory " else "regular file "
        complain ("cannot create " ++ kind ++ quoted target ++ ": " ++ problem.message)
      | .ok goal =>
        let tree := (← get).tree
        if origin = goal then complain (quoted source ++ " and " ++ quoted target ++
          " are the same file")
        else match obstacle source target isDirectory (tree.get? goal) with
          | some message => complain message
          | none =>
            if isDirectory && origin.isPrefixOf goal then
              complain ("cannot copy a directory, " ++ quoted source ++ ", into itself, " ++
                quoted target)
            else if given.has 'n' && (tree.get? goal).isSome then return true
            else
              let copied := (moved tree origin goal).foldl
                (fun tree (entry : Location × Entry) => tree.put entry.1 entry.2) tree
              modify fun machine => { machine with tree := copied }
              if given.has 'v' then
                write 1 (quoted source ++ " -> " ++ quoted target ++ "\n")
              return true

/-- Moves a file or a directory. Tells whether that went well. -/
def move (given : Given) (source target : String) : Eval Bool := do
  let complain (message : String) : Eval Bool := do
    utilityComplain "mv" message
    return false
  match ← entryAt source with
  | .error problem => complain ("cannot stat " ++ quoted source ++ ": " ++ problem.message)
  | .ok (origin, entry) =>
    let isDirectory := entry == .directory
    let cannot := "cannot move " ++ quoted source ++ " to "
    match ← targetLocation target isDirectory with
    | .error problem => complain (cannot ++ quoted target ++ ": " ++ problem.message)
    | .ok goal =>
      let tree := (← get).tree
      if origin = goal then
        complain (quoted source ++ " and " ++ quoted target ++ " are the same file")
      else match obstacle source target isDirectory (tree.get? goal) with
        | some message => complain message
        | none =>
          if isDirectory && origin.isPrefixOf goal then
            complain (cannot ++ "a subdirectory of itself, " ++ quoted target)
          else if isDirectory && tree.entries.any fun entry =>
              goal.isPrefixOf entry.1 && entry.1 ≠ goal then
            complain ("cannot overwrite " ++ quoted target ++ ": Directory not empty")
          else if given.has 'n' && (tree.get? goal).isSome then return true
          else
            let left := tree.erase origin
            let placed := (moved tree origin goal).foldl
              (fun tree (entry : Location × Entry) => tree.put entry.1 entry.2) left
            modify fun machine => { machine with tree := placed }
            if given.has 'v' then
              write 1 ("renamed " ++ quoted source ++ " -> " ++ quoted target ++ "\n")
            return true

/-- The options of `cp`, or of `mv`. -/
def known (isMove : Bool) : Known where
  plain := if isMove then "finvTubZ".toList else "rRafinpvTudlsPLHxbZ".toList
  valued := ['t', 'S']
  joined := []
  long := [("recursive", 'R'), ("archive", 'a'), ("force", 'f'), ("interactive", 'i'),
    ("no-clobber", 'n'), ("verbose", 'v'), ("no-target-directory", 'T'), ("update", 'u'),
    ("target-directory", 't')]

/-- Carries every source to its target. -/
def carry (name : String) (isMove : Bool) 
    (action : Given → String → String → Eval Bool) (words : List String) : Eval Nat := do
  match (known isMove).read words with
  | .error wrong => misuse name wrong.message
  | .ok given =>
    match ← destination? name given with
    | none => return 1
    | some (sources, target, isInside) =>
      let good ← sources.mapM fun source =>
        action given source (if isInside then inside target (lastName source) else target)
      return if good.all id then 0 else 1

/-- Removes an empty directory. Tells whether that went well. -/
def removeDirectory (path : String) : Eval Bool := do
  let complain (reason : String) : Eval Bool := do
    utilityComplain "rmdir" ("failed to remove " ++ quoted path ++ ": " ++ reason)
    return false
  match ← entryAt path with
  | .error problem => complain problem.message
  | .ok (_, .file _) => complain FileProblem.notADirectory.message
  | .ok (location, .directory) =>
    let tree := (← get).tree
    if (namesIn tree location).isEmpty then
      modify fun machine => { machine with tree := tree.erase location }
      return true
    else complain "Directory not empty"

/-- Removes an empty directory and those above it that are then empty, at most so many. -/
def removeAll : Nat → String → Eval Bool
  | 0, _ => return true
  | n + 1, path => do
    if ← removeDirectory path then
      let letters := path.toList.reverse.dropWhile (· == '/')
      let above := (letters.dropWhile (· != '/')).dropWhile (· == '/')
      if above.isEmpty then return true
      removeAll n (String.ofList above.reverse)
    else return false

end Copying

/-- Copies files. -/
def copyFiles (words : List String) : Eval Nat :=
  Copying.carry "cp" false Copying.copy words

/-- Moves files. -/
def moveFiles (words : List String) : Eval Nat :=
  Copying.carry "mv" true Copying.move words

/-- Removes empty directories. -/
def removeDirectories (words : List String) : Eval Nat := do
  let known : Known := ⟨['p', 'v'], [], [], [("parents", 'p'), ("verbose", 'v')]⟩
  match known.read words with
  | .error wrong => misuse "rmdir" wrong.message
  | .ok given =>
    if given.operands.isEmpty then misuse "rmdir" "missing operand"
    else
      let good ← given.operands.mapM fun path =>
        if given.has 'p' then Copying.removeAll path.length path else Copying.removeDirectory path
      return if good.all id then 0 else 1

end GrammarChart.Tool.Shell
