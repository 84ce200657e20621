import GrammarChart.CommandLine.Run
import GrammarChart.Tool.Shell

/-!
# The program

Takes a snapshot of the files that a run may look at, runs the program on it, and writes back what
the run changed.
-/

set_option autoImplicit false

namespace GrammarChart.Program

/-- What stands at a location, if anything. -/
def entryAt (location : Location) : IO (Option Entry) := do
  let path := (← IO.currentDir) / (FileTree.absolute location).text
  if ← path.isDir then return some .directory
  else if ← path.pathExists then
    let bytes ← IO.FS.readBinFile path
    return some (.file (.ofBytes bytes.toList))
  else return none

/-- Adds what stands at a location, and at the ones above it, to a snapshot. -/
def look (tree : FileTree) (location : Location) : IO FileTree :=
  (List.range location.length).foldlM (fun tree k => do
    let above := location.take (k + 1)
    if (tree.get? above).isSome then return tree
    match ← entryAt above with
    | some entry => return tree.put above entry
    | none => return tree) tree

/-- Adds files and the files that they import, each of them once. -/
partial def lookAtImports (tree : FileTree) (seen : List Location) :
    List Location → IO FileTree
  | [] => return tree
  | location :: rest => do
    if seen.contains location then lookAtImports tree seen rest
    else
      let tree ← look tree location
      let found := Loader.importLocations tree location
      lookAtImports tree (location :: seen) (found ++ rest)

/-- The location of a path that is given by its text. -/
def locationOf (tree : FileTree) (path : String) : List Location :=
  match tree.resolve (FilePath.ofText path) with
  | .ok location => [location]
  | .error _ => []

/-- The files that a run with the given arguments may look at. -/
def snapshot (arguments : List String) : IO FileTree := do
  let tree : FileTree := ⟨[], (FilePath.ofText (← IO.currentDir).toString).parts⟩
  let envFiles := (tree.here :: tree.here.ancestors).map fun directory =>
    (directory.join envFileName).parts
  let tree ← envFiles.foldlM look tree
  match CommandLine.Command.ofArguments arguments with
  | .compile command =>
    let tree ← lookAtImports tree [] (locationOf tree command.file)
    (locationOf tree (command.output.getD "")).foldlM look tree
  | _ => return tree

/-- The variables that a run may use. -/
def environment (tree : FileTree) : IO Environment := do
  let bound := match tree.findEnvFile tree.here with
    | .ok (some path) =>
      match tree.readText path with
      | .ok text => EnvFile.names text
      | .error _ => []
    | _ => []
  let names := Environment.disablingName :: Settings.variableNames ++ bound
  let values ← names.mapM fun name => do
    return (← IO.getEnv name).map fun value => (name, value)
  return values.filterMap id

/-- Writes what differs from the snapshot, and removes the files that are gone. -/
def writeBack (before after : FileTree) : IO Unit := do
  before.entries.forM fun (location, entry) => do
    if entry ≠ .directory && (after.get? location).isNone then
      IO.FS.removeFile (FileTree.absolute location).text
  after.entries.forM fun (location, entry) => do
    if before.get? location ≠ some entry then
      let path := (FileTree.absolute location).text
      match entry with
      | .directory => IO.FS.createDirAll path
      | .file (.plain text) => IO.FS.writeFile path text
      | .file (.garbled bytes _) => IO.FS.writeBinFile path ⟨bytes.toArray⟩

end GrammarChart.Program

open GrammarChart in
/-- Runs the program. A fault that ends the run is told on the channel for messages. -/
def main (arguments : List String) : IO UInt32 := do
  let tree ← Program.snapshot arguments
  let outcome := CommandLine.run Tool.Shell.runner (← Program.environment tree) tree arguments
  Program.writeBack tree outcome.tree
  (← IO.getStdout).putStr outcome.output
  (← IO.getStderr).putStr outcome.errors
  match outcome.ending with
  | .ok status => return UInt32.ofNat status
  | .error fault =>
    (← IO.getStderr).putStrLn ("Error: " ++ fault.message)
    return 1
