import GrammarChart.Settings.EnvFile
import GrammarChart.Files.FileTree

/-!
# Environments

The variables that a program is started with, completed by the nearest environment file. Variables
that are set keep their values; `get?_complete_of_some` says so for every file.
-/

set_option autoImplicit false

namespace GrammarChart

/-- Variables and their values. -/
abbrev Environment := List (String × String)

namespace Environment

/-- The value of a variable. -/
def get? : Environment → String → Option String
  | [], _ => none
  | (k, v) :: rest, name => if k = name then some v else get? rest name

/-- Sets a variable that has no value, unless the system refuses its name or the value. -/
def setNew (env : Environment) (name value : String) : Except Fault Environment :=
  if (get? env name).isSome then .ok env
  else if name.toList.contains '\x00' || value.toList.contains '\x00' then .error .nullCharacter
  else if name.toList.contains '=' then .error .badVariableName
  else .ok (env ++ [(name, value)])

/-- The values that the bindings of a file give in the end, in the order of their first bindings.
A value may use variables of the environment, which come first, and earlier bindings. -/
def resolve (env : Environment) :
    EnvFile.Bindings → EnvFile.Bindings → EnvFile.Bindings
  | done, [] => done
  | done, (name, value) :: rest =>
    let lookup (used : String) : Option String :=
      match get? env used with
      | some value => some value
      | none => (done.lookup used).map fun value => value.getD ""
    let value := value.map (EnvFile.expand lookup)
    let done :=
      if (done.lookup name).isSome then
        done.map fun binding => if binding.1 = name then (name, value) else binding
      else done ++ [(name, value)]
    resolve env done rest

/-- Sets the variables that have values and are not set, up to the first that is refused. -/
def setAll (env : Environment) : EnvFile.Bindings → Environment × Option Fault
  | [] => (env, none)
  | (_, none) :: rest => setAll env rest
  | (name, some value) :: rest =>
    match setNew env name value with
    | .ok env => setAll env rest
    | .error fault => (env, some fault)

/-- The environment completed by bindings. -/
def complete (env : Environment) (bindings : EnvFile.Bindings) : Environment × Option Fault :=
  setAll env (resolve env [] bindings)

/-- A variable that is added at the end does not hide one that is there. -/
theorem get?_append_of_some {env : Environment} {name value : String} (added : Environment)
    (h : get? env name = some value) : get? (env ++ added) name = some value := by
  induction env with
  | nil => simp [get?] at h
  | cons head rest ih =>
    obtain ⟨k, v⟩ := head
    by_cases hk : k = name
    · simpa [get?, hk] using h
    · simp only [List.cons_append, get?, hk, if_false] at h ⊢
      exact ih h

/-- Setting a variable keeps every variable that is set. -/
theorem get?_setNew_of_some {env done : Environment} {name value other bound : String}
    (h : get? env name = some value) (hset : setNew env other bound = .ok done) :
    get? done name = some value := by
  simp only [setNew] at hset
  repeat' split at hset
  all_goals cases hset
  · exact h
  · exact get?_append_of_some _ h

/-- A variable that is set keeps its value. -/
theorem get?_complete_of_some {env : Environment} {name value : String}
    (bindings : EnvFile.Bindings) (h : get? env name = some value) :
    get? (complete env bindings).1 name = some value := by
  unfold complete
  generalize resolve env [] bindings = resolved
  induction resolved generalizing env with
  | nil => exact h
  | cons binding rest ih =>
    obtain ⟨key, bound⟩ := binding
    cases bound with
    | none => exact ih h
    | some new =>
      simp only [setAll]
      split
      · exact ih (get?_setNew_of_some h ‹_›)
      · exact h

/-- The variable that keeps environment files from being read. -/
def disablingName : String := "PYTHON_DOTENV_DISABLED"

/-- The words that switch environment files off, in any case. -/
def disablingWords : List String := ["1", "true", "t", "yes", "y"]

/-- A word without differences of case. The long s is a case of the letter s. -/
def caseless (word : String) : String :=
  (word.map fun c => if c == '\u017f' then 's' else c).toLower

/-- Environment files are not to be read. -/
def ignoresFiles (env : Environment) : Bool :=
  (get? env disablingName).any fun word => disablingWords.contains (caseless word)

end Environment

/-- The name of an environment file. -/
def envFileName : FilePath := ⟨.relative, [".env"]⟩

/-- The nearest environment file, in the given directory or in one above it. -/
def FileTree.findEnvFile (tree : FileTree) (start : FilePath) :
    Except Fault (Option FilePath) :=
  firstOf ((start :: start.ancestors).map (·.join envFileName))
where
  /-- The first path that leads somewhere. -/
  firstOf : List FilePath → Except Fault (Option FilePath)
    | [] => .ok none
    | path :: rest => do
      if ← tree.contains path then return some path else firstOf rest

/-- The working directory as a path. -/
def FileTree.here (tree : FileTree) : FilePath :=
  FileTree.absolute tree.workingDirectory

/-- What came of completing an environment: the environment afterwards, what is told about the
file, and the path of the file or the fault that stopped reading it. -/
structure Completion where
  environment : Environment
  warnings : List String
  result : Except Fault (Option FilePath)

/-- Completes an environment by the file at a path. -/
def Environment.completeBy (env : Environment) (tree : FileTree) (path : FilePath) : Completion :=
  match tree.readText path with
  | .error fault => ⟨env, [], .error fault⟩
  | .ok text =>
    match env.complete (EnvFile.bindings text) with
    | (env, some fault) => ⟨env, EnvFile.warnings text, .error fault⟩
    | (env, none) => ⟨env, EnvFile.warnings text, .ok (some path)⟩

/-- Completes an environment by the nearest environment file, if there is one; something else of
that name has no bindings, and neither has a file that is not to be read. -/
def Environment.load (env : Environment) (tree : FileTree) (start : FilePath) : Completion :=
  match tree.findEnvFile start with
  | .error fault => ⟨env, [], .error fault⟩
  | .ok none => ⟨env, [], .ok none⟩
  | .ok (some path) =>
    match tree.find? path with
    | .ok (some (.file _)) =>
      if env.ignoresFiles then ⟨env, [], .ok (some path)⟩ else env.completeBy tree path
    | _ => ⟨env, [], .ok (some path)⟩

end GrammarChart
