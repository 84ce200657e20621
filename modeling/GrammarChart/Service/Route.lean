import GrammarChart.Service.Address

/-!
# Routes

The path of a request names the collection of diagrams, one diagram of it, one of the pages on the
service or its formal description. A line end after a fixed path does not count. A path with
slashes at its end leads to the path without them, if that leads anywhere.
-/

set_option autoImplicit false

namespace GrammarChart

/-- What a path leads to. -/
inductive Route where
  | page
  | schema
  | diagrams
  | diagram (name : String)
  deriving DecidableEq, Repr

namespace Route

/-- The paths of the pages on the service. -/
def pagePaths : List String :=
  ["/docs", "/docs/oauth2-redirect", "/redoc"]

/-- The path of the formal description of the service. -/
def schemaPath : String := "/openapi.json"

/-- The path of the collection of diagrams. -/
def collectionPath : String := "/api/diagrams"

/-- The path is the given one, maybe with a line end after it. -/
def isPath (path : List Char) (fixed : String) : Bool :=
  path == fixed.toList || path == fixed.toList ++ ['\n']

/-- The route of a path. -/
def ofPath? (path : List Char) : Option Route :=
  let start := collectionPath.toList ++ ['/']
  let name := path.drop start.length
  if pagePaths.any (isPath path) then some .page
  else if isPath path schemaPath then some .schema
  else if isPath path collectionPath then some .diagrams
  else if start.isPrefixOf path ∧ name ≠ [] ∧ '/' ∉ name then
    some (.diagram (String.ofList name))
  else none

/-- The path without slashes at its end. -/
def withoutSlashes (path : List Char) : List Char :=
  (path.reverse.dropWhile (· == '/')).reverse

/-- The route that a client finds from a path on, when it may be sent on the given number of
times. -/
def find? : Nat → List Char → Option Route
  | 0, path => ofPath? path
  | redirections + 1, path =>
    match ofPath? path with
    | some route => some route
    | none =>
      if path.getLast? = some '/' ∧ (ofPath? (withoutSlashes path)).isSome then
        find? redirections (Address.redirected (withoutSlashes path))
      else none

/-- How often a client lets itself be sent on. -/
def maxRedirections : Nat := 20

/-- The route of the target of a request. -/
def ofTarget (target : String) : Except Fault (Option Route) :=
  (Address.path target).map (find? maxRedirections)

/-- A path that leads somewhere is not sent on. -/
theorem find?_of_ofPath? {path : List Char} {route : Route} (h : ofPath? path = some route)
    (redirections : Nat) : find? redirections path = some route := by
  cases redirections <;> simp [find?, h]

end Route
end GrammarChart
