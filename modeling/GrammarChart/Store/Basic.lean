import GrammarChart.Diagram.Saving
import GrammarChart.Json.Order
import GrammarChart.Json.Writer

/-!
# The diagram store

The store keeps the latest diagram of each document in a directory: the text of each diagram in a
file of its own, and one entry for each in the state file. The entries are also held in memory,
from where the state file is written after every change. A state file that is missing, cannot be
opened or is malformed counts as empty; any other value in it is kept and shown as it is, and asking
for entries in a value that has none is a fault. `get?_put` says what storing a diagram does to the
entries.
-/

set_option autoImplicit false

namespace GrammarChart

/-- The entries of a store by the names under which they are filed. -/
abbrev Entries := List (Json × Json)

namespace Entries

/-- The entry of a name. -/
def get? : Entries → Json → Option Json
  | [], _ => none
  | (n, entry) :: rest, name => if n.sameAtom name then some entry else get? rest name

/-- Files an entry: in the place of the one before, or at the end. -/
def insert : Entries → Json → Json → Entries
  | [], name, entry => [(name, entry)]
  | (n, e) :: rest, name, entry =>
    if n.sameAtom name then (n, entry) :: rest else (n, e) :: insert rest name entry

/-- The same atom as a text is that text. -/
theorem sameAtom_str_iff (value : Json) (s : String) :
    value.sameAtom (.str s) = true ↔ value = .str s := by
  cases value <;> simp [Json.sameAtom, Json.wholeNumber?]

/-- An entry that was filed under a text is found there, and every other text has the entry it
had. -/
theorem get?_insert (entries : Entries) (name other : String) (entry : Json) :
    (entries.insert (.str name) entry).get? (.str other) =
      if name = other then some entry else entries.get? (.str other) := by
  induction entries with
  | nil => simp [insert, get?]
  | cons head rest ih =>
    obtain ⟨n, e⟩ := head
    by_cases h : n.sameAtom (.str name) = true
    · rw [sameAtom_str_iff] at h
      subst h
      by_cases h' : name = other <;> simp [insert, get?, h']
    · by_cases h' : n.sameAtom (.str other) = true
      · rw [sameAtom_str_iff] at h'
        subst h'
        have ne : ¬ name = other := fun eq => h (by simp [eq])
        simp [insert, get?, ne, Ne.symm ne]
      · simp [insert, get?, h, h', ih]

/-- The entries as one object. -/
def toJson (entries : Entries) : Json :=
  .obj (entries.map fun (name, entry) => (name.keyText, entry))

end Entries

/-- What a state file holds: entries, or a value in which there are none. -/
inductive StoreState where
  | entries (entries : Entries)
  | other (value : Json)

namespace StoreState

/-- The state that a written value is. -/
def ofJson : Json → StoreState
  | .obj fields => .entries (fields.map fun (name, entry) => (.str name, entry))
  | value => .other value

/-- The state as it is written. -/
def toJson : StoreState → Json
  | .entries es => es.toJson
  | .other value => value

end StoreState

/-- A store: its directory, and the state that its state file has or is to have. -/
structure Store where
  directory : FilePath
  state : StoreState

/-- A diagram to be stored: the name and the address of its document, its text, the name of its
grammar, and the number of its rules. -/
structure Filing where
  name : Json
  address : Json
  diagram : Json
  grammar : Json
  rules : Json

/-- The entry of a diagram that is stored at the given time. -/
def Filing.entry (filing : Filing) (now : String) : Json :=
  .obj [("name", filing.name), ("uri", filing.address), ("grammar", filing.grammar),
    ("rules", filing.rules), ("updated", .str now)]

/-- What became of a diagram: the store and the files afterwards, and the new entry or the fault
that stopped storing it. -/
structure Filed where
  store : Store
  tree : FileTree
  result : Except Fault Json

namespace Store

/-- The name of the state file. -/
def stateFileName : String := "diagram_state.json"

/-- The path of the state file in a directory. -/
def statePath (directory : FilePath) : FilePath :=
  directory.join (.ofText stateFileName)

/-- The value of a state file. A file that cannot be opened or is malformed counts as one without
entries. -/
def readState (tree : FileTree) (path : FilePath) : Except Fault Json := do
  if ← tree.contains path then
    match tree.readText path with
    | .ok text =>
      match Json.read text with
      | .ok state => return state
      | .error fault =>
        match Fault.ofReadFault fault with
        | .malformed .. => return .obj []
        | fault => throw fault
    | .error fault => if fault.isFileFault then return .obj [] else throw fault
  else return .obj []

/-- Opens the store in a directory. -/
def openAt (tree : FileTree) (directory : FilePath) : Except Fault Store := do
  return ⟨directory, .ofJson (← readState tree (statePath directory))⟩

/-- The path of the diagram of a name. -/
def diagramPath (store : Store) (name : Json) : FilePath :=
  store.directory.join (.ofText (name.display ++ ".pu"))

/-- Writes the state file. -/
def save (store : Store) (tree : FileTree) : FileTree × Option Fault :=
  tree.writeAfterMaking store.directory (statePath store.directory)
    (.ok (store.state.toJson.indented 0))

/-- Writes the file of a diagram. A diagram that is no text is refused before its file is opened. -/
def writeDiagram (store : Store) (tree : FileTree) (filing : Filing) : FileTree × Option Fault :=
  match filing.diagram.text? with
  | some text => tree.writeAfterMaking store.directory (store.diagramPath filing.name) (.ok text)
  | none =>
    let (tree, fault) := tree.ensureDirectories store.directory
    (tree, some (fault.getD .wrongType))

/-- Puts an entry into a list at an index, which may count from the end. -/
def putAt (items : List Json) (index : Int) (entry : Json) : Except Fault (List Json) :=
  let place := if index < 0 then index + items.length else index
  if 0 ≤ place ∧ place < items.length then .ok (items.set place.toNat entry)
  else .error .noItem

/-- Files the entry of a diagram. Only an atom can be the name of an entry. A state that is a list
takes entries under the numbers of its items. -/
def file (store : Store) (filing : Filing) (now : String) : Except Fault Store :=
  match store.state with
  | .entries es =>
    if filing.name.isAtom then
      .ok { store with state := .entries (es.insert filing.name (filing.entry now)) }
    else .error .wrongType
  | .other (.arr items) =>
    match filing.name.wholeNumber? with
    | some index => do
      return { store with state := .other (.arr (← putAt items index (filing.entry now))) }
    | none => .error .wrongType
  | .other _ => .error .wrongType

/-- Stores a diagram: first its file, then its entry, and last the state file. What was changed
before a fault stays changed. -/
def put (store : Store) (tree : FileTree) (filing : Filing) (now : String) : Filed :=
  match store.writeDiagram tree filing with
  | (tree, some fault) => ⟨store, tree, .error fault⟩
  | (tree, none) =>
    match store.file filing now with
    | .error fault => ⟨store, tree, .error fault⟩
    | .ok store =>
      match store.save tree with
      | (tree, some fault) => ⟨store, tree, .error fault⟩
      | (tree, none) => ⟨store, tree, .ok (filing.entry now)⟩

/-- The entry of a name. -/
def get? (store : Store) (name : Json) : Except Fault (Option Json) :=
  match store.state with
  | .entries es => if name.isAtom then .ok (es.get? name) else .error .wrongType
  | .other _ => .error .noField

/-- A diagram that was filed under a text has the new entry, and every other text the entry it
had. -/
theorem get?_file {store filed : Store} {filing : Filing} {now name : String}
    (text : filing.name = .str name) (h : store.file filing now = .ok filed) (other : String) :
    filed.get? (.str other) =
      if name = other then .ok (some (filing.entry now)) else store.get? (.str other) := by
  unfold file at h
  cases hstate : store.state with
  | other value => cases value <;> simp [hstate, text, Json.wholeNumber?] at h
  | entries es =>
    simp only [hstate, text, Json.isAtom, if_true, Except.ok.injEq] at h
    subst h
    simp only [get?, hstate, Json.isAtom, if_true, Entries.get?_insert]
    split <;> rfl

/-- A diagram that was stored under a text has the new entry, and every other text the entry it
had. -/
theorem get?_put {store : Store} {tree : FileTree} {filing : Filing} {now name : String}
    {entry : Json} (text : filing.name = .str name)
    (h : (store.put tree filing now).result = .ok entry) (other : String) :
    (store.put tree filing now).store.get? (.str other) =
      if name = other then .ok (some (filing.entry now)) else store.get? (.str other) := by
  revert h
  unfold put
  cases store.writeDiagram tree filing with
  | mk after fault =>
    cases fault with
    | some fault => intro h; cases h
    | none =>
      cases hf : store.file filing now with
      | error fault => intro h; cases h
      | ok filed =>
        dsimp only
        cases filed.save after with
        | mk saved fault =>
          cases fault with
          | some fault => intro h; cases h
          | none => intro _; exact get?_file text hf other

/-- The text of the diagram file of a name, if there is one. -/
def readDiagram (store : Store) (tree : FileTree) (name : Json) :
    Except Fault (Option String) := do
  let path := store.diagramPath name
  if ← tree.contains path then return some (← tree.readText path) else return none

/-- The name that an entry has. -/
def entryName : Json → Except Fault Json
  | .obj fields =>
    match Fields.get? fields "name" with
    | some name => .ok name
    | none => .error (.missingKey "name")
  | _ => .error .wrongType

/-- The entries, sorted by their names. -/
def entries (store : Store) : Except Fault (List Json) :=
  match store.state with
  | .entries es => do
    let named ← es.mapM fun (_, entry) => return (← entryName entry, entry)
    match Json.sortBy? Prod.fst named with
    | some sorted => return sorted.map Prod.snd
    | none => throw .wrongType
  | .other _ => .error .noField

end Store
end GrammarChart
