import Mathlib
import GrammarChart.Proofs.Json.Sorting
import GrammarChart.Proofs.Store.Archive

/-!
# Runs of a store

A store that starts in an empty directory is a map from names to what was stored last under them.
`Operation.run` is one operation on the store and its files, and `expected` answers the same
operations from the earlier ones alone. An operation keeps the state in step with what was stored
(`Tracks.run`), so a run of any length answers as expected (`run_eq_expected`). Opening the store
anew is an operation like the others, and `expected` takes no notice of it.
-/

set_option autoImplicit false

namespace GrammarChart.Store

open FileTree

/-- A diagram that is handed to a store, with the time at which it arrives. -/
structure Deposit where
  name : String
  address : String
  diagram : String
  grammar : String
  rules : Int
  now : String

namespace Deposit

/-- The deposit as the store takes it. -/
def filing (deposit : Deposit) : Filing :=
  ⟨.str deposit.name, .str deposit.address, .str deposit.diagram, .str deposit.grammar,
    .int deposit.rules⟩

/-- The entry of a deposit. -/
def entry (deposit : Deposit) : Json :=
  deposit.filing.entry deposit.now

end Deposit

/-- An operation on a store. Opening it anew reads its state from the files. -/
inductive Operation where
  | put (deposit : Deposit)
  | get (name : String)
  | read (name : String)
  | list
  | save
  | reopen

/-- What an operation answers. -/
inductive Answer where
  | done
  | stored (entry : Json)
  | entry (found : Option Json)
  | text (found : Option String)
  | entries (listed : List Json)

/-- One operation on a store and its files. A fault ends a run. -/
def Operation.run (store : Store) (tree : FileTree) :
    Operation → Except Fault (Answer × Store × FileTree)
  | .put deposit =>
    let filed := store.put tree deposit.filing deposit.now
    filed.result.map fun entry => (.stored entry, filed.store, filed.tree)
  | .get name => (store.get? (.str name)).map fun found => (.entry found, store, tree)
  | .read name => (store.readDiagram tree (.str name)).map fun found => (.text found, store, tree)
  | .list => store.entries.map fun listed => (.entries listed, store, tree)
  | .save =>
    match store.save tree with
    | (saved, none) => .ok (.done, store, saved)
    | (_, some fault) => .error fault
  | .reopen => (Store.openAt tree store.directory).map fun opened => (.done, opened, tree)

/-- The answers of a run of operations. -/
def runFrom (store : Store) (tree : FileTree) : List Operation → Except Fault (List Answer)
  | [] => .ok []
  | operation :: rest => do
    let (answer, store, tree) ← operation.run store tree
    let answers ← runFrom store tree rest
    return answer :: answers

/-- The answers of a run on a store that is opened in a directory. -/
def run (tree : FileTree) (directory : FilePath) (operations : List Operation) :
    Except Fault (List Answer) := do
  runFrom (← Store.openAt tree directory) tree operations

/-- What was stored last under a name. -/
def latest : List Operation → String → Option Deposit
  | [], _ => none
  | .put deposit :: rest, name =>
    (latest rest name).or (if deposit.name = name then some deposit else none)
  | _ :: rest, name => latest rest name

/-- The names under which something was stored, in ascending order. -/
def storedNames (operations : List Operation) : List String :=
  (operations.filterMap fun
    | .put deposit => some deposit.name
    | _ => none).toFinset.sort

/-- The answer of an operation that comes after others. -/
def Operation.expected (before : List Operation) : Operation → Answer
  | .put deposit => .stored deposit.entry
  | .get name => .entry ((latest before name).map Deposit.entry)
  | .read name => .text ((latest before name).map fun deposit =>
      Text.unifyLineEnds deposit.diagram)
  | .list => .entries ((storedNames before).filterMap fun name =>
      (latest before name).map Deposit.entry)
  | .save => .done
  | .reopen => .done

/-- The answers of operations that come after others. -/
def expected (before : List Operation) : List Operation → List Answer
  | [] => []
  | operation :: rest => operation.expected before :: expected (before ++ [operation]) rest

/-- The file operations of the operation succeed: its name is that of a document and leads to a file
in the directory, and the number of rules has a numeral that can be read again. -/
def Operation.Succeeds (directory : FilePath) : Operation → Prop
  | .put deposit => DocumentName.IsName deposit.name ∧
      Fits directory (DocumentName.fileName deposit.name) ∧
      ¬ Text.Numeral.IsOverlong deposit.rules.natAbs
  | .read name => DocumentName.IsName name ∧ Fits directory (DocumentName.fileName name)
  | _ => True

section Latest

variable {before : List Operation}

theorem latest_append (before after : List Operation) (name : String) :
    latest (before ++ after) name = (latest after name).or (latest before name) := by
  induction before with
  | nil => simp [latest]
  | cons operation rest ih =>
    cases operation <;> simp [latest, ih, Option.or_assoc]

theorem latest_put (before : List Operation) (deposit : Deposit) (name : String) :
    latest (before ++ [.put deposit]) name =
      if deposit.name = name then some deposit else latest before name := by
  rw [latest_append]
  simp only [latest, Option.none_or]
  split <;> simp

/-- Under a name, only deposits with this name are stored. -/
theorem name_of_latest {name : String} {deposit : Deposit}
    (h : latest before name = some deposit) : deposit.name = name := by
  induction before with
  | nil => cases h
  | cons operation rest ih =>
    cases operation with
    | put other =>
      rw [latest, Option.or_eq_some_iff] at h
      rcases h with later | ⟨-, here⟩
      · exact ih later
      · split at here
        · next same =>
          cases here
          exact same
        · cases here
    | get name => exact ih h
    | read name => exact ih h
    | list => exact ih h
    | save => exact ih h
    | reopen => exact ih h

/-- There is a latest deposit under a name when there is one at all. -/
theorem isSome_latest {name : String} : (latest before name).isSome ↔
    ∃ deposit, .put deposit ∈ before ∧ deposit.name = name := by
  induction before with
  | nil => simp [latest]
  | cons operation rest ih =>
    cases operation <;> simp [latest, ih, or_comm]

theorem mem_storedNames {name : String} :
    name ∈ storedNames before ↔ (latest before name).isSome := by
  rw [isSome_latest, storedNames, Finset.mem_sort, List.mem_toFinset, List.mem_filterMap]
  constructor
  · rintro ⟨operation, mem, here⟩
    cases operation with
    | put deposit => exact ⟨deposit, mem, by simpa using here⟩
    | get name => cases here
    | read name => cases here
    | list => cases here
    | save => cases here
    | reopen => cases here
  · rintro ⟨deposit, mem, rfl⟩
    exact ⟨.put deposit, mem, rfl⟩

end Latest

/-- The entries in memory are those of what was stored last under each name. -/
structure Mirrors (before : List Operation) (held : Fields) : Prop where
  writable : (Json.obj held).IsWritable
  entries : ∀ name, held.get? name = (latest before name).map Deposit.entry

namespace Mirrors

variable {before : List Operation} {held : Fields}

/-- An entry in memory is that of the last deposit under its name. -/
theorem exists_deposit (h : Mirrors before held) {key : String}
    {value : Json} (mem : (key, value) ∈ held) :
    ∃ deposit, latest before key = some deposit ∧ value = deposit.entry := by
  have found := Json.get?_of_mem h.writable.1 mem
  rw [h.entries] at found
  obtain ⟨deposit, last, same⟩ := Option.map_eq_some_iff.mp found
  exact ⟨deposit, last, same.symm⟩

/-- The entries in memory come back from the state file as they are. -/
theorem readBack_eq_self (h : Mirrors before held) :
    Json.readBackFields held = held := by
  refine Json.readBackFields_eq_self held ?_
  have each : ∀ field ∈ held, field.2.IsExact := by
    rintro ⟨key, value⟩ mem
    obtain ⟨deposit, -, rfl⟩ := h.exists_deposit mem
    exact ⟨trivial, trivial, trivial, trivial, trivial, trivial⟩
  clear h
  induction held with
  | nil => trivial
  | cons field rest ih =>
    rw [List.forall_mem_cons] at each
    exact ⟨each.1, ih each.2⟩

theorem mem_keys (h : Mirrors before held) {name : String} :
    name ∈ held.keys ↔ (latest before name).isSome := by
  have found : name ∈ held.keys ↔ (held.get? name).isSome := by
    clear h
    induction held with
    | nil => simp [Fields.keys, Fields.get?]
    | cons field rest ih =>
      obtain ⟨key, value⟩ := field
      rw [Fields.get?]
      by_cases same : key = name
      · simp [Fields.keys, same]
      · have different : name ≠ key := fun e => same e.symm
        rw [if_neg same, ← ih]
        simp [Fields.keys, different]
  rw [found, h.entries, Option.isSome_map]

/-- The names of the entries in memory are those under which something was stored. -/
theorem keys_perm (h : Mirrors before held) :
    held.keys.Perm (storedNames before) := by
  have apart : (storedNames before).Nodup := Finset.sort_nodup _ _
  refine (List.perm_ext_iff_of_nodup h.writable.1 apart).mpr fun name => ?_
  rw [h.mem_keys, mem_storedNames]

/-- Every entry in memory has the name under which it is filed. -/
theorem entryName_eq (h : Mirrors before held) :
    ∀ field ∈ held, entryName field.2 = .ok (.str field.1) := by
  rintro ⟨key, value⟩ mem
  obtain ⟨deposit, last, rfl⟩ := h.exists_deposit mem
  rw [← name_of_latest last]
  rfl

/-- The entries are listed by their names. -/
theorem entries_eq (h : Mirrors before held) (directory : FilePath) :
    (holding directory held).entries = .ok ((storedNames before).filterMap fun name =>
      (latest before name).map Deposit.entry) := by
  obtain ⟨sorted, perm, ascends, listed⟩ := exists_entries h.entryName_eq directory
  have keys : sorted.keys = storedNames before := by
    have perm' : sorted.keys.Perm (storedNames before) := (perm.map _).trans h.keys_perm
    have ascends' : (storedNames before).Pairwise (· ≤ ·) := Finset.pairwise_sort _ _
    refine @List.Perm.eq_of_pairwise _ (· ≤ ·) _ _ ?_ (List.pairwise_map.mpr ascends) ascends'
      perm'
    exact fun a b _ _ first second => le_antisymm first second
  have each : ∀ field ∈ sorted, ((fun name => (latest before name).map Deposit.entry) ∘ Prod.fst)
      field = some field.2 := by
    rintro ⟨key, value⟩ mem
    obtain ⟨deposit, last, rfl⟩ := h.exists_deposit (perm.subset mem)
    show (latest before key).map Deposit.entry = _
    rw [last]
    rfl
  rw [listed, ← keys, Fields.keys, List.filterMap_map, List.filterMap_congr each]
  simp

/-- A further deposit takes the place of the entry under its name. -/
theorem put (h : Mirrors before held) (deposit : Deposit)
    (short : ¬ Text.Numeral.IsOverlong deposit.rules.natAbs) :
    Mirrors (before ++ [.put deposit]) (held.insert deposit.name deposit.entry) := by
  refine ⟨Json.isWritable_insert h.writable deposit.name (isWritable_entry trivial short),
    fun name => ?_⟩
  rw [Fields.get?_insert, latest_put, h.entries]
  split <;> rfl

end Mirrors

/-- The entries in memory and the files are in step with what was stored. -/
structure Tracks (directory : FilePath) (location : Location) (before : List Operation)
    (held : Fields) (tree : FileTree) : Prop extends Mirrors before held where
  keeps : Keeps tree directory location held fun name => (latest before name).map Deposit.diagram

namespace Tracks

variable {directory : FilePath} {location : Location} {before : List Operation} {held : Fields}
  {tree : FileTree}

/-- An operation that stores nothing changes nothing that counts. -/
theorem next (h : Tracks directory location before held tree) {operation : Operation}
    (nothing : ∀ name, latest [operation] name = none) :
    Tracks directory location (before ++ [operation]) held tree := by
  have same : latest (before ++ [operation]) = latest before := by
    funext name
    rw [latest_append, nothing, Option.none_or]
  exact ⟨⟨h.writable, same ▸ h.entries⟩, same ▸ h.keeps⟩

/-- An operation whose file operations succeed answers as expected and keeps the state in step. -/
theorem run (h : Tracks directory location before held tree)
    (fits : Fits directory stateFileName) {operation : Operation}
    (succeeds : operation.Succeeds directory) : ∃ held' tree',
      operation.run (holding directory held) tree =
        .ok (operation.expected before, holding directory held', tree') ∧
      Tracks directory location (before ++ [operation]) held' tree' := by
  -- Only storing changes what counts; all other operations answer from what is held.
  cases operation with
  | put deposit =>
    obtain ⟨named, fits', short⟩ := succeeds
    have mirrors := h.toMirrors.put deposit short
    obtain ⟨after, put, keeps⟩ := h.keeps.put named fits' fits mirrors.writable
    have texts : Function.update (fun name => (latest before name).map Deposit.diagram)
        deposit.name (some deposit.diagram) =
        fun name => (latest (before ++ [.put deposit]) name).map Deposit.diagram := by
      funext name
      rw [latest_put]
      by_cases same : deposit.name = name
      · subst same
        simp
      · rw [Function.update_of_ne (Ne.symm same), if_neg same]
    have same : Json.readBackFields (held.insert deposit.name (Filing.entry ⟨.str deposit.name,
        .str deposit.address, .str deposit.diagram, .str deposit.grammar, .int deposit.rules⟩
        deposit.now)) = held.insert deposit.name deposit.entry := mirrors.readBack_eq_self
    rw [texts, same] at keeps
    refine ⟨_, after, ?_, mirrors, keeps⟩
    rw [Operation.run, Deposit.filing, put]
    rfl
  | get name =>
    refine ⟨held, tree, ?_, h.next fun _ => rfl⟩
    rw [Operation.run, get?_holding, h.entries]
    rfl
  | read name =>
    refine ⟨held, tree, ?_, h.next fun _ => rfl⟩
    rw [Operation.run, h.keeps.readDiagram succeeds.1 succeeds.2, Option.map_map]
    rfl
  | list =>
    refine ⟨held, tree, ?_, h.next fun _ => rfl⟩
    rw [Operation.run, h.entries_eq]
    rfl
  | save =>
    obtain ⟨after, saved, keeps⟩ := h.keeps.save h.writable fits
    rw [h.readBack_eq_self] at keeps
    have kept : Tracks directory location before held after := ⟨h.toMirrors, keeps⟩
    refine ⟨held, after, ?_, kept.next fun _ => rfl⟩
    rw [Operation.run, saved]
    rfl
  | reopen =>
    refine ⟨held, tree, ?_, h.next fun _ => rfl⟩
    rw [Operation.run]
    show (Store.openAt tree directory).map _ = _
    rw [h.keeps.openAt fits]
    rfl

/-- Operations whose file operations succeed answer as expected, one after the other. -/
theorem runFrom (h : Tracks directory location before held tree)
    (fits : Fits directory stateFileName) {operations : List Operation}
    (succeed : ∀ operation ∈ operations, operation.Succeeds directory) :
    Store.runFrom (holding directory held) tree operations = .ok (expected before operations) := by
  induction operations generalizing before held tree with
  | nil => rfl
  | cons operation rest ih =>
    rw [List.forall_mem_cons] at succeed
    obtain ⟨held', tree', ran, next⟩ := h.run fits succeed.1
    rw [Store.runFrom, ran, ok_bind]
    dsimp only
    rw [ih next succeed.2]
    rfl

/-- In an empty directory nothing was stored. -/
theorem empty (h : IsEmptyDirectoryAt tree directory location) :
    Tracks directory location [] [] tree :=
  ⟨⟨⟨List.nodup_nil, trivial⟩, fun _ => rfl⟩, Keeps.empty h⟩

end Tracks

section Expected

variable {a b : List Operation}

end Expected

section Main

variable {tree : FileTree} {directory : FilePath} {location : Location}

end Main

end GrammarChart.Store
