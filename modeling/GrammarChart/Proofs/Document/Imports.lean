import GrammarChart.Proofs.Document.Addresses
import GrammarChart.Proofs.Document.Runs

/-!
# Imports

The grammars that a document imports are noted under the stems of their paths, each in the place of
an earlier one with the same stem. So the document part of an address names the last grammar that
was found for a path of its stem (`get?_insertAll`), and the imports of a document are kept apart
exactly when no two of its paths with different grammars have the same stem (`isKeptApart_iff`).
`Loader.imports_of_load` is what this means for a document that was loaded.
-/

set_option autoImplicit false

namespace GrammarChart

namespace Imported

variable {imported : Imported} {stem other : String} {id : NodeId}

/-- What was noted under a stem is found there, and under every other stem what was there before. -/
theorem get?_insert : (imported.insert stem id).get? other =
    if stem = other then some id else imported.get? other := by
  induction imported with
  | nil => simp [insert, get?]
  | cons entry rest ih =>
    obtain ⟨s, g⟩ := entry
    rw [insert]
    by_cases same : s = stem
    · rw [if_pos same, get?, get?, same]
      split <;> rfl
    · rw [if_neg same, get?, get?, ih]
      by_cases here : s = other
      · rw [if_pos here, if_pos here, if_neg (fun h => same (here.trans h.symm))]
      · rw [if_neg here, if_neg here]

/-- What is found in the table is in it. -/
theorem mem_of_get? (found : imported.get? stem = some id) : id ∈ imported.map Prod.snd := by
  induction imported with
  | nil => simp [get?] at found
  | cons entry rest ih =>
    obtain ⟨s, g⟩ := entry
    rw [get?] at found
    split at found
    · rw [Option.some.injEq] at found
      exact found ▸ List.mem_cons_self
    · exact List.mem_cons_of_mem _ (ih found)

/-- The stem that the grammar of a path is noted under. -/
def stemOf (path : String) : String :=
  (FilePath.ofText path).stem

/-- After grammars were noted, the last one that was found for a path of the stem is found there, or
else what was there before. -/
theorem get?_insertAll (imported : Imported) (found : List (String × NodeId)) (stem : String) :
    (imported.insertAll found).get? stem =
      ((found.reverse.find? fun entry => stemOf entry.1 == stem).map Prod.snd).or
        (imported.get? stem) := by
  induction found generalizing imported with
  | nil => rfl
  | cons entry rest ih =>
    have step : imported.insertAll (entry :: rest) =
        (imported.insert (stemOf entry.1) entry.2).insertAll rest := rfl
    rw [step, ih, get?_insert, List.reverse_cons, List.find?_append]
    cases rest.reverse.find? fun entry => stemOf entry.1 == stem with
    | some later => simp only [Option.map_some, Option.some_or]
    | none =>
      by_cases same : stemOf entry.1 = stem
      · simp [same]
      · simp [same]

/-- The grammar that the document part of an address names, when grammars were found for paths. -/
def named (found : List (String × NodeId)) (document : String) : Option NodeId :=
  (insertAll [] found).get? (stemOf document)

/-- Every grammar that was found for a path is among the imports, and is the one that an address
names by that path. -/
def IsKeptApart (found : List (String × NodeId)) : Prop :=
  ∀ entry ∈ found, entry.2 ∈ (insertAll [] found).map Prod.snd ∧ named found entry.1 = some entry.2

/-- Some grammar that was found for a path of the stem is named by it. -/
theorem exists_named {found : List (String × NodeId)} {entry : String × NodeId}
    (mem : entry ∈ found) :
    ∃ last ∈ found, stemOf last.1 = stemOf entry.1 ∧ named found entry.1 = some last.2 := by
  have present : ∃ last,
      (found.reverse.find? fun e => stemOf e.1 == stemOf entry.1) = some last := by
    rw [← Option.isSome_iff_exists, List.find?_isSome]
    exact ⟨entry, List.mem_reverse.mpr mem, beq_self_eq_true _⟩
  obtain ⟨last, found⟩ := present
  refine ⟨last, List.mem_reverse.mp (List.mem_of_find?_eq_some found), ?_, ?_⟩
  · have same := List.find?_some found
    rwa [beq_iff_eq] at same
  · rw [named, get?_insertAll, found]
    rfl

/-- Imports are kept apart exactly when no two paths with different grammars have the same stem. -/
theorem isKeptApart_iff (found : List (String × NodeId)) : IsKeptApart found ↔
    ∀ a ∈ found, ∀ b ∈ found, stemOf a.1 = stemOf b.1 → a.2 = b.2 := by
  constructor
  · intro apart a inA b inB same
    have first := (apart a inA).2
    have second := (apart b inB).2
    rw [named, same, ← named, second, Option.some.injEq] at first
    exact first.symm
  · intro unique entry mem
    obtain ⟨last, inside, same, isNamed⟩ := exists_named mem
    rw [unique last inside entry mem same] at isNamed
    exact ⟨mem_of_get? isNamed, isNamed⟩

end Imported

namespace Document

variable {document : Document} {fields : Fields} {found : List (String × NodeId)}
  {model model' : Model} {id : NodeId}

/-- In a document that was linked, an address that names another document and a rule in it leads to
that rule of the grammar that it names. An overlong index faults. -/
theorem IsLinked.leadsTo_outside (linked : document.IsLinked fields (Imported.insertAll [] found)
    model model' id) {path : String} (present : path ≠ "") (whole : '#' ∉ path.toList) {g : NodeId}
    {grammar : Grammar} (named : Imported.named found path = some g)
    (grammar? : model'.grammar? g = some grammar) (index : Nat) :
    (¬ Text.Numeral.IsOverlong index →
      document.leadsTo fields (Imported.insertAll [] found) model
        (.str (outsideAddress path index)) = .ok (Model.nodesIn grammar.rules)[index]?) ∧
    (Text.Numeral.IsOverlong index → ∃ count,
      document.leadsTo fields (Imported.insertAll [] found) model
        (.str (outsideAddress path index)) = .error (.numeralTooLong count)) := by
  have planted := (linked.grammars g).trans grammar?
  rw [leadsTo, Planting.nodeAt_outside _ _ _ present whole,
    Model.outsideNode_rules _ _ _ named planted, indexNumber_indexDigits]
  constructor
  · intro short
    rw [if_neg short]
    rfl
  · intro long
    rw [if_pos long]
    exact ⟨_, rfl⟩

end Document

namespace Loader

variable {resolve : Resolver} {value : Json} {s s' : Loaded} {id : NodeId}

/-- How a value was loaded: grammars were found for the paths that it imports, and its document was
linked in the state that this led to. -/
structure IsLoading (resolve : Resolver) (value : Json) (s s' : Loaded) (id : NodeId)
    (fields : Fields) (found : List (String × NodeId)) (between : Loaded) (document : Document) :
    Prop where
  isGrammar : Document.fieldsOf value = .ok fields
  resolved : ∃ paths, Document.importPaths fields = .ok paths ∧
    resolveAll resolve paths s = .ok (found, between)
  read : Document.ofFields fields = .ok document
  linked : document.IsLinked fields (Imported.insertAll [] found) between.model s'.model id

/-- Loading a value is resolving its imports, reading its document and linking it. -/
theorem exists_link_of_load (loaded : load resolve value s = .ok (id, s')) :
    ∃ fields paths found between document,
      Document.fieldsOf value = .ok fields ∧ Document.importPaths fields = .ok paths ∧
      resolveAll resolve paths s = .ok (found, between) ∧ Document.ofFields fields = .ok document ∧
      document.link fields (Imported.insertAll [] found) between.model = .ok (s'.model, id) := by
  obtain ⟨fields, paths, found, between, document, model, isGrammar, isPaths, resolved, read, linked,
    rfl⟩ := exists_of_load loaded
  exact ⟨fields, paths, found, between, document, isGrammar, isPaths, resolved, read, linked⟩

/-- What was loaded was loaded by resolving its imports, reading its document and linking it. -/
theorem exists_isLoading (loaded : load resolve value s = .ok (id, s')) :
    ∃ fields found between document,
      IsLoading resolve value s s' id fields found between document := by
  obtain ⟨fields, paths, found, between, document, isGrammar, isPaths, resolved, read, linked⟩ :=
    exists_link_of_load loaded
  exact ⟨fields, found, between, document, isGrammar, ⟨paths, isPaths, resolved⟩, read,
    Document.isLinked_of_link linked⟩

/-- A document that was loaded imports the grammars that were noted for its paths. An address of a
rule in another document leads to that rule of the grammar that it names, and every path names its
own grammar, which is among the imports, exactly when no two paths with different grammars have the
same stem. -/
theorem imports_of_load (loaded : load resolve value s = .ok (id, s')) :
    ∃ fields found between document,
      IsLoading resolve value s s' id fields found between document ∧
      (∀ path g grammar, path ≠ "" → '#' ∉ path.toList → Imported.named found path = some g →
        s'.model.grammar? g = some grammar → ∀ index, ¬ Text.Numeral.IsOverlong index →
        document.leadsTo fields (Imported.insertAll [] found) between.model
          (.str (outsideAddress path index)) = .ok (Model.nodesIn grammar.rules)[index]?) ∧
      (Imported.IsKeptApart found ↔ ∀ a ∈ found, ∀ b ∈ found,
        Imported.stemOf a.1 = Imported.stemOf b.1 → a.2 = b.2) := by
  obtain ⟨fields, found, between, document, loading⟩ := exists_isLoading loaded
  refine ⟨fields, found, between, document, loading, ?_, Imported.isKeptApart_iff found⟩
  intro path g grammar present whole named grammar? index short
  exact (loading.linked.leadsTo_outside present whole named grammar? index).1 short

/-- A document with one terminal rule. -/
def singleRule (name : String) : Json :=
  .obj [("rules", .arr [.obj [("$type", .str "TerminalRule"), ("name", .str name)]])]

/-- Documents that are attached under paths with the same stem. -/
def sameStem : Fields :=
  [("a/lib.langium", singleRule "A"), ("b/lib.langium", singleRule "B")]

/-- A document that imports both of them. -/
def importingBoth : Json :=
  .obj [("imports", .arr [.str "a/lib.langium", .str "b/lib.langium"])]

/-- Of two imports with the same stem, only one is kept. -/
theorem imports_of_load_sameStem : ∃ id s',
    load (attachedImport sameStem (loadAttachedTo sameStem 0)) importingBoth ⟨.empty, []⟩ =
      .ok (id, s') ∧
    ∃ fields found between document,
      IsLoading (attachedImport sameStem (loadAttachedTo sameStem 0)) importingBoth ⟨.empty, []⟩ s'
        id fields found between document ∧
      found = [("a/lib.langium", ⟨1⟩), ("b/lib.langium", ⟨3⟩)] ∧ ¬ Imported.IsKeptApart found := by
  have given : (load (attachedImport sameStem (loadAttachedTo sameStem 0)) importingBoth
      ⟨.empty, []⟩).isOk = true := by decide +kernel
  have grammars : ((resolveAll (attachedImport sameStem (loadAttachedTo sameStem 0))
      [.str "a/lib.langium", .str "b/lib.langium"] ⟨.empty, []⟩).toOption.map Prod.fst) =
      some [("a/lib.langium", ⟨1⟩), ("b/lib.langium", ⟨3⟩)] := by decide +kernel
  have stems : Imported.stemOf "a/lib.langium" = Imported.stemOf "b/lib.langium" := by
    decide +kernel
  cases run : load (attachedImport sameStem (loadAttachedTo sameStem 0)) importingBoth
      ⟨.empty, []⟩ with
  | error fault =>
    rw [run] at given
    cases given
  | ok made =>
    obtain ⟨fields, found, between, document, loading, -, apart⟩ := imports_of_load run
    refine ⟨made.1, made.2, rfl, fields, found, between, document, loading, ?_⟩
    obtain ⟨paths, isPaths, resolved⟩ := loading.resolved
    cases loading.isGrammar
    cases isPaths
    have same : found = [("a/lib.langium", ⟨1⟩), ("b/lib.langium", ⟨3⟩)] := by
      rw [show resolveAll (attachedImport sameStem (loadAttachedTo sameStem 0))
        [.str "a/lib.langium", .str "b/lib.langium"] ⟨.empty, []⟩ = _ from resolved] at grammars
      exact Option.some.inj grammars
    refine ⟨same, fun kept => ?_⟩
    subst same
    have equal := apart.mp kept ("a/lib.langium", ⟨1⟩) (by simp) ("b/lib.langium", ⟨3⟩) (by simp)
      stems
    simp at equal

end Loader

end GrammarChart
