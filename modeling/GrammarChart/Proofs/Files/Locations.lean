import Mathlib
import GrammarChart.Document.Loading
import GrammarChart.Proofs.Emissions

/-!
# Locations

A location whose names are names of a file system (`FileTree.IsProper`) is written in one way only:
its text reads back as the location (`FileTree.ofText_text_absolute`), so locations with the same
text are the same. What an import path names from a proper location is proper again
(`Loader.isProper_importLocation`), and is decided by the stem of the path where files have
different stems (`Loader.eq_of_importLocation`). A file that can be read at a proper location is an
entry of the tree (`FileTree.mem_of_readText`).
-/

set_option autoImplicit false

namespace GrammarChart

/-- The text can be one of the names in a path. -/
def FilePath.IsName (name : String) : Prop :=
  name ≠ "" ∧ name ≠ "." ∧ '/' ∉ name.toList

/-- The parts of a split text do not hold the separator. -/
theorem not_mem_of_mem_splitOn {separator : Char} : ∀ {text part : List Char},
    part ∈ text.splitOn separator → separator ∉ part := by
  intro text
  induction text with
  | nil =>
    intro part mem
    simp at mem
    simp [mem]
  | cons c rest ih =>
    intro part mem
    rw [List.splitOn_cons_eq_if_modifyHead] at mem
    split at mem
    · rcases List.mem_cons.mp mem with rfl | later
      · exact List.not_mem_nil
      · exact ih later
    · next other =>
      cases parts : rest.splitOn separator with
      | nil => exact absurd parts (List.splitOn_ne_nil separator rest)
      | cons first others =>
        rw [parts] at mem ih
        simp only [List.modifyHead_cons, List.mem_cons] at mem
        rcases mem with rfl | later
        · have head := ih List.mem_cons_self
          have here : separator ≠ c := by
            rintro rfl
            exact other (beq_self_eq_true _)
          simp [here, head]
        · exact ih (List.mem_cons_of_mem _ later)

namespace FilePath

/-- The parts of a path that was read are names. -/
theorem isName_of_mem_ofText {text part : String} (mem : part ∈ (ofText text).parts) :
    IsName part := by
  obtain ⟨name, inside, rfl⟩ := List.mem_map.mp mem
  obtain ⟨split, isPart⟩ := List.mem_filter.mp inside
  have whole := not_mem_of_mem_splitOn split
  simp only [FilePath.isPart, Bool.and_eq_true, Bool.not_eq_true', List.isEmpty_eq_false_iff,
    bne_iff_ne, ne_eq] at isPart
  refine ⟨?_, ?_, ?_⟩
  · intro empty
    exact isPart.1 (by simpa using congrArg String.toList empty)
  · intro dot
    exact isPart.2 (by simpa using congrArg String.toList dot)
  · simpa using whole

/-- A name that gets a suffix stays a name. -/
theorem isName_withSuffix {name : String} (h : IsName name) : IsName (stemOf name ++ ".json") := by
  have whole : '/' ∉ (stemOf name).toList := by
    unfold stemOf
    split
    · simp only [String.toList_ofList]
      exact fun mem => h.2.2 (List.mem_of_mem_take mem)
    · exact h.2.2
  have longer : (stemOf name ++ ".json").toList.length = (stemOf name).toList.length + 5 := by
    simp
  refine ⟨?_, ?_, ?_⟩
  · intro empty
    rw [empty] at longer
    simp at longer
  · intro dot
    rw [dot] at longer
    simp at longer
  · simp [whole]

/-- Only nothing has nothing for a stem. -/
theorem eq_empty_of_stemOf {name : String} (h : stemOf name = "") : name = "" := by
  unfold stemOf at h
  split at h
  · next point found =>
    unfold splitPoint? at found
    simp only at found
    split at found
    · split at found
      · next bounds =>
        rw [Option.some.injEq] at found
        have short := congrArg (fun text => text.toList.length) h
        simp only [String.toList_ofList, List.length_take] at short
        simp at short
        rcases short with zero | empty
        · omega
        · exact empty
      · cases found
    · cases found
  · exact h

end FilePath

namespace FileTree

/-- The names of the location are names of a file system. -/
def IsProper (location : Location) : Prop :=
  ∀ name ∈ location, FilePath.IsName name ∧ name ≠ ".."

/-- The text of a proper location reads back as its path. -/
theorem ofText_text_absolute {location : Location} (proper : IsProper location) :
    FilePath.ofText (absolute location).text = absolute location := by
  have text : (absolute location).text.toList =
      '/' :: ['/'].intercalate (location.map String.toList) := by
    simp [absolute, FilePath.text, FilePath.Anchor.text, String.toList_intercalate]
  cases location with
  | nil => rfl
  | cons first rest =>
    have split : (absolute (first :: rest)).text.toList.splitOn '/' =
        [] :: (first :: rest).map String.toList := by
      rw [text, List.splitOn_cons_eq_if_modifyHead, if_pos (beq_self_eq_true _)]
      rw [List.splitOn_intercalate]
      · intro name mem
        obtain ⟨part, inside, rfl⟩ := List.mem_map.mp mem
        exact (proper part inside).1.2.2
      · simp
    have kept : ([] :: (first :: rest).map String.toList).filter FilePath.isPart =
        (first :: rest).map String.toList := by
      rw [List.filter_cons_of_neg (by simp [FilePath.isPart])]
      rw [List.filter_eq_self]
      intro name mem
      obtain ⟨part, inside, rfl⟩ := List.mem_map.mp mem
      obtain ⟨⟨nonempty, noDot, -⟩, -⟩ := proper part inside
      simp only [FilePath.isPart, Bool.and_eq_true, Bool.not_eq_true', List.isEmpty_eq_false_iff,
        bne_iff_ne, ne_eq]
      refine ⟨fun empty => nonempty (String.toList_eq_nil_iff.mp empty), fun dot => noDot ?_⟩
      rw [← String.toList_inj, dot]
      rfl
    have anchor : FilePath.anchorOf (absolute (first :: rest)).text.toList = .root := by
      obtain ⟨⟨nonempty, -, whole⟩, -⟩ := proper first List.mem_cons_self
      obtain ⟨c, cs, letters⟩ := List.exists_cons_of_ne_nil fun empty =>
        nonempty (String.toList_eq_nil_iff.mp empty)
      have noSlash : c ≠ '/' := by
        rintro rfl
        exact whole (letters ▸ List.mem_cons_self)
      obtain ⟨more, start⟩ : ∃ more,
          ['/'].intercalate ((first :: rest).map String.toList) = c :: more := by
        cases rest <;> simp [letters, List.intercalate]
      rw [text, start]
      simp [FilePath.anchorOf, noSlash]
    rw [FilePath.ofText, split, kept, anchor]
    simp [absolute, Function.comp_def]

/-- Proper locations with the same text are the same. -/
theorem eq_of_text_eq {location other : Location} (proper : IsProper location)
    (proper' : IsProper other) (same : (absolute location).text = (absolute other).text) :
    location = other := by
  have paths := (ofText_text_absolute proper).symm.trans (same ▸ ofText_text_absolute proper')
  exact congrArg FilePath.parts paths

/-- From a proper location, names lead to a proper location when double dots are taken back. -/
theorem isProper_foldl {parts : List String} (names : ∀ part ∈ parts, FilePath.IsName part) :
    ∀ {start : Location}, IsProper start → IsProper (parts.foldl
      (fun l part => if part = ".." then l.dropLast else l ++ [part]) start) := by
  induction parts with
  | nil => exact fun proper => proper
  | cons part rest ih =>
    intro start proper
    rw [List.forall_mem_cons] at names
    refine ih names.2 ?_
    show IsProper (if part = ".." then _ else _)
    split
    · exact fun name mem => proper name (List.dropLast_subset start mem)
    · next noDots =>
      intro name mem
      rcases List.mem_append.mp mem with before | here
      · exact proper name before
      · rw [List.mem_singleton.mp here]
        exact ⟨names.1, noDots⟩

variable {tree : FileTree} {path : FilePath} {location : Location}

/-- A path of names is resolved to a proper location. -/
theorem isProper_resolve (working : path.anchor = .relative → IsProper tree.workingDirectory)
    (names : ∀ part ∈ path.parts, FilePath.IsName part)
    (resolved : tree.resolve path = .ok location) : IsProper location := by
  unfold resolve at resolved
  split at resolved
  · cases resolved
  · cases resolved
    refine isProper_foldl names ?_
    unfold start
    split
    · next relative => exact working relative
    · exact fun name mem => absurd mem List.not_mem_nil

attribute [local simp] follow

/-- From a directory, one more name that is not too long is followed, if it is no step upwards. -/
theorem follow_cons_of_directory {current : Location} {part : String} {rest : List String}
    (noStep : part ≠ "..") (short : part.utf8ByteSize ≤ maxNameLength) (others : rest ≠ [])
    (here : tree.get? (current ++ [part]) = some .directory) :
    tree.follow current (part :: rest) = tree.follow (current ++ [part]) rest := by
  rw [follow.eq_3 tree current part rest noStep, if_neg (Nat.not_lt.mpr short)]
  simp only [if_neg others, here]

/-- A name that is no step upwards leads to its own location where it is the last one, and otherwise
to where the others lead from the directory of that name. -/
theorem follow_cons_eq_ok {current : Location} {part : String} {rest : List String}
    (noStep : part ≠ "..") : tree.follow current (part :: rest) = .ok location ↔
      part.utf8ByteSize ≤ maxNameLength ∧ (rest = [] ∧ location = current ++ [part] ∨
        rest ≠ [] ∧ tree.get? (current ++ [part]) = some .directory ∧
          tree.follow (current ++ [part]) rest = .ok location) := by
  rw [follow.eq_3 tree current part rest noStep]
  split
  · next long => simp [Nat.not_le.mpr long]
  · next short =>
    rw [and_iff_right (Nat.le_of_not_lt short)]
    by_cases last : rest = []
    · simp [last, eq_comm]
    · simp only [last, if_false, false_and, false_or, ne_eq, not_false_eq_true, true_and]
      split
      · next here => simp [here]
      · next content here => simp [here]
      · next here => simp [here]

/-- A path leads to a location when none of its names holds a null character, its text is not too
long, and its names lead there from its start. -/
theorem locate_eq_ok : tree.locate path = .ok location ↔
    ¬ path.parts.any (·.toList.contains '\x00') ∧ path.text.utf8ByteSize ≤ maxPathLength ∧
      tree.follow (tree.start path) path.parts = .ok location := by
  unfold locate
  split
  · next null => exact ⟨nofun, fun ⟨plain, _⟩ => absurd null plain⟩
  · next plain =>
    split
    · next long => simp [Nat.not_le.mpr long]
    · next short =>
      rw [and_iff_right plain, and_iff_right (Nat.le_of_not_lt short)]
      split
      · next followed => rw [followed, Except.ok.injEq, Except.ok.injEq]
      · next failed => simp [failed]

/-- Names without double dots are followed one by one. -/
theorem eq_of_follow {parts : List String} (names : ".." ∉ parts) : ∀ {current : Location},
    tree.follow current parts = .ok location → location = current ++ parts := by
  induction parts with
  | nil =>
    intro current h
    simpa using h.symm
  | cons part rest ih =>
    intro current h
    rw [List.mem_cons, not_or] at names
    obtain ⟨-, ⟨rfl, rfl⟩ | ⟨-, -, below⟩⟩ := (follow_cons_eq_ok (Ne.symm names.1)).mp h
    · rfl
    · rw [ih names.2 below, List.append_assoc]
      rfl

/-- What is listed for a location is an entry. -/
theorem mem_of_lookup {entries : List (Location × Entry)} {entry : Entry}
    (found : lookup entries location = some entry) : (location, entry) ∈ entries := by
  induction entries with
  | nil => cases found
  | cons first rest ih =>
    obtain ⟨l, e⟩ := first
    rw [lookup] at found
    split at found
    · next same =>
      cases found
      exact same ▸ List.mem_cons_self
    · exact List.mem_cons_of_mem _ (ih found)

/-- A file that can be read at a proper location is an entry of the tree. -/
theorem mem_of_readText (proper : IsProper location) {text : String}
    (read : tree.readText (absolute location) = .ok text) :
    ∃ content, (location, .file content) ∈ tree.entries := by
  obtain ⟨found, located, read⟩ := bind_eq_ok.mp read
  obtain ⟨-, -, followed⟩ := locate_eq_ok.mp located
  obtain rfl : found = location := eq_of_follow (fun mem => (proper _ mem).2 rfl) followed
  cases here : tree.get? found with
  | none =>
    rw [here] at read
    cases read
  | some entry =>
    rw [here] at read
    cases entry with
    | directory => cases read
    | file content =>
      refine ⟨content, mem_of_lookup ?_⟩
      unfold get? at here
      split at here
      · cases here
      · exact here

/-- A file that can be read is there. -/
theorem contains_of_readText {file : FilePath} {text : String}
    (read : tree.readText file = .ok text) : tree.contains file = .ok true := by
  obtain ⟨found, located, read⟩ := bind_eq_ok.mp read
  rw [contains, find?, located]
  cases here : tree.get? found with
  | none =>
    rw [here] at read
    cases read
  | some entry => simp [here, Except.map]

/-- No two files have the same stem and the suffix of documents. -/
def HasDistinctStems (tree : FileTree) : Prop :=
  ∀ (stem : String) (location other : Location) (content content' : Content),
    (location, .file content) ∈ tree.entries → (other, .file content') ∈ tree.entries →
    location.getLast? = some (stem ++ ".json") → other.getLast? = some (stem ++ ".json") →
    location = other

end FileTree

namespace Loader

open FileTree

variable {tree : FileTree} {importer location other : Location} {path path' : String}

/-- What an import path names, seen from a proper location, is a proper location. -/
theorem isProper_importLocation (proper : IsProper importer)
    (named : importLocation tree importer path = .ok location) : IsProper location := by
  unfold importLocation at named
  simp only at named
  split at named
  · cases named
  · next candidate suffixed =>
    have directory : ∀ part ∈ (absolute importer).parent.parts, FilePath.IsName part :=
      fun part mem => (proper part (List.dropLast_subset importer mem)).1
    have joined : ∀ part ∈ ((absolute importer).parent.join (FilePath.ofText path)).parts,
        FilePath.IsName part := by
      unfold FilePath.join
      split
      · intro part mem
        rcases List.mem_append.mp mem with above | below
        · exact directory part above
        · exact FilePath.isName_of_mem_ofText below
      · exact fun part mem => FilePath.isName_of_mem_ofText mem
    have anchored :
        ((absolute importer).parent.join (FilePath.ofText path)).anchor ≠ .relative := by
      unfold FilePath.join
      split
      · exact fun same => by cases same
      · assumption
    generalize (absolute importer).parent.join (FilePath.ofText path) = whole at *
    unfold FilePath.withSuffix at suffixed
    simp only at suffixed
    split at suffixed
    · cases suffixed
    · split at suffixed
      · cases suffixed
      · next nonempty =>
        cases suffixed
        refine isProper_resolve (fun relative => ?_) (fun part mem => ?_) named
        · exact absurd relative anchored
        rcases List.mem_append.mp mem with before | last
        · exact joined part (List.dropLast_subset _ before)
        · rw [List.mem_singleton.mp last]
          refine FilePath.isName_withSuffix (joined _ ?_)
          rw [FilePath.name, List.getLast?_eq_some_getLast nonempty, Option.getD_some]
          exact List.getLast_mem nonempty

/-- The path that an import path is continued to, seen from a file. -/
def joined (importer : Location) (path : String) : FilePath :=
  (absolute importer).parent.join (FilePath.ofText path)

/-- What an import path names ends with the stem of the path and the suffix of documents. -/
theorem getLast?_importLocation (named : importLocation tree importer path = .ok location) :
    (joined importer path).parts ≠ [] ∧
      location.getLast? = some ((joined importer path).stem ++ ".json") := by
  unfold importLocation at named
  simp only at named
  split at named
  · cases named
  · next candidate suffixed =>
    change (joined importer path).withSuffix ".json" = .ok candidate at suffixed
    unfold FilePath.withSuffix at suffixed
    simp only at suffixed
    split at suffixed
    · cases suffixed
    · split at suffixed
      · cases suffixed
      · next nonempty =>
        cases suffixed
        refine ⟨nonempty, ?_⟩
        have noDots : (joined importer path).stem ++ ".json" ≠ ".." := by
          intro same
          have length := congrArg (fun text => text.toList.length) same
          simp at length
        unfold resolve at named
        split at named
        · cases named
        · cases named
          simp only [List.foldl_append, List.foldl_cons, List.foldl_nil]
          rw [← FilePath.stem, if_neg noDots, List.getLast?_concat]

/-- The stem of what an import path is continued to is that of the path. A path without a stem leads
to the directory of the file. -/
theorem stem_joined (nonempty : (joined importer path).parts ≠ []) :
    (joined importer path).stem = if (FilePath.ofText path).stem = "" then
      (absolute importer).parent.stem else (FilePath.ofText path).stem := by
  unfold joined FilePath.join at *
  by_cases empty : (FilePath.ofText path).parts = []
  · have noStem : (FilePath.ofText path).stem = "" := by
      rw [FilePath.stem, FilePath.name, empty]
      decide
    rw [if_pos noStem]
    split
    · rw [empty, List.append_nil]
    · next anchored =>
      rw [if_neg anchored] at nonempty
      exact absurd empty nonempty
  · have isStem : (FilePath.ofText path).stem ≠ "" := by
      intro noStem
      have noName := FilePath.eq_empty_of_stemOf noStem
      rw [FilePath.name, List.getLast?_eq_some_getLast empty, Option.getD_some] at noName
      exact (FilePath.isName_of_mem_ofText (List.getLast_mem empty)).1 noName
    rw [if_neg isStem]
    split
    · rw [FilePath.stem, FilePath.stem, FilePath.name, FilePath.name,
        List.getLast?_append_of_ne_nil _ empty]
    · rfl

/-- Where no two files have the same stem, import paths with the same stem that lead to files lead
to the same one. -/
theorem eq_of_importLocation (distinct : tree.HasDistinctStems)
    (same : (FilePath.ofText path).stem = (FilePath.ofText path').stem)
    (named : importLocation tree importer path = .ok location)
    (named' : importLocation tree importer path' = .ok other) {content content' : Content}
    (file : (location, .file content) ∈ tree.entries)
    (file' : (other, .file content') ∈ tree.entries) : location = other := by
  obtain ⟨nonempty, last⟩ := getLast?_importLocation named
  obtain ⟨nonempty', last'⟩ := getLast?_importLocation named'
  rw [stem_joined nonempty] at last
  rw [stem_joined nonempty', ← same] at last'
  exact distinct _ location other content content' file file' last last'

end Loader
end GrammarChart
