import GrammarChart.Proofs.Document.Runs
import GrammarChart.Proofs.Files.Writing

/-!
# Families of documents

Documents that import each other by their stems, as the files of one directory: a document with the
stem `s` is imported by the path `./s.langium`, which leads from one file of the directory to the
file `s.json` beside it (`FileIn.importLocation`). No document of a family imports itself, directly
or by way of others (`Family`).
-/

set_option autoImplicit false

namespace GrammarChart

/-- A name with a suffix has the rest of it for its stem. -/
theorem FilePath.stemOf_append {stem suffix : String} (nonempty : stem ≠ "")
    (given : suffix ≠ "") (whole : '.' ∉ suffix.toList) :
    stemOf (stem ++ "." ++ suffix) = stem := by
  have letters : (stem ++ "." ++ suffix).toList = stem.toList ++ '.' :: suffix.toList := by simp
  have before : ∀ c ∈ suffix.toList.reverse, (c != '.') = true := fun c mem =>
    bne_iff_ne.mpr (ne_of_mem_of_not_mem (List.mem_reverse.mp mem) whole)
  have tail : (stem.toList ++ '.' :: suffix.toList).reverse.takeWhile (· != '.') =
      suffix.toList.reverse := by
    rw [List.reverse_append, List.reverse_cons, List.append_assoc,
      List.takeWhile_append_of_pos before]
    simp
  have positive : 0 < stem.toList.length :=
    List.length_pos_iff.mpr fun empty => nonempty (String.toList_eq_nil_iff.mp empty)
  have positive' : 0 < suffix.toList.length :=
    List.length_pos_iff.mpr fun empty => given (String.toList_eq_nil_iff.mp empty)
  have point : splitPoint? (stem.toList ++ '.' :: suffix.toList) = some stem.toList.length := by
    rw [splitPoint?, tail]
    simp only [List.length_reverse, List.length_append, List.length_cons]
    rw [if_pos (by simp), if_pos (by omega), Option.some.injEq]
    omega
  unfold stemOf
  rw [letters, point]
  simp

/-- A path of one name that starts at the directory it stands in. -/
theorem FilePath.ofText_beside {name : String} (h : IsName name) :
    ofText ("./" ++ name) = ⟨.relative, [name]⟩ := by
  have own := ofText_name h
  rw [ofText, FilePath.mk.injEq] at own
  have letters : ("./" ++ name).toList = ['.'] ++ '/' :: name.toList := by simp
  rw [ofText, letters, List.splitOn_append_cons_self_of_not_mem (by decide),
    List.filter_cons_of_neg (by decide), own.2]
  rfl

namespace FileTree

/-- Names without double dots lead on one by one. -/
theorem foldl_names {names : List String} (noSteps : ∀ name ∈ names, name ≠ "..") :
    ∀ start : Location, names.foldl
      (fun l part => if part = ".." then l.dropLast else l ++ [part]) start = start ++ names := by
  induction names with
  | nil => exact fun start => (List.append_nil start).symm
  | cons name rest ih =>
    intro start
    rw [List.forall_mem_cons] at noSteps
    rw [List.foldl_cons, if_neg noSteps.1, ih noSteps.2, List.append_assoc]
    rfl

/-- The path of a proper location without null characters names the location. -/
theorem resolve_absolute {tree : FileTree} {location : Location} (proper : IsProper location)
    (plain : ¬ location.any (·.toList.contains '\x00')) :
    tree.resolve (absolute location) = .ok location := by
  rw [resolve, absolute, if_neg plain, foldl_names fun name mem => (proper name mem).2]
  rfl

end FileTree

/-- The character can be in the stem of a document of a family. -/
def Family.isStemCharacter (c : Char) : Bool :=
  c.isAlphanum || c == '_' || c == '-'

namespace Family

/-- The text can be the stem of a document of a family. -/
structure IsStem (stem : String) : Prop where
  nonempty : stem ≠ ""
  characters : ∀ c ∈ stem.toList, isStemCharacter c = true

instance (stem : String) : Decidable (IsStem stem) :=
  decidable_of_iff (stem ≠ "" ∧ stem.toList.all isStemCharacter = true)
    ⟨fun h => ⟨h.1, List.all_eq_true.mp h.2⟩, fun h => ⟨h.1, List.all_eq_true.mpr h.2⟩⟩

/-- The path that the document of a stem is imported by. -/
def importPath (stem : String) : String := "./" ++ (stem ++ "." ++ "langium")

/-- The name of the file of the document of a stem. -/
def fileName (stem : String) : String := stem ++ ".json"

/-- One document of a list of documents with their stems imports another one. -/
def Imports (documents : List (String × Fields)) (importer stem : String) : Prop :=
  ∃ fields paths, (importer, fields) ∈ documents ∧ Document.importPaths fields = .ok paths ∧
    .str (importPath stem) ∈ paths

end Family

/-- Documents with their stems, one of which is the one to be loaded. They import only documents of
stems, which may be others than those of the family, and none of them imports itself, directly or
not. -/
structure Family where
  root : String × Fields
  others : List (String × Fields)
  stems : ∀ entry ∈ root :: others, Family.IsStem entry.1
  distinct : ((root :: others).map Prod.fst).Nodup
  regular : ∀ entry ∈ root :: others, ∀ paths, Document.importPaths entry.2 = .ok paths →
    ∀ path ∈ paths, ∃ stem, Family.IsStem stem ∧ path = .str (Family.importPath stem)
  acyclic : ∀ stem, ¬ Relation.TransGen (Family.Imports (root :: others)) stem stem

namespace Family

section Names

variable {stem other : String}

namespace IsStem

/-- A character that is in no stem. -/
theorem not_mem (h : IsStem stem) {c : Char} (foreign : isStemCharacter c = false) :
    c ∉ stem.toList := by
  intro mem
  rw [h.characters c mem] at foreign
  cases foreign

/-- A stem with a suffix is the name of a file. -/
theorem isFileName (h : IsStem stem) {suffix : String} (long : 3 ≤ suffix.toList.length)
    (whole : '/' ∉ suffix.toList) (noNull : '\x00' ∉ suffix.toList) :
    FilePath.IsFileName (stem ++ suffix) := by
  have length : (stem ++ suffix).toList.length = stem.toList.length + suffix.toList.length := by
    simp
  have ne : ∀ text : String, text.toList.length < 3 → stem ++ suffix ≠ text := by
    rintro _ short rfl
    omega
  refine ⟨⟨ne "" (by decide), ne "." (by decide), ?_⟩, ne ".." (by decide), ?_⟩
  · rw [String.toList_append, List.mem_append]
    exact fun mem => mem.elim (h.not_mem (by decide)) whole
  · rw [String.toList_append, List.mem_append]
    exact fun mem => mem.elim (h.not_mem (by decide)) noNull

/-- The name of the file of a stem. -/
theorem isFileName_fileName (h : IsStem stem) : FilePath.IsFileName (fileName stem) :=
  h.isFileName (by decide) (by decide) (by decide)

/-- The path that a stem is imported by is one name beside the importing file. -/
theorem ofText_importPath (h : IsStem stem) :
    FilePath.ofText (importPath stem) = ⟨.relative, [stem ++ "." ++ "langium"]⟩ := by
  refine FilePath.ofText_beside ?_
  have name : FilePath.IsFileName (stem ++ ("." ++ "langium")) :=
    h.isFileName (by decide) (by decide) (by decide)
  exact String.append_assoc .. ▸ name.isName

end IsStem

/-- Different stems are imported by different paths. -/
theorem importPath_inj (same : importPath stem = importPath other) : stem = other := by
  rw [importPath, importPath, String.append_right_inj, String.append_left_inj,
    String.append_left_inj] at same
  exact same

/-- Different stems have different files. -/
theorem fileName_inj (same : fileName stem = fileName other) : stem = other :=
  String.append_left_inj _ |>.mp same

end Names

/-- The documents of a family. -/
def documents (family : Family) : List (String × Fields) := family.root :: family.others

/-- The documents of a family that are not the one to be loaded, by the paths that they are imported
by. -/
def attached (family : Family) : Fields :=
  family.others.map fun entry => (importPath entry.1, .obj entry.2)

/-- The location of the file of a stem. -/
def fileAt (directory : Location) (stem : String) : Location := directory ++ [fileName stem]

/-- The documents of a family are files of a directory, in which there are no files of other
documents that they import. -/
structure LiesIn (family : Family) (tree : FileTree) (directory : Location) : Prop where
  proper : FileTree.IsProper directory
  isDirectory : tree.IsDirectoryAt (FileTree.absolute directory) directory
  there : ∀ entry ∈ family.documents,
    Loader.readFile tree (FileTree.absolute (fileAt directory entry.1)) = .ok (.obj entry.2)
  absent : ∀ importer stem, Imports family.documents importer stem →
    stem ∉ family.documents.map Prod.fst → tree.get? (fileAt directory stem) = none

/-- Where the documents of a family import a document that is not one of them, the name of its file
would not be too long. -/
def FitsIn (family : Family) (directory : Location) : Prop :=
  ∀ importer stem, Imports family.documents importer stem →
    stem ∉ family.documents.map Prod.fst →
    FileTree.Fits (FileTree.absolute directory) (fileName stem)

variable {family : Family} {tree : FileTree} {directory : Location} {stem importer : String}
  {fields : Fields}

/-- A document of the family that is not the one to be loaded is attached. -/
theorem get?_attached (mem : (stem, fields) ∈ family.others) :
    family.attached.get? (importPath stem) = some (.obj fields) := by
  have distinct := (List.nodup_cons.mp family.distinct).2
  unfold attached
  generalize family.others = others at mem distinct
  induction others with
  | nil => exact absurd mem List.not_mem_nil
  | cons entry rest ih =>
    rw [List.map_cons, Fields.get?]
    rcases List.mem_cons.mp mem with rfl | later
    · exact if_pos rfl
    · rw [List.map_cons, List.nodup_cons] at distinct
      rw [if_neg, ih later distinct.2]
      intro same
      exact distinct.1 (importPath_inj same ▸ List.mem_map_of_mem later)

/-- No other document is attached. -/
theorem get?_attached_of_not_mem (absent : stem ∉ family.others.map Prod.fst) :
    family.attached.get? (importPath stem) = none := by
  unfold attached
  generalize family.others = others at absent
  induction others with
  | nil => rfl
  | cons entry rest ih =>
    rw [List.map_cons, List.mem_cons, not_or] at absent
    rw [List.map_cons, Fields.get?, if_neg fun same => absent.1 (importPath_inj same).symm,
      ih absent.2]

/-- The files of stems are at proper locations. -/
theorem isProper_fileAt (proper : FileTree.IsProper directory) (h : IsStem stem) :
    FileTree.IsProper (fileAt directory stem) := by
  intro name mem
  rcases List.mem_append.mp mem with above | here
  · exact proper name above
  · rw [List.mem_singleton.mp here]
    exact ⟨h.isFileName_fileName.isName, h.isFileName_fileName.noStep⟩

/-- Different stems have files of different names. -/
theorem nameOf_fileAt_inj (proper : FileTree.IsProper directory) {other : String}
    (h : IsStem stem) (k : IsStem other) (same : FileTree.nameOf (fileAt directory stem) =
      FileTree.nameOf (fileAt directory other)) : stem = other := by
  have located := FileTree.eq_of_text_eq (isProper_fileAt proper h) (isProper_fileAt proper k) same
  rw [fileAt, fileAt, List.append_cancel_left_eq, List.singleton_inj] at located
  exact fileName_inj located

namespace LiesIn

/-- From a file of the directory, the path that a stem is imported by leads to the file of the
stem. -/
theorem importLocation (h : family.LiesIn tree directory) (isStem : IsStem stem)
    (importer : String) : Loader.importLocation tree (fileAt directory importer) (importPath stem) =
      .ok (fileAt directory stem) := by
  have beside : (FileTree.absolute (fileAt directory importer)).parent.join
      (FilePath.ofText (importPath stem)) =
      ⟨.root, directory ++ [stem ++ "." ++ "langium"]⟩ := by
    rw [isStem.ofText_importPath, FilePath.join, if_pos rfl]
    simp [FileTree.absolute, FilePath.parent, fileAt]
  have suffixed : FilePath.withSuffix ⟨.root, directory ++ [stem ++ "." ++ "langium"]⟩ ".json" =
      .ok (FileTree.absolute (fileAt directory stem)) := by
    rw [FilePath.withSuffix]
    simp only
    rw [if_neg (by decide), if_neg (by simp), FilePath.name, List.getLast?_concat,
      Option.getD_some, FilePath.stemOf_append isStem.nonempty (by decide) (by decide),
      List.dropLast_concat]
    rfl
  have plain : ¬ (fileAt directory stem).any (·.toList.contains '\x00') := by
    obtain ⟨plain, -⟩ := FileTree.locate_eq_ok.mp h.isDirectory.located
    have above : (directory.any (·.toList.contains '\x00')) = false := Bool.eq_false_iff.mpr plain
    rw [fileAt, List.any_append, above]
    simp [isStem.isFileName_fileName.noNull]
  rw [Loader.importLocation, beside, suffixed]
  exact FileTree.resolve_absolute (isProper_fileAt h.proper isStem) plain

/-- The file of an imported document is there when the document is one of the family. -/
theorem contains (h : family.LiesIn tree directory) (fits : family.FitsIn directory)
    (imports : Imports family.documents importer stem) (isStem : IsStem stem) :
    tree.contains (FileTree.absolute (fileAt directory stem)) =
      .ok (decide (stem ∈ family.documents.map Prod.fst)) := by
  have name := isStem.isFileName_fileName
  have path : (FileTree.absolute directory).join (.ofText (fileName stem)) =
      FileTree.absolute (fileAt directory stem) := FilePath.join_name _ name.isName
  by_cases mem : stem ∈ family.documents.map Prod.fst
  · obtain ⟨⟨_, fields⟩, inside, rfl⟩ := List.mem_map.mp mem
    obtain ⟨text, read, -⟩ := bind_eq_ok.mp (h.there _ inside)
    rw [FileTree.contains_of_readText read, decide_eq_true mem]
  · have contained := h.isDirectory.contains name (fits importer stem imports mem)
    rw [path] at contained
    have absent : tree.get? (directory ++ [fileName stem]) = none :=
      h.absent importer stem imports mem
    rw [contained, absent, decide_eq_false mem]
    rfl

end LiesIn

end Family
end GrammarChart
