import Mathlib
import GrammarChart.Diagram.Saving
import GrammarChart.Proofs.Files.Locations

/-!
# Files in a directory

What the operations of a file tree do to the files of one directory. A name in the directory leads
to its own location (`IsDirectoryAt.locate`), unless it is too long (`Fits`). Writing a file changes
this location only (`IsDirectoryAt.writeAfterMaking`), and what was written is read with its line
ends unified (`IsDirectoryAt.readText`). None of this makes the directory lead elsewhere
(`IsDirectoryAt.put`).
-/

set_option autoImplicit false

namespace GrammarChart

namespace FilePath

/-- The text can be the name of a file: it is one name of a path, and no step upwards. -/
structure IsFileName (name : String) : Prop where
  isName : IsName name
  noStep : name ≠ ".."
  noNull : '\x00' ∉ name.toList

/-- One name is a path on its own. -/
theorem ofText_name {name : String} (h : IsName name) : ofText name = ⟨.relative, [name]⟩ := by
  obtain ⟨nonempty, noDot, whole⟩ := h
  have letters : name.toList ≠ [] := fun empty => nonempty (String.toList_eq_nil_iff.mp empty)
  have noPoint : name.toList ≠ ['.'] := by
    intro point
    refine noDot (String.toList_inj.mp ?_)
    rw [point]
    rfl
  have split : name.toList.splitOn '/' = [name.toList] := by
    have := @List.splitOn_intercalate _ [name.toList] _ _ '/' (by simpa using whole) (by simp)
    simpa [List.intercalate] using this
  have anchor : anchorOf name.toList = .relative := by
    obtain ⟨c, rest, chars⟩ := List.exists_cons_of_ne_nil letters
    have noSlash : c ≠ '/' := by
      rintro rfl
      exact whole (chars ▸ List.mem_cons_self)
    rw [anchorOf, chars, List.takeWhile_cons, if_neg (by simpa using noSlash)]
    rfl
  have kept : isPart name.toList = true := by
    simp only [isPart, Bool.and_eq_true, Bool.not_eq_true', List.isEmpty_eq_false_iff, bne_iff_ne]
    exact ⟨letters, noPoint⟩
  simp only [ofText, split, anchor]
  rw [List.filter_cons_of_pos kept]
  simp

/-- A name is added to a path. -/
theorem join_name (path : FilePath) {name : String} (h : IsName name) :
    path.join (.ofText name) = ⟨path.anchor, path.parts ++ [name]⟩ := by
  rw [ofText_name h, join, if_pos rfl]

end FilePath

namespace FileTree

variable {tree : FileTree} {directory : FilePath} {location : Location} {name : String}

/-- The path leads to a directory at the location. -/
structure IsDirectoryAt (tree : FileTree) (path : FilePath) (location : Location) : Prop where
  located : tree.locate path = .ok location
  isDirectory : tree.get? location = some .directory

/-- The path leads to a directory at the location, and nothing is in it. -/
structure IsEmptyDirectoryAt (tree : FileTree) (path : FilePath) (location : Location) : Prop
    extends IsDirectoryAt tree path location where
  nothing : ∀ below : Location, below ≠ [] → tree.get? (location ++ below) = none

/-- The name in the directory is not too long for the file system. -/
structure Fits (directory : FilePath) (name : String) : Prop where
  shortName : name.utf8ByteSize ≤ maxNameLength
  shortPath : (directory.join (.ofText name)).text.utf8ByteSize ≤ maxPathLength

instance (directory : FilePath) (name : String) : Decidable (Fits directory name) :=
  decidable_of_iff (name.utf8ByteSize ≤ maxNameLength ∧
    (directory.join (.ofText name)).text.utf8ByteSize ≤ maxPathLength)
    ⟨fun h => ⟨h.1, h.2⟩, fun h => ⟨h.shortName, h.shortPath⟩⟩

section Locating

theorem follow_name (current : Location) (noStep : name ≠ "..") :
    tree.follow current [name] =
      if maxNameLength < name.utf8ByteSize then .error .nameTooLong else .ok (current ++ [name]) := by
  rw [follow.eq_3 tree current name [] noStep]
  simp

/-- From a directory, one more name leads to its own location. -/
theorem follow_concat (noStep : name ≠ "..") {parts : List String} :
    ∀ {current : Location}, tree.follow current parts = .ok location →
      tree.get? location = some .directory →
      tree.follow current (parts ++ [name]) = if maxNameLength < name.utf8ByteSize then
        .error .nameTooLong else .ok (location ++ [name]) := by
  induction parts with
  | nil =>
    intro current h _
    rw [follow] at h
    cases h
    exact follow_name _ noStep
  | cons part rest ih =>
    intro current h isDirectory
    by_cases up : part = ".."
    · subst up
      rw [follow] at h
      rw [List.cons_append, follow]
      exact ih h isDirectory
    · obtain ⟨short, ⟨rfl, rfl⟩ | ⟨-, here, below⟩⟩ := (follow_cons_eq_ok up).mp h
      · rw [List.cons_append, follow_cons_of_directory up short (by simp) isDirectory]
        exact follow_name _ noStep
      · rw [List.cons_append, follow_cons_of_directory up short (by simp) here]
        exact ih below isDirectory

/-- What is followed is what was there. -/
theorem follow_of_directories {other : FileTree}
    (more : ∀ l, tree.get? l = some .directory → other.get? l = some .directory)
    {parts : List String} : ∀ {current : Location},
      tree.follow current parts = .ok location → other.follow current parts = .ok location := by
  induction parts with
  | nil =>
    intro current h
    rw [follow] at h ⊢
    exact h
  | cons part rest ih =>
    intro current h
    by_cases up : part = ".."
    · subst up
      rw [follow] at h ⊢
      exact ih h
    · obtain ⟨short, last | ⟨others, here, below⟩⟩ := (follow_cons_eq_ok up).mp h
      · exact (follow_cons_eq_ok up).mpr ⟨short, .inl last⟩
      · exact (follow_cons_eq_ok up).mpr ⟨short, .inr ⟨others, more _ here, ih below⟩⟩

/-- What a path leads to is where it led before when no directory is taken away. -/
theorem locate_of_directories {other : FileTree} {path : FilePath}
    (working : other.workingDirectory = tree.workingDirectory)
    (more : ∀ l, tree.get? l = some .directory → other.get? l = some .directory)
    (located : tree.locate path = .ok location) : other.locate path = .ok location := by
  have start : other.start path = tree.start path := by
    rw [FileTree.start, FileTree.start, working]
  obtain ⟨plain, short, followed⟩ := locate_eq_ok.mp located
  exact locate_eq_ok.mpr ⟨plain, short, start ▸ follow_of_directories more followed⟩

end Locating

/-- Writing the same file twice is writing it once. -/
theorem put_put (tree : FileTree) (location : Location) (entry other : Entry) :
    (tree.put location entry).put location other = tree.put location other := by
  have again : ∀ entries : List (Location × Entry),
      replace (replace entries location entry) location other = replace entries location other := by
    intro entries
    induction entries with
    | nil => simp [replace]
    | cons head rest ih =>
      obtain ⟨l, e⟩ := head
      by_cases here : l = location <;> simp [replace, here, ih]
  rw [put, put, put, again]

namespace IsDirectoryAt

/-- The path still leads to the directory when no directory is taken away. -/
theorem of_directories {other : FileTree} (dir : IsDirectoryAt tree directory location)
    (working : other.workingDirectory = tree.workingDirectory)
    (more : ∀ l, tree.get? l = some .directory → other.get? l = some .directory) :
    IsDirectoryAt other directory location :=
  ⟨locate_of_directories working more dir.located, more _ dir.isDirectory⟩

/-- A file in the place of anything but a directory does not change where the path leads. -/
theorem put (dir : IsDirectoryAt tree directory location) {changed : Location}
    (h : tree.get? changed ≠ some .directory) (content : Content) :
    IsDirectoryAt (tree.put changed (.file content)) directory location := by
  have below : changed ≠ [] := by
    rintro rfl
    exact h rfl
  refine dir.of_directories rfl fun l isDirectory => ?_
  rw [get?_put _ _ _ _ below, if_neg, isDirectory]
  rintro rfl
  exact h isDirectory

/-- A name in the directory leads to its own location, unless it is too long. -/
theorem locate (dir : IsDirectoryAt tree directory location) (good : FilePath.IsFileName name) :
    tree.locate (directory.join (.ofText name)) =
      if Fits directory name then .ok (location ++ [name])
      else .error (.file .nameTooLong (directory.join (.ofText name)).text) := by
  obtain ⟨plain, -, followed⟩ := locate_eq_ok.mp dir.located
  have child := FilePath.join_name directory good.isName
  have plain' : ¬ (directory.join (.ofText name)).parts.any (·.toList.contains '\x00') := by
    rw [child, List.any_append]
    simpa [good.noNull] using plain
  have start : tree.start (directory.join (.ofText name)) = tree.start directory := by
    rw [child]
    rfl
  have parts : (directory.join (.ofText name)).parts = directory.parts ++ [name] := by
    rw [child]
  rw [FileTree.locate, if_neg plain', start, parts,
    follow_concat good.noStep followed dir.isDirectory]
  by_cases long : maxPathLength < (directory.join (.ofText name)).text.utf8ByteSize
  · rw [if_pos long, if_neg fun fits => absurd fits.shortPath (by omega)]
  · rw [if_neg long]
    by_cases longName : maxNameLength < name.utf8ByteSize
    · rw [if_pos longName, if_neg fun fits => absurd fits.shortName (by omega)]
    · rw [if_neg longName, if_pos ⟨by omega, by omega⟩]

/-- A directory that is there is not made again. -/
theorem ensureDirectories (dir : IsDirectoryAt tree directory location) :
    tree.ensureDirectories directory = (tree, none) := by
  have found : tree.find? directory = .ok (some .directory) := by
    rw [find?, dir.located, ← dir.isDirectory]
  have there : tree.ensureDirectory directory = .ok tree := by
    have made : tree.makeDirectory directory = .error (.file .alreadyExists directory.text) := by
      rw [makeDirectory, dir.located, ok_bind, dir.isDirectory]
      rfl
    rw [ensureDirectory, made]
    dsimp only
    rw [if_neg (by decide), found]
  obtain ⟨anchor, parts⟩ := directory
  have reversed : parts = parts.reverse.reverse := (List.reverse_reverse parts).symm
  rw [FileTree.ensureDirectories]
  cases last : parts.reverse with
  | nil =>
    rw [List.reverse_eq_nil_iff.mp last] at there
    rw [ensureDirectories.go, there]
  | cons name above =>
    rw [last] at reversed
    rw [reversed] at there
    rw [ensureDirectories.go, there]

/-- A text is written to a file of the directory. -/
theorem writeAfterMaking (dir : IsDirectoryAt tree directory location)
    (good : FilePath.IsFileName name) (fits : Fits directory name)
    (free : tree.get? (location ++ [name]) ≠ some .directory) (text : String) :
    tree.writeAfterMaking directory (directory.join (.ofText name)) (.ok text) =
      (tree.put (location ++ [name]) (.file (.plain text)), none) := by
  have truncated : tree.truncate (directory.join (.ofText name)) =
      .ok (tree.put (location ++ [name]) (.file (.plain "")), location ++ [name]) := by
    rw [truncate, dir.locate good, if_pos fits, ok_bind]
    split
    · next isDirectory => exact absurd isDirectory free
    · rfl
  have written : tree.writeText (directory.join (.ofText name)) text =
      .ok (tree.put (location ++ [name]) (.file (.plain text))) := by
    rw [writeText, truncated, ok_bind]
    show Except.ok _ = _
    rw [put_put]
  rw [FileTree.writeAfterMaking, dir.ensureDirectories]
  simp only [Except.toOption, Option.getD_some, written]

/-- Writing to a file whose name is too long changes nothing. -/
theorem writeAfterMaking_of_not_fits (dir : IsDirectoryAt tree directory location)
    (good : FilePath.IsFileName name) (fits : ¬ Fits directory name) (text : String) :
    tree.writeAfterMaking directory (directory.join (.ofText name)) (.ok text) =
      (tree, some (.file .nameTooLong (directory.join (.ofText name)).text)) := by
  have refused : tree.writeText (directory.join (.ofText name)) text =
      .error (.file .nameTooLong (directory.join (.ofText name)).text) := by
    rw [writeText, truncate, dir.locate good, if_neg fits]
    rfl
  rw [FileTree.writeAfterMaking, dir.ensureDirectories]
  simp only [Except.toOption, Option.getD_some, refused]

/-- Writing to a directory changes nothing. -/
theorem writeAfterMaking_of_directory (dir : IsDirectoryAt tree directory location)
    (good : FilePath.IsFileName name) (fits : Fits directory name)
    (taken : tree.get? (location ++ [name]) = some .directory) (text : String) :
    tree.writeAfterMaking directory (directory.join (.ofText name)) (.ok text) =
      (tree, some (.file .isADirectory (directory.join (.ofText name)).text)) := by
  have refused : tree.writeText (directory.join (.ofText name)) text =
      .error (.file .isADirectory (directory.join (.ofText name)).text) := by
    rw [writeText, truncate, dir.locate good, if_pos fits, ok_bind, taken]
    rfl
  rw [FileTree.writeAfterMaking, dir.ensureDirectories]
  simp only [Except.toOption, Option.getD_some, refused]

/-- Writing to a file of the directory changes this file or, if it fails, nothing. -/
theorem writeAfterMaking_cases (dir : IsDirectoryAt tree directory location)
    (good : FilePath.IsFileName name) (text : String) :
    (Fits directory name ∧ tree.get? (location ++ [name]) ≠ some .directory ∧
      tree.writeAfterMaking directory (directory.join (.ofText name)) (.ok text) =
        (tree.put (location ++ [name]) (.file (.plain text)), none)) ∨
    ∃ fault, tree.writeAfterMaking directory (directory.join (.ofText name)) (.ok text) =
      (tree, some fault) := by
  by_cases fits : Fits directory name
  · by_cases taken : tree.get? (location ++ [name]) = some .directory
    · exact .inr ⟨_, dir.writeAfterMaking_of_directory good fits taken text⟩
    · exact .inl ⟨fits, taken, dir.writeAfterMaking good fits taken text⟩
  · exact .inr ⟨_, dir.writeAfterMaking_of_not_fits good fits text⟩

/-- What a name in the directory leads to is what stands at its location. -/
theorem find? (dir : IsDirectoryAt tree directory location) (good : FilePath.IsFileName name) :
    tree.find? (directory.join (.ofText name)) =
      if Fits directory name then .ok (tree.get? (location ++ [name]))
      else .error (.file .nameTooLong (directory.join (.ofText name)).text) := by
  rw [FileTree.find?, dir.locate good]
  by_cases fits : Fits directory name
  · rw [if_pos fits, if_pos fits]
  · rw [if_neg fits, if_neg fits]

/-- A file of the directory is there when something stands at its location. -/
theorem contains (dir : IsDirectoryAt tree directory location) (good : FilePath.IsFileName name)
    (fits : Fits directory name) : tree.contains (directory.join (.ofText name)) =
      .ok (tree.get? (location ++ [name])).isSome := by
  rw [FileTree.contains, dir.find? good, if_pos fits]
  rfl

/-- A file of the directory is read, unless its octets are no text. -/
theorem readContent (dir : IsDirectoryAt tree directory location) (good : FilePath.IsFileName name)
    (fits : Fits directory name) {content : Content}
    (file : tree.get? (location ++ [name]) = some (.file content)) :
    tree.readText (directory.join (.ofText name)) = content.reading.mapError .undecodable := by
  rw [FileTree.readText, dir.locate good, if_pos fits, ok_bind, file]
  cases content <;> rfl

/-- A file of the directory is read with its line ends unified. -/
theorem readText (dir : IsDirectoryAt tree directory location) (good : FilePath.IsFileName name)
    (fits : Fits directory name) {text : String}
    (file : tree.get? (location ++ [name]) = some (.file (.plain text))) :
    tree.readText (directory.join (.ofText name)) = .ok (Text.unifyLineEnds text) :=
  dir.readContent good fits file

end IsDirectoryAt

/-- A file tree with an empty directory and nothing else. -/
def withOutput : FileTree := ⟨[(["out"], .directory)], []⟩

/-- The directory of the tree is empty. -/
theorem isEmptyDirectoryAt_withOutput :
    IsEmptyDirectoryAt withOutput (.ofText "out") ["out"] := by
  refine ⟨⟨by rfl, by rfl⟩, fun below some' => ?_⟩
  obtain ⟨part, rest, rfl⟩ := List.exists_cons_of_ne_nil some'
  simp [withOutput, FileTree.get?, lookup]

end FileTree
end GrammarChart
