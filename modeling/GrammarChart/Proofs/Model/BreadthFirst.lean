import GrammarChart.Proofs.Model.Reach

/-!
# The order of the search through imports

The search through imports goes level by level. While it works through the grammars that are so many
imports away from the root, its queue holds what is left of that level and behind it what was met of
the next one, and all that is nearer was seen (`Model.Level`). A step of the search keeps this
(`Model.Level.skip`, `Model.Level.visit`), so that what the search finds from such a point on comes
in the order of its distance (`Model.reachFrom_of_level`). What stands in front of the queue is
found first (`Model.queued_first`).
-/

set_option autoImplicit false

namespace GrammarChart
namespace Model

variable {m : Model} {root : NodeId}

/-- A grammar imports another one. -/
def Imports (m : Model) (importer imported : NodeId) : Prop :=
  ∃ imports, m.importsOf importer = .ok imports ∧ .node imported ∈ imports

/-- So many imports, one after the other, lead from the root to a grammar. -/
inductive Leads (m : Model) (root : NodeId) : Nat → NodeId → Prop where
  | start : m.Leads root 0 root
  | next {n : Nat} {g i : NodeId} : m.Leads root n g → m.Imports g i → m.Leads root (n + 1) i

/-- The import distance of a grammar from the root: the least number of imports that lead there. -/
noncomputable def distance (m : Model) (root g : NodeId) : Nat :=
  sInf {n | m.Leads root n g}

/-- The root and all that it leads to are grammars that import grammars. -/
def IsImportGraph (m : Model) (root : NodeId) : Prop :=
  ∀ g, Relation.ReflTransGen m.Imports root g → ∃ imports, m.importedNodes? g = some imports

/-- What a grammar imports are the nodes in its list. -/
theorem imports_iff {g i : NodeId} {imports : List NodeId}
    (asked : m.importsOf g = .ok (imports.map .node)) : m.Imports g i ↔ i ∈ imports := by
  simp [Imports, asked]

/-- Where grammars that include the root import each other and nothing else, the root leads to these
only. -/
theorem mem_of_closed {grammars : List NodeId} (own : root ∈ grammars)
    (closed : ∀ g ∈ grammars, ∃ imports ∈ m.importedNodes? g, ∀ i ∈ imports, i ∈ grammars) :
    ∀ g, Relation.ReflTransGen m.Imports root g → g ∈ grammars := by
  intro g walk
  induction walk with
  | refl => exact own
  | tail _ imported ih =>
    obtain ⟨imports, listed, kept⟩ := closed _ ih
    exact kept _ ((imports_iff (importsOf_of_importedNodes? listed)).mp imported)

/-- Grammars that import each other and nothing else are an import graph. -/
theorem isImportGraph_of_closed {grammars : List NodeId} (own : root ∈ grammars)
    (closed : ∀ g ∈ grammars, ∃ imports ∈ m.importedNodes? g, ∀ i ∈ imports, i ∈ grammars) :
    m.IsImportGraph root := by
  intro g walk
  obtain ⟨imports, listed, -⟩ := closed g (mem_of_closed own closed g walk)
  exact ⟨imports, listed⟩

/-- The imports that lead to a grammar are a walk. -/
theorem Leads.reaches {n : Nat} {g : NodeId} (leads : m.Leads root n g) :
    Relation.ReflTransGen m.Imports root g := by
  induction leads with
  | start => exact .refl
  | next _ imported ih => exact ih.tail imported

/-- No walk is shorter than the distance. -/
theorem distance_le {n : Nat} {g : NodeId} (leads : m.Leads root n g) :
    m.distance root g ≤ n :=
  Nat.sInf_le leads

/-- A bound of the walks to a grammar is a bound of its distance, since a shortest one is a walk. -/
theorem le_distance {k n : Nat} {g : NodeId} (leads : m.Leads root n g)
    (bound : ∀ j, m.Leads root j g → k ≤ j) : k ≤ m.distance root g :=
  bound _ (Nat.sInf_mem (s := {j | m.Leads root j g}) ⟨n, leads⟩)

/-- The search is at a level: what is nearer than that was seen, the near part of the queue holds
what is left of the level, and the far part holds what was met of the next one. -/
structure Level (m : Model) (root : NodeId) (k : Nat) (seen near far : List NodeId) : Prop where
  leads_near : ∀ g ∈ near, m.Leads root k g
  leads_far : ∀ g ∈ far, m.Leads root (k + 1) g
  below : ∀ j < k, ∀ g, m.Leads root j g → g ∈ seen
  level : ∀ g, m.Leads root k g → g ∈ seen ∨ g ∈ near
  onward : ∀ g ∈ seen, ∀ i, m.Imports g i → i ∈ seen ∨ i ∈ near ∨ i ∈ far

namespace Level

variable {k : Nat} {g : NodeId} {seen near far : List NodeId}

/-- A level of which nothing is left ends, and the next one begins. -/
theorem advance (stage : m.Level root k seen [] far) : m.Level root (k + 1) seen far [] where
  leads_near := stage.leads_far
  leads_far := List.forall_mem_nil _
  below j before g leads := by
    rcases Nat.lt_succ_iff_lt_or_eq.mp before with earlier | rfl
    · exact stage.below j earlier g leads
    · exact (stage.level g leads).resolve_right List.not_mem_nil
  level g leads := by
    cases leads with
    | next earlier imported =>
      have known := (stage.level _ earlier).resolve_right List.not_mem_nil
      simpa using stage.onward _ known g imported
  onward g known i imported := by simpa using stage.onward g known i imported

/-- What stands first in the queue belongs to the level at which the search is or to the next
one. -/
theorem exists_first {rest : List NodeId} (stage : m.Level root k seen near far)
    (queue : near ++ far = g :: rest) :
    ∃ k' near' far', rest = near' ++ far' ∧ m.Level root k' seen (g :: near') far' := by
  cases near with
  | cons first others =>
    obtain ⟨rfl, rfl⟩ := List.cons.inj queue
    exact ⟨k, others, far, rfl, stage⟩
  | nil =>
    subst queue
    exact ⟨k + 1, rest, [], (List.append_nil rest).symm, stage.advance⟩

/-- What was seen can be left out of the queue. -/
theorem skip (stage : m.Level root k seen (g :: near) far) (known : g ∈ seen) :
    m.Level root k seen near far where
  leads_near := (List.forall_mem_cons.mp stage.leads_near).2
  leads_far := stage.leads_far
  below := stage.below
  level g' leads := by
    rcases stage.level g' leads with known' | queued
    · exact .inl known'
    · rcases List.mem_cons.mp queued with rfl | later
      · exact .inl known
      · exact .inr later
  onward g' known' i imported := by
    rcases stage.onward g' known' i imported with seen' | queued | later
    · exact .inl seen'
    · rcases List.mem_cons.mp queued with rfl | here
      · exact .inl known
      · exact .inr (.inl here)
    · exact .inr (.inr later)

/-- A grammar of the level goes out of the queue, and what it imports is met of the next level. -/
theorem visit {imports : List NodeId} (stage : m.Level root k seen (g :: near) far)
    (asked : m.importsOf g = .ok (imports.map .node)) :
    m.Level root k (g :: seen) near (far ++ imports) where
  leads_near := (List.forall_mem_cons.mp stage.leads_near).2
  leads_far := by
    intro i inside
    rcases List.mem_append.mp inside with met | imported
    · exact stage.leads_far i met
    · exact .next (stage.leads_near g List.mem_cons_self) ((imports_iff asked).mpr imported)
  below j before g' leads := List.mem_cons_of_mem g (stage.below j before g' leads)
  level g' leads := by
    rcases stage.level g' leads with known | queued
    · exact .inl (List.mem_cons_of_mem g known)
    · rcases List.mem_cons.mp queued with rfl | later
      · exact .inl List.mem_cons_self
      · exact .inr later
  onward g' known i imported := by
    rcases List.mem_cons.mp known with rfl | earlier
    · exact .inr (.inr (List.mem_append_right far ((imports_iff asked).mp imported)))
    · rcases stage.onward g' earlier i imported with seen' | queued | later
      · exact .inl (List.mem_cons_of_mem g seen')
      · rcases List.mem_cons.mp queued with rfl | here
        · exact .inl List.mem_cons_self
        · exact .inr (.inl here)
      · exact .inr (.inr (List.mem_append_left imports later))

/-- All that was not seen is at least as far away as the level. -/
theorem le_distance_of_not_mem {n : Nat} (stage : m.Level root k seen near far) (new : g ∉ seen)
    (leads : m.Leads root n g) : k ≤ m.distance root g :=
  le_distance leads fun j leads' =>
    Nat.le_of_not_lt fun before => new (stage.below j before g leads')

end Level

/-- From a level on the search through an import graph finds grammars to which the root leads, and
none after one that is farther away. -/
theorem reachFrom_of_level (graph : m.IsImportGraph root) {k : Nat} {seen near far : List NodeId}
    (stage : m.Level root k seen near far) :
    ∃ found, m.reachFrom seen ((near ++ far).map .node) = .ok found ∧
      (∀ g ∈ found, ∃ n, m.Leads root n g) ∧
      found.Pairwise fun g later => m.distance root g ≤ m.distance root later := by
  generalize queued : (near ++ far).map Item.node = queue
  -- By the recursion of the search, with the level as the invariant: what waits first is at the level,
  -- and visiting it puts what it imports one level farther away.
  fun_induction reachFrom m seen queue generalizing k near far with
  | case1 seen => exact ⟨[], rfl, List.forall_mem_nil _, .nil⟩
  | case2 seen id rest known ih =>
    obtain ⟨_, others, split, ⟨⟩, rfl⟩ := List.map_eq_cons_iff.mp queued
    obtain ⟨k', near', far', rfl, here⟩ := stage.exists_first split
    exact ih (here.skip known) rfl
  | case3 seen id rest new imports asked ih =>
    obtain ⟨_, others, split, ⟨⟩, rfl⟩ := List.map_eq_cons_iff.mp queued
    obtain ⟨k', near', far', rfl, here⟩ := stage.exists_first split
    have leads : m.Leads root k' id := here.leads_near id List.mem_cons_self
    obtain ⟨direct, known⟩ := graph id leads.reaches
    have listed := importsOf_of_importedNodes? known
    obtain rfl : imports = direct.map .node := Except.ok.inj (asked.symm.trans listed)
    have next := here.visit listed
    obtain ⟨found, searched, sound, ordered⟩ := ih next (by simp)
    refine ⟨id :: found, by rw [searched]; rfl, List.forall_mem_cons.mpr ⟨⟨k', leads⟩, sound⟩, ?_⟩
    refine List.pairwise_cons.mpr ⟨fun later mem => ?_, ordered⟩
    obtain ⟨n, leads'⟩ := sound later mem
    have fresh : later ∉ id :: seen := (nodup_reachFrom searched).2 later mem
    exact (distance_le leads).trans (next.le_distance_of_not_mem fresh leads')
  | case4 seen id rest new fault asked =>
    obtain ⟨_, others, split, ⟨⟩, rfl⟩ := List.map_eq_cons_iff.mp queued
    obtain ⟨k', near', far', rfl, here⟩ := stage.exists_first split
    obtain ⟨direct, known⟩ := graph id (here.leads_near id List.mem_cons_self).reaches
    rw [importsOf_of_importedNodes? known] at asked
    cases asked
  | case5 seen rest item isNoNode =>
    obtain ⟨g, others, split, rfl, rfl⟩ := List.map_eq_cons_iff.mp queued
    exact absurd rfl (isNoNode g)

/-- What stands first in the queue and was not seen is found first, in the order in which the queue
names it for the first time. -/
theorem queued_first {ids : List NodeId} {seen found : List NodeId} {rest : List Item}
    (h : m.reachFrom seen (ids.map .node ++ rest) = .ok found) :
    (ids.filter (· ∉ seen)).eraseDups <+: found := by
  induction ids generalizing seen found rest with
  | nil => simp
  | cons id ids ih =>
    rw [List.map_cons, List.cons_append, reachFrom] at h
    by_cases known : id ∈ seen
    · rw [if_pos known] at h
      simpa [known] using ih h
    · rw [if_neg known] at h
      split at h
      · next imports asked =>
        obtain ⟨others, further, rfl⟩ := map_eq_ok.mp h
        rw [List.append_assoc] at further
        have later := ih further
        have left : (ids.filter (· ∉ seen)).filter (! · == id) = ids.filter (· ∉ id :: seen) := by
          rw [List.filter_filter]
          exact List.filter_congr fun i _ => by simp [beq_eq_decide]
        rw [List.filter_cons_of_pos (by simpa using known), List.eraseDups_cons, left]
        exact List.cons_prefix_cons.mpr ⟨rfl, later⟩
      · cases h

/-- The search from a grammar begins with its imports as the first level. -/
theorem level_one {imports : List NodeId} (asked : m.importsOf root = .ok (imports.map .node)) :
    m.Level root 1 [root] imports [] where
  leads_near i inside := .next .start ((imports_iff asked).mpr inside)
  leads_far := List.forall_mem_nil _
  below j before g leads := by
    obtain rfl : j = 0 := by omega
    cases leads
    exact List.mem_singleton_self root
  level g leads := by
    cases leads with
    | next nothing imported =>
      cases nothing
      exact .inr ((imports_iff asked).mp imported)
  onward g known i imported := by
    obtain rfl := List.mem_singleton.mp known
    exact .inr (.inl ((imports_iff asked).mp imported))

/-- The search through an import graph ends with grammars to which the root leads, in the order of
their distance. -/
theorem reachable_of_graph (graph : m.IsImportGraph root) :
    ∃ imports found, m.importedNodes? root = some imports ∧ m.reachable root = .ok found ∧
      (∀ g ∈ found, Relation.TransGen m.Imports root g) ∧
      found.Pairwise (fun g later => m.distance root g ≤ m.distance root later) ∧
      (imports.filter (· ≠ root)).eraseDups <+: found := by
  obtain ⟨imports, known⟩ := graph root .refl
  have asked := importsOf_of_importedNodes? known
  obtain ⟨found, queued, sound, ordered⟩ := reachFrom_of_level graph (level_one asked)
  have searched : m.reachFrom [root] (imports.map .node) = .ok found := by simpa using queued
  have reached : m.reachable root = .ok found := by rw [reachable, asked, ok_bind, searched]
  refine ⟨imports, found, known, reached, fun g mem => ?_, ordered, ?_⟩
  · obtain ⟨n, leads⟩ := sound g mem
    cases leads with
    | start => exact absurd mem (List.nodup_cons.mp (nodup_reachable reached)).1
    | next earlier imported => exact .tail' earlier.reaches imported
  · rw [List.map_append] at queued
    simpa using queued_first queued

/-- **The search through an import graph.** Whatever the imports are, with grammars that import
themselves or each other, the same one twice or one in several ways, the search ends; it finds
exactly the grammars to which one import or more lead, each once and never the root; the distance
from the root never decreases along what is found; and the direct imports come first, as the list of
imports names them for the first time. -/
theorem reachable_breadthFirst (graph : m.IsImportGraph root) :
    ∃ found imports, m.reachable root = .ok found ∧ m.importedNodes? root = some imports ∧
      found.Nodup ∧ (∀ g, g ∈ found ↔ g ≠ root ∧ Relation.TransGen m.Imports root g) ∧
      found.Pairwise (fun g later => m.distance root g ≤ m.distance root later) ∧
      (imports.filter (· ≠ root)).eraseDups <+: found := by
  obtain ⟨imports, found, known, reached, sound, ordered, first⟩ := reachable_of_graph graph
  obtain ⟨notRoot, distinct⟩ := List.nodup_cons.mp (nodup_reachable reached)
  -- What a walk leads to is found, since what is found is closed under imports.
  have complete : ∀ g, Relation.ReflTransGen m.Imports root g → g ∈ root :: found := by
    intro g walk
    induction walk with
    | refl => exact List.mem_cons_self
    | tail earlier imported ih =>
      obtain ⟨direct, known⟩ := graph _ earlier
      have asked := importsOf_of_importedNodes? known
      exact reachable_closed reached ih asked _ ((imports_iff asked).mp imported)
  refine ⟨found, imports, reached, known, distinct, fun g => ⟨fun mem => ?_, ?_⟩, ordered, first⟩
  · exact ⟨fun same => notRoot (same ▸ mem), sound g mem⟩
  · rintro ⟨other, walk⟩
    exact (List.mem_cons.mp (complete g walk.to_reflTransGen)).resolve_left other

/-- The model of grammars without rules that import each other as listed. -/
def ofImports (imports : List (List Nat)) : Model :=
  ⟨imports.map fun ids => .ofShape (.grammar ⟨.nothing, .list [], .list [],
    .ofNodes (ids.map NodeId.mk), .list [], .nothing⟩) .nothing⟩

/-- The search ends from a grammar that imports itself and one of two others twice, where both of
these import a fourth one, which leads back to the first of them. -/
theorem reachable_breadthFirst_tangle :
    let m := ofImports [[0, 1, 2, 1], [3], [2, 3, 0], [1]]
    let root : NodeId := ⟨0⟩
    m.IsImportGraph root ∧
      ∃ found imports, m.reachable root = .ok found ∧ m.importedNodes? root = some imports ∧
        found.Nodup ∧ (∀ g, g ∈ found ↔ g ≠ root ∧ Relation.TransGen m.Imports root g) ∧
        found.Pairwise (fun g later => m.distance root g ≤ m.distance root later) ∧
        (imports.filter (· ≠ root)).eraseDups <+: found := by
  have graph : (ofImports [[0, 1, 2, 1], [3], [2, 3, 0], [1]]).IsImportGraph ⟨0⟩ :=
    @isImportGraph_of_closed _ _ [⟨0⟩, ⟨1⟩, ⟨2⟩, ⟨3⟩] (by decide) (by decide)
  exact ⟨graph, reachable_breadthFirst graph⟩

end Model
end GrammarChart
