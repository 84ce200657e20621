import GrammarChart.Model.Reach
import GrammarChart.Proofs.Diagram.Safety

/-!
# The search through imports

The search through imports ends with all that is imported: what is in the queue, and what a found
grammar imports, was seen before or is found (`Model.reachFrom_closed`). No grammar is found twice
(`Model.nodup_reachFrom`).
-/

set_option autoImplicit false

namespace GrammarChart

namespace Model

variable {m : Model}

/-- The items are grammars that were seen or that are found. -/
def AreMet (seen found : List NodeId) (items : List Item) : Prop :=
  ∀ item ∈ items, ∃ g, item = .node g ∧ (g ∈ seen ∨ g ∈ found)

/-- What the queue holds and what a found grammar imports was seen or is found. -/
theorem reachFrom_closed {seen : List NodeId} {queue : List Item} {found : List NodeId}
    (h : m.reachFrom seen queue = .ok found) :
    AreMet seen found queue ∧
      ∀ g ∈ found, ∃ imports, m.importsOf g = .ok imports ∧ AreMet seen found imports := by
  fun_induction reachFrom m seen queue generalizing found with
  | case1 seen =>
    cases h
    exact ⟨fun _ mem => absurd mem List.not_mem_nil, fun _ mem => absurd mem List.not_mem_nil⟩
  | case2 seen id rest known ih =>
    obtain ⟨queued, imported⟩ := ih h
    refine ⟨fun item mem => ?_, imported⟩
    rcases List.mem_cons.mp mem with rfl | later
    · exact ⟨id, rfl, .inl known⟩
    · exact queued item later
  | case3 seen id rest new imports asked ih =>
    cases further : m.reachFrom (id :: seen) (rest ++ imports) with
    | error fault =>
      rw [further] at h
      cases h
    | ok others =>
      rw [further] at h
      cases h
      obtain ⟨queued, imported⟩ := ih further
      -- What was seen from here on is the grammar itself or was seen before.
      have met : ∀ {items : List Item}, AreMet (id :: seen) others items →
          AreMet seen (id :: others) items := by
        intro items met item mem
        obtain ⟨g, rfl, known⟩ := met item mem
        refine ⟨g, rfl, ?_⟩
        rcases known with known | known
        · exact (List.mem_cons.mp known).elim (fun same => .inr (same ▸ List.mem_cons_self)) .inl
        · exact .inr (List.mem_cons_of_mem id known)
      refine ⟨fun item mem => ?_, fun g mem => ?_⟩
      · rcases List.mem_cons.mp mem with rfl | later
        · exact ⟨id, rfl, .inr List.mem_cons_self⟩
        · exact met queued item (List.mem_append_left imports later)
      · rcases List.mem_cons.mp mem with rfl | later
        · exact ⟨imports, asked, fun item mem => met queued item (List.mem_append_right rest mem)⟩
        · obtain ⟨imports', asked', known⟩ := imported g later
          exact ⟨imports', asked', met known⟩
  | case4 seen id rest new fault asked => cases h
  | case5 seen rest tail => cases h

/-- No grammar is found twice, and none that was seen before. -/
theorem nodup_reachFrom {seen : List NodeId} {queue : List Item} {found : List NodeId}
    (h : m.reachFrom seen queue = .ok found) : found.Nodup ∧ ∀ g ∈ found, g ∉ seen := by
  fun_induction reachFrom m seen queue generalizing found with
  | case1 seen =>
    cases h
    exact ⟨List.nodup_nil, fun _ mem => absurd mem List.not_mem_nil⟩
  | case2 seen id rest known ih => exact ih h
  | case3 seen id rest new imports asked ih =>
    obtain ⟨others, further, rfl⟩ := map_eq_ok.mp h
    obtain ⟨distinct, fresh⟩ := ih further
    refine ⟨List.nodup_cons.mpr ⟨fun mem => fresh id mem List.mem_cons_self, distinct⟩, ?_⟩
    refine List.forall_mem_cons.mpr ⟨new, fun g mem again => ?_⟩
    exact fresh g mem (List.mem_cons_of_mem id again)
  | case4 seen id rest new fault asked => cases h
  | case5 seen rest tail => cases h

/-- Where every grammar imports grammars, the search finds some of them without a fault. -/
theorem exists_reachFrom {grammars : List NodeId}
    (closed : ∀ g ∈ grammars, ∃ imports : List NodeId,
      m.importsOf g = .ok (imports.map .node) ∧ ∀ i ∈ imports, i ∈ grammars)
    {seen : List NodeId} {queue : List Item} (inside : ∀ item ∈ queue, ∃ g ∈ grammars, item = .node g) :
    ∃ found, m.reachFrom seen queue = .ok found ∧ ∀ g ∈ found, g ∈ grammars := by
  fun_induction reachFrom m seen queue with
  | case1 seen => exact ⟨[], rfl, fun _ mem => absurd mem List.not_mem_nil⟩
  | case2 seen id rest known ih => exact ih fun item mem => inside item (List.mem_cons_of_mem _ mem)
  | case3 seen id rest new imports asked ih =>
    obtain ⟨_, own, ⟨⟩⟩ := inside _ List.mem_cons_self
    obtain ⟨direct, listed, known⟩ := closed id own
    rw [asked, Except.ok.injEq] at listed
    subst listed
    obtain ⟨found, searched, isFound⟩ := ih fun item mem => by
      rcases List.mem_append.mp mem with later | imported
      · exact inside item (List.mem_cons_of_mem _ later)
      · obtain ⟨i, here, rfl⟩ := List.mem_map.mp imported
        exact ⟨i, known i here, rfl⟩
    refine ⟨id :: found, by rw [searched]; rfl, fun g mem => ?_⟩
    rcases List.mem_cons.mp mem with rfl | later
    · exact own
    · exact isFound g later
  | case4 seen id rest new fault asked =>
    obtain ⟨_, own, ⟨⟩⟩ := inside _ List.mem_cons_self
    obtain ⟨direct, listed, -⟩ := closed id own
    rw [asked] at listed
    cases listed
  | case5 seen rest item isNoNode =>
    obtain ⟨g, -, rfl⟩ := inside _ List.mem_cons_self
    exact absurd rfl (isNoNode g)

/-- What a grammar imports and what a reached grammar imports is reached, or is the grammar. -/
theorem reachable_closed {id : NodeId} {reached : List NodeId}
    (h : m.reachable id = .ok reached) {g : NodeId} (mem : g ∈ id :: reached)
    {imports : List NodeId} (asked : m.importsOf g = .ok (imports.map .node)) :
    ∀ i ∈ imports, i ∈ id :: reached := by
  obtain ⟨direct, own, searched⟩ := bind_eq_ok.mp h
  obtain ⟨queued, imported⟩ := reachFrom_closed searched
  have met : AreMet [id] reached (imports.map .node) := by
    rcases List.mem_cons.mp mem with rfl | later
    · rw [asked, Except.ok.injEq] at own
      exact own ▸ queued
    · obtain ⟨items, here, met⟩ := imported g later
      rw [asked, Except.ok.injEq] at here
      exact here ▸ met
  intro i inside
  obtain ⟨_, ⟨⟩, known⟩ := met (.node i) (List.mem_map_of_mem inside)
  rcases known with same | found
  · exact List.mem_cons.mpr (.inl (List.mem_singleton.mp same))
  · exact List.mem_cons_of_mem id found

/-- A grammar does not reach itself, and reaches no grammar twice. -/
theorem nodup_reachable {id : NodeId} {reached : List NodeId} (h : m.reachable id = .ok reached) :
    (id :: reached).Nodup := by
  obtain ⟨direct, -, searched⟩ := bind_eq_ok.mp h
  obtain ⟨distinct, fresh⟩ := nodup_reachFrom searched
  exact List.nodup_cons.mpr ⟨fun mem => fresh id mem (List.mem_singleton_self id), distinct⟩

/-- Items that are all nodes are their nodes. -/
theorem eq_map_of_mapM_node? {items : List Item} {ids : List NodeId}
    (h : items.mapM Item.node? = some ids) : items = ids.map .node := by
  induction items generalizing ids with
  | nil =>
    cases h
    rfl
  | cons item rest ih =>
    rw [List.mapM_cons] at h
    obtain ⟨id, here, h⟩ := Option.bind_eq_some_iff.mp h
    obtain ⟨others, later, same⟩ := Option.bind_eq_some_iff.mp h
    cases same
    rw [List.map_cons, ← ih later]
    cases item with
    | node other =>
      cases here
      rfl
    | value _ | list _ => cases here

/-- The nodes that a grammar imports, when it imports nodes only. -/
def importedNodes? (m : Model) (id : NodeId) : Option (List NodeId) :=
  (m.importsOf id).toOption.bind (List.mapM Item.node?)

/-- A grammar imports its imported nodes. -/
theorem importsOf_of_importedNodes? {id : NodeId} {ids : List NodeId}
    (h : m.importedNodes? id = some ids) : m.importsOf id = .ok (ids.map .node) := by
  obtain ⟨items, given, nodes⟩ := Option.bind_eq_some_iff.mp h
  cases asked : m.importsOf id with
  | error fault =>
    rw [asked] at given
    cases given
  | ok imports =>
    rw [asked] at given
    cases given
    rw [eq_map_of_mapM_node? nodes]

/-- A grammar that imports one other grammar, which imports none, reaches that one. -/
theorem reachable_of_single {id other : NodeId} (distinct : other ≠ id)
    (direct : m.importedNodes? id = some [other]) (leaf : m.importedNodes? other = some []) :
    m.reachable id = .ok [other] := by
  have new : other ∉ [id] := by simpa using distinct
  have last : ∀ seen, m.reachFrom seen [] = .ok [] := fun seen => by rw [reachFrom]
  rw [reachable, importsOf_of_importedNodes? direct, ok_bind, List.map_singleton, reachFrom,
    if_neg new]
  split
  · next imports asked =>
    rw [importsOf_of_importedNodes? leaf, Except.ok.injEq] at asked
    rw [← asked]
    simp [last, Except.map]
  · next fault asked =>
    rw [importsOf_of_importedNodes? leaf] at asked
    cases asked

end Model
end GrammarChart
