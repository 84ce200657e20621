import GrammarChart.Proofs.Diagram.Collected
import GrammarChart.Proofs.Document.References

/-!
# Mirrored models

Two models mirror each other when some of their grammars are paired one to one, such that paired
grammars show the same and import paired grammars (`Model.Mirrors`), whatever else is in the models.
Then the search through imports finds paired grammars in the same order (`Model.agree_reachFrom`), so
paired grammars compile to the same diagram (`Model.Mirrors.result_compileGrammar`). Mirrored models
still mirror each other when the same document is linked to paired imports in both of them
(`Model.Mirrors.agree_link`).
-/

set_option autoImplicit false

namespace GrammarChart

/-- Which grammar of one model goes with which one of another model. -/
abbrev Pairing := NodeId → NodeId → Prop

/-- The pairing with a further pair. -/
def Pairing.with (R : Pairing) (id id' : NodeId) : Pairing :=
  fun g g' => R g g' ∨ g = id ∧ g' = id'

/-- The pairing in which no grammars go together. -/
def Pairing.none : Pairing := fun _ _ => False

variable {R R' : Pairing} {m m' : Model}

/-- Two views show the same document with the same faces, and their imports are paired. -/
structure View.Alike (R : Pairing) (view view' : View) : Prop where
  document : view.document = view'.document
  face : view.face = view'.face
  imports : List.Forall₂ R view.imports view'.imports

/-- Alike views stay so when more grammars are paired. -/
theorem View.Alike.mono {view view' : View} (h : view.Alike R view') (more : R ≤ R') :
    view.Alike R' view' :=
  ⟨h.document, h.face, h.imports.imp more⟩

/-- Alike views have the same sketches. -/
theorem View.Alike.sketches {view view' : View} (h : view.Alike R view') :
    view.sketches = view'.sketches := by
  rw [View.sketches, View.sketches, h.document, h.face]

/-- Paired grammars are displayed and show the same. -/
structure Pairing.Matches (R : Pairing) (grammars grammars' : List NodeId)
    (views views' : NodeId → View) : Prop where
  unique : Relator.BiUnique R
  inside : ∀ g g', R g g' → g ∈ grammars ∧ g' ∈ grammars'
  alike : ∀ g g', R g g' → (views g).Alike R (views' g')

/-- Each of the models displays grammars, and paired grammars show the same. -/
def Model.Mirrors (R : Pairing) (m m' : Model) : Prop :=
  ∃ grammars views grammars' views', m.Displays grammars views ∧ m'.Displays grammars' views' ∧
    R.Matches grammars grammars' views views'

namespace Pairing.Matches

variable {grammars grammars' : List NodeId} {views views' : NodeId → View}

/-- Lists of paired grammars have the same sketches. -/
theorem sketches (h : R.Matches grammars grammars' views views') {gs gs' : List NodeId}
    (paired : List.Forall₂ R gs gs') :
    gs.flatMap (fun g => (views g).sketches) = gs'.flatMap fun g => (views' g).sketches := by
  induction paired with
  | nil => rfl
  | cons first _ ih => rw [List.flatMap_cons, List.flatMap_cons, ih, (h.alike _ _ first).sketches]

/-- What does not change the views of displayed grammars does not change what is paired. -/
theorem of_views (h : R.Matches grammars grammars' views views') {more : List NodeId}
    {changed : NodeId → View} (kept : grammars ⊆ more)
    (same : ∀ g ∈ grammars, changed g = views g) : R.Matches more grammars' changed views' where
  unique := h.unique
  inside := fun g g' pair => ⟨kept (h.inside g g' pair).1, (h.inside g g' pair).2⟩
  alike := fun g g' pair => same g (h.inside g g' pair).1 ▸ h.alike g g' pair

/-- New grammars with alike views are paired with each other. -/
theorem cons (h : R.Matches grammars grammars' views views') {id id' : NodeId}
    (new : id ∉ grammars) (new' : id' ∉ grammars') {view view' : View}
    (alike : view.Alike R view') : (R.with id id').Matches (id :: grammars) (id' :: grammars')
      (Function.update views id view) (Function.update views' id' view') := by
  have more : R ≤ R.with id id' := fun g g' pair => .inl pair
  refine ⟨⟨?_, ?_⟩, ?_, ?_⟩
  · rintro g h' g' (pair | ⟨rfl, rfl⟩) (pair' | ⟨rfl, same⟩)
    · exact h.unique.1 pair pair'
    · exact absurd (same ▸ (h.inside _ _ pair).2) new'
    · exact absurd (h.inside _ _ pair').2 new'
    · rfl
  · rintro g g' h' (pair | ⟨rfl, rfl⟩) (pair' | ⟨same, rfl⟩)
    · exact h.unique.2 pair pair'
    · exact absurd (same ▸ (h.inside _ _ pair).1) new
    · exact absurd (h.inside _ _ pair').1 new
    · rfl
  · rintro g g' (pair | ⟨rfl, rfl⟩)
    · have inside := h.inside g g' pair
      exact ⟨List.mem_cons_of_mem _ inside.1, List.mem_cons_of_mem _ inside.2⟩
    · exact ⟨List.mem_cons_self, List.mem_cons_self⟩
  · rintro g g' (pair | ⟨rfl, rfl⟩)
    · have inside := h.inside g g' pair
      rw [Function.update_of_ne (ne_of_mem_of_not_mem inside.1 new),
        Function.update_of_ne (ne_of_mem_of_not_mem inside.2 new')]
      exact (h.alike g g' pair).mono more
    · rw [Function.update_self, Function.update_self]
      exact alike.mono more

end Pairing.Matches

namespace Model

/-- Where paired grammars import paired grammars, searches that have seen paired grammars and have
paired grammars in their queues find paired grammars. -/
theorem agree_reachFrom (unique : Relator.BiUnique R)
    (closed : ∀ g g', R g g' → ∃ imports imports' : List NodeId,
      m.importsOf g = .ok (imports.map .node) ∧ m'.importsOf g' = .ok (imports'.map .node) ∧
        List.Forall₂ R imports imports')
    {seen seen' : List NodeId} (met : List.Forall₂ R seen seen') {queue : List Item}
    {waiting waiting' : List NodeId} (queued : queue = waiting.map .node)
    (paired : List.Forall₂ R waiting waiting') :
    Agree (List.Forall₂ R) (m.reachFrom seen queue) (m'.reachFrom seen' (waiting'.map .node)) := by
  -- By the recursion of the one search. The other one takes the same branch at each step: it has seen
  -- a grammar exactly when the one has seen its partner, since pairs are unique on both sides.
  fun_induction reachFrom m seen queue generalizing seen' waiting waiting' with
  | case1 seen =>
    obtain rfl := List.map_eq_nil_iff.mp queued.symm
    cases paired
    rw [List.map_nil, reachFrom]
    exact .ok .nil
  | case2 seen id rest known ih =>
    cases paired with
    | nil => cases queued
    | cons first later =>
      cases queued
      rw [List.map_cons, reachFrom, if_pos ((List.rel_mem unique first met).mp known)]
      exact ih met rfl later
  | case3 seen id rest new imports asked ih =>
    cases paired with
    | nil => cases queued
    | @cons _ id' waiting waiting' first later =>
      cases queued
      obtain ⟨direct, direct', listed, listed', both⟩ := closed _ _ first
      rw [asked, Except.ok.injEq] at listed
      subst listed
      rw [List.map_cons, reachFrom, if_neg fun known =>
        new ((List.rel_mem unique first met).mpr known)]
      split
      · next imports' asked' =>
        rw [asked', Except.ok.injEq] at listed'
        subst listed'
        have further := ih (.cons first met) (List.map_append.symm) (List.rel_append later both)
        rw [List.map_append] at further
        exact further.map fun _ _ found => .cons first found
      · next fault asked' =>
        rw [asked'] at listed'
        cases listed'
  | case4 seen id rest new fault asked =>
    cases paired with
    | nil => cases queued
    | cons first later =>
      cases queued
      obtain ⟨direct, direct', listed, -⟩ := closed _ _ first
      rw [asked] at listed
      cases listed
  | case5 seen rest item isNoNode =>
    cases paired with
    | nil => cases queued
    | cons first later =>
      cases queued
      exact absurd rfl (isNoNode _)

namespace Mirrors

/-- Empty models mirror each other. -/
theorem empty : Mirrors .none Model.empty Model.empty :=
  ⟨[], fun _ => .nothing, [], fun _ => .nothing, displays_empty _, displays_empty _,
    ⟨fun _ _ _ pair => pair.elim, fun _ _ _ pair => pair.elim⟩, fun _ _ pair => pair.elim,
    fun _ _ pair => pair.elim⟩

/-- A model with a further grammar that stands for a file still mirrors the other one. -/
theorem standIn (h : Mirrors R m m') (name path : Item) :
    Mirrors R (m.add (.ofShape (.grammar (.standIn name path)) .nothing)).1 m' := by
  obtain ⟨grammars, views, grammars', views', displays, displays', paired⟩ := h
  have new := displays.not_mem (Nat.le_refl m.nodes.length)
  exact ⟨_, _, grammars', views', displays.standIn name path, displays',
    paired.of_views (List.subset_cons_self _ _) fun g mem =>
      Function.update_of_ne (ne_of_mem_of_not_mem mem new) _ _⟩

/-- A model with a renamed grammar still mirrors the other one. -/
theorem rename (h : Mirrors R m m') (id : NodeId) (name path : Grammar → Item) :
    Mirrors R (m.updateGrammar id fun g => { g with name := name g, path := path g }) m' := by
  obtain ⟨grammars, views, grammars', views', displays, displays', paired⟩ := h
  exact ⟨grammars, views, grammars', views', displays.rename id name path, displays', paired⟩

/-- Paired grammars reach paired grammars. -/
theorem agree_reachable (h : Mirrors R m m') {id id' : NodeId} (own : R id id') :
    Agree (List.Forall₂ R) (m.reachable id) (m'.reachable id') := by
  obtain ⟨grammars, views, grammars', views', displays, displays', paired⟩ := h
  have closed : ∀ g g', R g g' → ∃ imports imports' : List NodeId,
      m.importsOf g = .ok (imports.map .node) ∧ m'.importsOf g' = .ok (imports'.map .node) ∧
        List.Forall₂ R imports imports' := by
    intro g g' pair
    obtain ⟨here, here'⟩ := paired.inside g g' pair
    exact ⟨_, _, (displays.shown g here).importsOf, (displays'.shown g' here').importsOf,
      (paired.alike g g' pair).imports⟩
  obtain ⟨imports, imports', asked, asked', both⟩ := closed id id' own
  rw [reachable, reachable, asked, asked', ok_bind, ok_bind]
  exact agree_reachFrom paired.unique closed (.cons own .nil) rfl both

/-- Paired grammars compile to the same diagram, or to none, or fault in the same way. -/
theorem result_compileGrammar (h : Mirrors R m m') {id id' : NodeId} (own : R id id')
    (withImports : Bool) (writer : Writer) :
    (m.compileGrammar false withImports id writer).result =
      (m'.compileGrammar false withImports id' writer).result := by
  have reaches := h.agree_reachable own
  obtain ⟨grammars, views, grammars', views', displays, displays', paired⟩ := h
  obtain ⟨here, here'⟩ := paired.inside id id' own
  have found : ∃ reached reached', List.Forall₂ R reached reached' ∧
      (if withImports then m.reachable id else .ok []) = .ok reached ∧
      (if withImports then m'.reachable id' else .ok []) = .ok reached' ∧
      (∀ g ∈ id :: reached, g ∈ grammars) ∧ ∀ g ∈ id' :: reached', g ∈ grammars' := by
    cases withImports with
    | false =>
      exact ⟨[], [], .nil, rfl, rfl, by simpa using here, by simpa using here'⟩
    | true =>
      obtain ⟨reached, found, inside⟩ := displays.exists_reachable here
      obtain ⟨reached', found', inside'⟩ := displays'.exists_reachable here'
      rw [found, found'] at reaches
      cases reaches with
      | ok both => exact ⟨reached, reached', both, found, found', inside, inside'⟩
  obtain ⟨reached, reached', both, found, found', inside, inside'⟩ := found
  rw [displays.result_compileGrammar found inside, displays'.result_compileGrammar found' inside',
    (paired.alike id id' own).document, paired.sketches (.cons own both)]

end Mirrors
end Model

/-- Imported grammars are noted under the same stems, and are paired. -/
def Imported.Paired (R : Pairing) (imported imported' : Imported) : Prop :=
  List.Forall₂ (fun entry entry' => entry.1 = entry'.1 ∧ R entry.2 entry'.2) imported imported'

namespace Imported.Paired

variable {imported imported' : Imported}

/-- Imports stay paired when more grammars are. -/
theorem mono (h : Paired R imported imported') (more : R ≤ R') : Paired R' imported imported' :=
  h.imp fun _ _ same => ⟨same.1, more _ _ same.2⟩

/-- The imported grammars are paired. -/
theorem grammars (h : Paired R imported imported') :
    List.Forall₂ R (imported.map Prod.snd) (imported'.map Prod.snd) := by
  rw [List.forall₂_map_left_iff, List.forall₂_map_right_iff]
  exact h.imp fun _ _ same => same.2

/-- Noting paired grammars under the same stem keeps imports paired. -/
theorem insert (h : Paired R imported imported') (stem : String) {id id' : NodeId}
    (pair : R id id') : Paired R (imported.insert stem id) (imported'.insert stem id') := by
  induction h with
  | nil => exact .cons ⟨rfl, pair⟩ .nil
  | @cons entry entry' rest rest' first later ih =>
    obtain ⟨s, g⟩ := entry
    obtain ⟨s', g'⟩ := entry'
    obtain ⟨rfl, same⟩ := first
    rw [Imported.insert, Imported.insert]
    split
    · exact .cons ⟨rfl, pair⟩ later
    · exact .cons ⟨rfl, same⟩ ih

end Imported.Paired

/-- Two results of linking mirror each other, with the grammars that were linked as a further
pair. -/
def Model.LinkedAlike (R : Pairing) (made made' : Model × NodeId) : Prop :=
  Mirrors (R.with made.2 made'.2) made.1 made'.1

end GrammarChart
