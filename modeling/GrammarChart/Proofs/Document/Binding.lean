import GrammarChart.Document.Binding
import GrammarChart.Proofs.Document.Planting

/-!
# Bound documents

Binding goes through the references that a planting noted and gives each the target that its
address leads to, if any, and it touches nothing else (`Planting.binds_of_bindAll`). So everything
that was planted still stands, with its references bound (`Planting.Binds.carries`). Binding stops
only when following some address faults (`exists_bindAll_eq_ok`, `exists_bindAll_eq_error`).
-/

set_option autoImplicit false

namespace GrammarChart

namespace Model

variable {m : Model}

/-- Binding changes the target of the reference and nothing else. -/
theorem node?_bind (m : Model) (link id : NodeId) (target : Item) :
    (m.bind link target).node? id =
      if link = id then (m.node? id).map fun node =>
        match node.shape with
        | .reference l => { node with shape := .reference { l with target := target } }
        | _ => node
      else m.node? id :=
  m.node?_update link id _

/-- A bound reference has the target, and every other one the one it had. -/
theorem link?_bind (m : Model) (link id : NodeId) (target : Item) :
    (m.bind link target).link? id =
      if link = id then (m.link? id).map ({ · with target := target }) else m.link? id := by
  unfold link? shape?
  rw [node?_bind]
  by_cases same : link = id
  · rw [if_pos same, if_pos same]
    cases m.node? id with
    | none => rfl
    | some node => cases hs : node.shape <;> simp [hs]
  · rw [if_neg same, if_neg same]

/-- Binding a reference leaves alone what stands in what. -/
theorem containsAlike_bind (m : Model) (link : NodeId) (target : Item) :
    m.ContainsAlike (m.bind link target) := by
  refine m.containsAlike_update link ?_ ?_
  · intro node
    cases node.shape <;> rfl
  · intro node
    cases hs : node.shape <;> simp [hs, Shape.children]

/-- Binding a reference leaves settled nodes alone. -/
theorem extends_bind (m : Model) (link : NodeId) (target : Item) :
    m.Extends (m.bind link target) := by
  refine extends_update ?_
  intro node settled
  cases hs : node.shape <;> simp_all [Shape.isSettled]

/-- Binding a reference leaves grammars alone. -/
theorem grammar?_bind (m : Model) (link id : NodeId) (target : Item) :
    (m.bind link target).grammar? id = m.grammar? id := by
  unfold grammar? shape?
  rw [node?_bind]
  by_cases same : link = id
  · rw [if_pos same]
    cases m.node? id with
    | none => rfl
    | some node => cases hs : node.shape <;> simp [hs]
  · rw [if_neg same]

/-- Binds a reference, or leaves it alone. -/
def bindTo (m : Model) (link : NodeId) (found : Option NodeId) : Model :=
  match found with
  | some target => m.bind link (.node target)
  | none => m

section BindTo

variable (m) (link id : NodeId) (found : Option NodeId)

/-- A bound reference has the target that was found, if any. -/
theorem link?_bindTo : (m.bindTo link found).link? id =
    if link = id then
      (m.link? id).map fun l => { l with target := (found.map Item.node).getD l.target }
    else m.link? id := by
  cases found with
  | none =>
    rw [bindTo]
    split <;> simp
  | some target =>
    rw [bindTo, link?_bind]
    rfl

/-- Nodes other than the reference are left alone. -/
theorem node?_bindTo (other : link ≠ id) : (m.bindTo link found).node? id = m.node? id := by
  cases found with
  | none => rfl
  | some target => rw [bindTo, node?_bind, if_neg other]

/-- Binding leaves alone what stands in what. -/
theorem containsAlike_bindTo : m.ContainsAlike (m.bindTo link found) := by
  cases found with
  | none => exact .refl m
  | some target => exact m.containsAlike_bind link (.node target)

/-- Binding leaves settled nodes alone. -/
theorem extends_bindTo : m.Extends (m.bindTo link found) := by
  cases found with
  | none => exact .refl m
  | some target => exact m.extends_bind link (.node target)

/-- Binding leaves grammars alone. -/
theorem grammar?_bindTo : (m.bindTo link found).grammar? id = m.grammar? id := by
  cases found with
  | none => rfl
  | some target => exact m.grammar?_bind link id (.node target)

end BindTo

end Model

namespace Planting

variable {p : Planting} {imported : Imported} {fields : Fields} {m m' : Model}

/-- Binding the first reference of a list and then the others. -/
theorem bindAll_cons {link : NodeId} {address : Json} {rest : List (NodeId × Json)} :
    p.bindAll imported fields m ((link, address) :: rest) = (do
      let found ← p.nodeAt imported fields address
      p.bindAll imported fields (m.bindTo link found) rest) := by
  rw [bindAll]
  cases p.nodeAt imported fields address with
  | error fault => rfl
  | ok found => cases found <;> rfl

/-- Some references of a model were bound to what their addresses lead to, and all else is as it
was. -/
structure Binds (p : Planting) (imported : Imported) (fields : Fields)
    (pending : List (NodeId × Json)) (m m' : Model) : Prop where
  containment : m.ContainsAlike m'
  extension : m.Extends m'
  grammars : ∀ id, m'.grammar? id = m.grammar? id
  others : ∀ id, id ∉ pending.map Prod.fst → m'.node? id = m.node? id
  links : ∀ entry ∈ pending, ∃ found, p.nodeAt imported fields entry.2 = .ok found ∧
    m'.link? entry.1 = (m.link? entry.1).map fun l =>
      { l with target := (found.map Item.node).getD l.target }

/-- References that are different from each other are bound to what their addresses lead to. -/
theorem binds_of_bindAll {pending : List (NodeId × Json)} (distinct : (pending.map Prod.fst).Nodup)
    (h : p.bindAll imported fields m pending = .ok m') :
    p.Binds imported fields pending m m' := by
  induction pending generalizing m with
  | nil =>
    rw [bindAll, Except.ok.injEq] at h
    subst h
    exact ⟨.refl m, .refl m, fun _ => rfl, fun _ _ => rfl, by simp⟩
  | cons entry rest ih =>
    obtain ⟨link, address⟩ := entry
    rw [bindAll_cons, bind_eq_ok] at h
    obtain ⟨found, led, h⟩ := h
    rw [List.map_cons, List.nodup_cons] at distinct
    have later := ih distinct.2 h
    refine ⟨?_, ?_, ?_, ?_, ?_⟩
    · exact (m.containsAlike_bindTo link found).trans later.containment
    · exact (m.extends_bindTo link found).trans later.extension
    · exact fun id => (later.grammars id).trans (m.grammar?_bindTo link id found)
    · intro id other
      rw [List.map_cons, List.mem_cons, not_or] at other
      rw [later.others id other.2, m.node?_bindTo link id found (Ne.symm other.1)]
    · intro entry mem
      rcases List.mem_cons.mp mem with rfl | tail
      · refine ⟨found, led, ?_⟩
        -- The reference is not among the later ones, so its target stays.
        rw [Model.link?, Model.shape?, later.others link distinct.1]
        have bound := m.link?_bindTo link link found
        rwa [if_pos rfl] at bound
      · obtain ⟨found', led', bound⟩ := later.links entry tail
        have other : link ≠ entry.1 := by
          rintro rfl
          exact distinct.1 (List.mem_map.mpr ⟨entry, tail, rfl⟩)
        exact ⟨found', led', by rw [bound, m.link?_bindTo, if_neg other]⟩

/-- Binding gives a model when no address faults. -/
theorem exists_bindAll_eq_ok {pending : List (NodeId × Json)}
    (led : ∀ entry ∈ pending, ∃ found, p.nodeAt imported fields entry.2 = .ok found) :
    ∃ m', p.bindAll imported fields m pending = .ok m' := by
  induction pending generalizing m with
  | nil => exact ⟨m, rfl⟩
  | cons entry rest ih =>
    obtain ⟨found, here⟩ := led entry List.mem_cons_self
    obtain ⟨m', bound⟩ := ih (m := m.bindTo entry.1 found) fun e mem =>
      led e (List.mem_cons_of_mem _ mem)
    exact ⟨m', by rw [bindAll_cons, here, ok_bind, bound]⟩

/-- Binding stops with the fault of an address when some address faults. -/
theorem exists_bindAll_eq_error {pending : List (NodeId × Json)}
    (faulty : ∃ entry ∈ pending, ∃ fault, p.nodeAt imported fields entry.2 = .error fault) :
    ∃ entry ∈ pending, ∃ fault, p.nodeAt imported fields entry.2 = .error fault ∧
      p.bindAll imported fields m pending = .error fault := by
  induction pending generalizing m with
  | nil =>
    obtain ⟨entry, mem, -⟩ := faulty
    exact absurd mem List.not_mem_nil
  | cons entry rest ih =>
    cases led : p.nodeAt imported fields entry.2 with
    | error fault =>
      exact ⟨entry, List.mem_cons_self, fault, led, by rw [bindAll_cons, led, error_bind]⟩
    | ok found =>
      have later : ∃ e ∈ rest, ∃ fault, p.nodeAt imported fields e.2 = .error fault := by
        obtain ⟨e, mem, fault, stops⟩ := faulty
        rcases List.mem_cons.mp mem with rfl | tail
        · rw [led] at stops
          simp at stops
        · exact ⟨e, tail, fault, stops⟩
      obtain ⟨e, mem, fault, stops, bound⟩ := ih (m := m.bindTo entry.1 found) later
      exact ⟨e, List.mem_cons_of_mem _ mem, fault, stops, by rw [bindAll_cons, led, ok_bind, bound]⟩

end Planting

/-- Values stand as they are, and a reference stands bound to what its address leads to. -/
def Interpretation.bound (leadsTo : Json → Except Fault (Option NodeId)) :
    Interpretation Json Reference where
  word := id
  leads m place reference := ∃ link target, place = .node link ∧
    m.link? link = some ⟨.value reference.text, target⟩ ∧
    match reference.address with
    | none => target = .nothing
    | some address => ∃ found, leadsTo address = .ok found ∧
        target = (found.map Item.node).getD .nothing

/-- What was planted stands bound once all noted references are bound. -/
theorem Planting.Binds.carries {p : Planting} {imported : Imported} {fields : Fields} {m' : Model}
    (h : p.Binds imported fields p.pending p.model m') :
    (Interpretation.planted p.pending).Carries p.model (.bound (p.nodeAt imported fields)) m' where
  word := rfl
  extension := h.extension
  leads := by
    rintro place reference ⟨link, rfl, found, noted⟩
    cases address : reference.address with
    | none =>
      rw [address] at noted
      have absent : link ∉ p.pending.map Prod.fst := by
        intro mem
        obtain ⟨entry, inside, rfl⟩ := List.mem_map.mp mem
        have := List.lookup_eq_none_iff.mp noted entry inside
        simp at this
      refine ⟨link, .nothing, rfl, ?_, by rw [address]⟩
      rw [Model.link?, Model.shape?, h.others link absent]
      exact found
    | some address' =>
      rw [address] at noted
      obtain ⟨before, after, split, -⟩ := List.lookup_eq_some_iff.mp noted
      have mem : (link, address') ∈ p.pending := by
        rw [split]
        simp
      obtain ⟨target, led, bound⟩ := h.links _ mem
      refine ⟨link, _, rfl, ?_, by rw [address]; exact ⟨target, led, rfl⟩⟩
      rw [bound, found]
      rfl

namespace Document

/-- The node that an address leads to in a document that is linked to a model. -/
def leadsTo (document : Document) (fields : Fields) (imported : Imported) (model : Model)
    (address : Json) : Except Fault (Option NodeId) :=
  (document.plant model (imported.map Prod.snd)).1.nodeAt imported fields address

/-- The document was linked to one model, which gave the other one with the grammar of the
document. -/
structure IsLinked (document : Document) (fields : Fields) (imported : Imported)
    (model model' : Model) (id : NodeId) : Prop where
  nodes : model.nodes <+: model'.nodes
  nested : model.Nested → model'.Nested
  new : model.nodes.length ≤ id.index
  root : (document.plant model (imported.map Prod.snd)).2 = id
  extension : (document.plant model (imported.map Prod.snd)).1.model.Extends model'
  grammars : ∀ g, (document.plant model (imported.map Prod.snd)).1.model.grammar? g =
    model'.grammar? g
  stands : document.StandsAt (imported.map Prod.snd)
    (.bound (document.leadsTo fields imported model)) model' id

variable {document : Document} {fields : Fields} {imported : Imported} {model model' : Model}
  {id : NodeId}

/-- Linking a document is planting it and then binding what was noted. -/
theorem link_eq (document : Document) (fields : Fields) (imported : Imported) (model : Model) :
    document.link fields imported model = (do
      let linked ← (document.plant model (imported.map Prod.snd)).1.bindAll imported fields
        (document.plant model (imported.map Prod.snd)).1.model
        (document.plant model (imported.map Prod.snd)).1.pending
      .ok (linked, (document.plant model (imported.map Prod.snd)).2)) := rfl

/-- A document that was linked was planted, and what was noted for binding is bound. -/
theorem binds_of_link (h : document.link fields imported model = .ok (model', id)) :
    (document.plant model (imported.map Prod.snd)).1.Binds imported fields
        (document.plant model (imported.map Prod.snd)).1.pending
        (document.plant model (imported.map Prod.snd)).1.model model' ∧
      (document.plant model (imported.map Prod.snd)).2 = id := by
  obtain ⟨grows, -, -⟩ := document.plant_grows model (imported.map Prod.snd)
  rw [link_eq, bind_eq_ok] at h
  obtain ⟨linked, bound, same⟩ := h
  cases same
  exact ⟨Planting.binds_of_bindAll grows.sound.distinct bound, rfl⟩

/-- Linking a document leaves the nodes that were there alone and adds the grammar of the
document. -/
theorem isLinked_of_link (h : document.link fields imported model = .ok (model', id)) :
    document.IsLinked fields imported model model' id := by
  obtain ⟨grows, new, stands⟩ := document.plant_grows model (imported.map Prod.snd)
  obtain ⟨binds, rfl⟩ := binds_of_link h
  have carries := binds.carries
  have nested : model.Nested → model'.Nested := fun nested =>
    binds.containment.nested (Model.nestedFrom_zero.mp
      (grows.sound.nested 0 (Model.nestedFrom_zero.mpr nested)))
  -- Binding touches noted references only, and all of these are new nodes.
  refine ⟨?_, nested, new, rfl, binds.extension, fun g => (binds.grammars g).symm, ?_⟩
  · rw [List.prefix_iff_getElem?]
    intro i bound
    have untouched : (⟨i⟩ : NodeId) ∉
        (document.plant model (imported.map Prod.snd)).1.pending.map Prod.fst := by
      obtain ⟨noted, pending, fresh⟩ := grows.pending
      rw [pending, List.nil_append]
      intro mem
      obtain ⟨entry, inside, same⟩ := List.mem_map.mp mem
      have := fresh entry inside
      rw [same] at this
      simp only at this
      omega
    exact (binds.others ⟨i⟩ untouched).trans (List.prefix_iff_getElem?.mp grows.nodes i bound)
  · obtain ⟨rules, interfaces, types, diagnostics, grammar, rulesStand, interfacesStand, typesStand,
      diagnosticsStand⟩ := stands
    refine ⟨rules, interfaces, types, diagnostics, ?_, ?_, ?_, ?_, ?_⟩
    · rw [binds.grammars, grammar]
    · exact rulesStand.imp fun rule _ stands =>
        Planting.Standing.isCarried_rule rule.production _ _ _ _ _ carries stands
    · exact interfacesStand.imp fun d _ stands =>
        Planting.Standing.isCarried_declaration d _ _ _ _ _ carries stands
    · exact typesStand.imp fun d _ stands =>
        Planting.Standing.isCarried_declaration d _ _ _ _ _ carries stands
    · exact diagnosticsStand.imp fun d _ stands =>
        Planting.Standing.isCarried_diagnostic d _ _ _ _ _ carries stands

end Document

end GrammarChart
