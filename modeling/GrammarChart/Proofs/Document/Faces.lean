import GrammarChart.Proofs.Diagram.Seen
import GrammarChart.Proofs.Document.Binding
import GrammarChart.Proofs.Document.Places

/-!
# Faces of documents

What the addresses of a document lead to, as far as a diagram can tell, is decided by the document
and by the documents that it imports (`Document.faceOf`): where its grammar is planted, each address
leads to a node that has this face, or faults in the same way (`Document.finds_leadsTo`). So a
document that was linked stands with the faces of its references (`Document.carries_face`).
-/

set_option autoImplicit false

namespace GrammarChart

mutual

/-- The positions of the elements in an element, in the order in which they are planted. -/
def Element.spots (position : Position) : Element → List Position
  | .crossReference _ (some terminal) _ =>
    terminal.spots (position ++ [.field "terminal"]) ++ [position]
  | .assignment _ _ terminal _ => terminal.spots (position ++ [.field "terminal"]) ++ [position]
  | .alternatives elements _ => Element.spotsOfAll position 0 elements ++ [position]
  | .group elements _ => Element.spotsOfAll position 0 elements ++ [position]
  | _ => [position]

/-- The positions of the elements in the members of a group. -/
def Element.spotsOfAll (position : Position) (index : Nat) : List Element → List Position
  | [] => []
  | element :: rest => element.spots (position ++ [.field "elements", .item index]) ++
      Element.spotsOfAll position (index + 1) rest

end

/-- The face of a rule. -/
def Rule.face : Rule → Face
  | .parser name .. => .parserRule name
  | .terminal name .. => .terminalRule name

/-- The face of a declaration. -/
def Declaration.face (declaration : Declaration) : Face := .declaredType declaration.name

/-- What stands at the positions of a rule. -/
def Rule.faces (position : Position) (rule : Rule) : List (Position × Face) :=
  match rule with
  | .parser _ (some definition) _ _ _ =>
    (definition.spots (position ++ [.field "definition"])).map (·, .element) ++
      [(position, rule.face)]
  | _ => [(position, rule.face)]

/-- What stands at the positions of the items of a list that stands in a field of a document, the
first of which has the given index. -/
def Document.facesOfEach {α : Type} (faces : Position → α → List (Position × Face))
    (field : String) (index : Nat) : List α → List (Position × Face)
  | [] => []
  | a :: rest => faces [.field field, .item index] a ++
      Document.facesOfEach faces field (index + 1) rest

namespace Document

/-- What stands at the positions of a declaration. -/
def declarationFaces (position : Position) (declaration : Declaration) : List (Position × Face) :=
  [(position, declaration.face)]

/-- What stands at the positions of a document. -/
def faces (document : Document) : List (Position × Face) :=
  facesOfEach Rule.faces "rules" 0 document.rules ++
    (facesOfEach declarationFaces "interfaces" 0 document.interfaces ++
      facesOfEach declarationFaces "types" 0 document.types)

/-- The face of what stands at a position of a document. -/
def faceAt (document : Document) (position : Position) : Face :=
  ((document.faces.find? (·.1 == position)).map Prod.snd).getD .nowhere

/-- The declarations of a kind. -/
def declared (document : Document) (kind : String) : List Declaration :=
  (document.interfaces ++ document.types).filter fun declaration => declaration.kind.isText kind

/-- The faces in a list of a document that a path from another document can index. -/
def listed (document : Document) (list : String) : List Face :=
  if list = "rules" then document.rules.map Rule.face
  else if list = "interfaces" then (document.declared "Interface").map Declaration.face
  else (document.declared "Type").map Declaration.face

end Document

/-- Documents that are imported, by the stems of the paths that they are imported with. -/
abbrev ImportedDocuments := List (String × Document)

/-- The document that is imported under a stem. -/
def ImportedDocuments.get? (imported : ImportedDocuments) (stem : String) : Option Document :=
  imported.lookup stem

namespace Document

/-- The face of what a path leads to in an imported document. -/
def outsideFace (imported : ImportedDocuments) (name path : List Char) : Except Fault Face :=
  match imported.get? (FilePath.ofText (String.ofList name)).stem with
  | none => .ok .nowhere
  | some document =>
    match outsidePath? path with
    | none => .ok .nowhere
    | some (list, digits) => do
      let index ← indexNumber digits
      return (document.listed list)[index]?.getD .nowhere

/-- The face of what an address leads to from a document whose written fields are given. -/
def faceOf (document : Document) (fields : Fields) (imported : ImportedDocuments)
    (address : Json) : Except Fault Face :=
  match address with
  | .str text =>
    let name := text.toList.takeWhile (· != '#')
    let path := (text.toList.dropWhile (· != '#')).drop 1
    if name.isEmpty then
      (Json.follow [] (.obj fields) (segments path)).map fun position =>
        (position.map document.faceAt).getD .nowhere
    else outsideFace imported name path
  | _ => .error .noField

/-- The face of what a reference of a document leads to. One that faults leads nowhere. -/
def face (document : Document) (fields : Fields) (imported : ImportedDocuments)
    (reference : Reference) : Face :=
  (reference.address.bind fun address =>
    (document.faceOf fields imported address).toOption).getD .nowhere

end Document

/-- What has a face still has it in a model that has the settled nodes. -/
theorem Face.IsAt.later {m m' : Model} {face : Face} {item : Item} (h : face.IsAt m item)
    (more : m.Extends m') : face.IsAt m' item := by
  have stays : ∀ {id : NodeId} {shape : Shape}, m.shape? id = some shape →
      shape.isSettled = true → m'.shape? id = some shape := by
    intro id shape found settled
    obtain ⟨node, here, same⟩ := Option.map_eq_some_iff.mp found
    exact (more id shape node.cardinality settled ⟨node, here, same, rfl⟩).1.shape?
  cases h with
  | nowhere => exact .nowhere
  | parserRule found => exact .parserRule (stays found rfl)
  | terminalRule found => exact .terminalRule (stays found rfl)
  | declaredType found => exact .declaredType (stays found rfl)
  | @element id shape found handled =>
    exact .element (stays found (by cases shape <;> first | rfl | cases handled)) handled

namespace Planting

/-- One planting goes on from another one and notes nodes with the given faces. -/
structure HasFaces (p p' : Planting) (faces : List (Position × Face)) : Prop where
  extension : p.model.Extends p'.model
  places : ∃ noted, p'.places = p.places ++ noted ∧
    List.Forall₂ (fun (entry : Position × Face) (note : Position × NodeId) =>
      entry.1 = note.1 ∧ entry.2.IsAt p'.model (.node note.2)) faces noted

variable {p p' p'' : Planting} {faces faces' : List (Position × Face)}

namespace HasFaces

/-- A planting that notes no place has no further faces. -/
theorem of_places (extension : p.model.Extends p'.model) (places : p'.places = p.places) :
    p.HasFaces p' [] :=
  ⟨extension, [], by rw [places, List.append_nil], .nil⟩

/-- What was noted, and then what was noted later. -/
theorem trans (h : p.HasFaces p' faces) (k : p'.HasFaces p'' faces') :
    p.HasFaces p'' (faces ++ faces') := by
  obtain ⟨noted, places, together⟩ := h.places
  obtain ⟨noted', places', together'⟩ := k.places
  refine ⟨h.extension.trans k.extension, noted ++ noted', ?_, List.rel_append ?_ together'⟩
  · rw [places', places, List.append_assoc]
  · exact together.imp fun _ _ same => ⟨same.1, same.2.later k.extension⟩

/-- A further node is noted with its face. -/
theorem node (h : p.HasFaces p' faces) (position : Position) {node : Node} {face : Face}
    (isAt : face.IsAt (p'.model.add node).1 (.node (p'.model.add node).2)) :
    p.HasFaces (p'.node position node).1 (faces ++ [(position, face)]) :=
  h.trans ⟨Model.extends_add p'.model node, [(position, (p'.model.add node).2)], rfl,
    .cons ⟨rfl, isAt⟩ .nil⟩

/-- A reference is noted at no place. -/
theorem link (h : p.HasFaces p' faces) (reference : Reference) :
    p.HasFaces (p'.link reference).1 faces := by
  have linked := h.trans (of_places (Model.extends_add _ _)
    (rfl : (p'.link reference).1.places = p'.places))
  rwa [List.append_nil] at linked

/-- Nothing is noted at first. -/
theorem refl (p : Planting) : p.HasFaces p [] :=
  of_places (.refl _) rfl

/-- An element is noted as one. -/
theorem element (h : p.HasFaces p' faces) (position : Position) (shape : Shape) (mark : Item)
    (handled : shape.handler?.isSome) :
    p.HasFaces (p'.node position (.ofShape shape mark)).1 (faces ++ [(position, .element)]) :=
  h.node position (.element (Model.has_add _ _).shape? handled)

end HasFaces
end Planting

open Planting

mutual

/-- The nodes of an element are noted as elements. -/
theorem Element.hasFaces_plant (position : Position) (p : Planting) : ∀ e : Element,
    p.HasFaces (e.plant position p).1 ((e.spots position).map (·, .element))
  | .keyword value mark => (HasFaces.refl p).element position _ _ rfl
  | .ruleCall rule mark => ((HasFaces.refl p).link rule).element position _ _ rfl
  | .crossReference type none mark => ((HasFaces.refl p).link type).element position _ _ rfl
  | .crossReference type (some terminal) mark => by
    have below := Element.hasFaces_plant (position ++ [.field "terminal"]) (p.link type).1 terminal
    rw [Element.spots, List.map_append]
    exact (((HasFaces.refl p).link type).trans below).element position _ _ rfl
  | .assignment feature operator terminal mark => by
    have below := Element.hasFaces_plant (position ++ [.field "terminal"]) p terminal
    rw [Element.spots, List.map_append]
    exact below.element position _ _ rfl
  | .alternatives elements mark => by
    have below := Element.hasFaces_plantAll position 0 p elements
    rw [Element.spots, List.map_append]
    exact below.element position _ _ rfl
  | .group elements mark => by
    have below := Element.hasFaces_plantAll position 0 p elements
    rw [Element.spots, List.map_append]
    exact below.element position _ _ rfl
  | .action none inferredType feature operator mark =>
    (HasFaces.refl p).element position _ _ rfl
  | .action (some type) inferredType feature operator mark =>
    ((HasFaces.refl p).link type).element position _ _ rfl

/-- The nodes of the members of a group are noted as elements. -/
theorem Element.hasFaces_plantAll (position : Position) (index : Nat) (p : Planting) :
    ∀ elements : List Element, p.HasFaces (Element.plantAll position index p elements).1
      ((Element.spotsOfAll position index elements).map (·, .element))
  | [] => .refl p
  | element :: rest => by
    have head := Element.hasFaces_plant (position ++ [.field "elements", .item index]) p element
    rw [Element.spotsOfAll, List.map_append]
    exact head.trans (Element.hasFaces_plantAll position (index + 1) _ rest)

end

/-- The nodes of a rule are noted with their faces. -/
theorem Rule.hasFaces_plant (position : Position) (p : Planting) (rule : Rule) :
    p.HasFaces (rule.plant position p).1 (rule.faces position) := by
  cases rule with
  | terminal name regex hidden fragment =>
    exact (HasFaces.refl p).node position (.terminalRule (Model.has_add _ _).shape?)
  | parser name definition inferredType entry fragment =>
    cases definition with
    | none => exact (HasFaces.refl p).node position (.parserRule (Model.has_add _ _).shape?)
    | some definition =>
      have below := definition.hasFaces_plant (position ++ [.field "definition"]) p
      refine below.node position ?_
      exact .parserRule (Model.has_add _ _).shape?

/-- The node of a declaration is noted with its face. -/
theorem Declaration.hasFaces_plant (position : Position) (p : Planting)
    (declaration : Declaration) : p.HasFaces (declaration.plant position p).1
      (Document.declarationFaces position declaration) :=
  (HasFaces.refl p).node position (.declaredType (Model.has_add _ _).shape?)

/-- The nodes of the items of a list are noted with their faces. -/
theorem Planting.hasFaces_each {α : Type} {plant : Position → Planting → α → Planting × NodeId}
    {faces : Position → α → List (Position × Face)}
    (each : ∀ position (p : Planting) a, p.HasFaces (plant position p a).1 (faces position a))
    (field : String) : ∀ (list : List α) (index : Nat) (p : Planting),
      p.HasFaces (Planting.each plant field index p list).1
        (Document.facesOfEach faces field index list) := by
  intro list
  induction list with
  | nil => exact fun _ p => .refl p
  | cons a rest ih => exact fun index p => (each _ p a).trans (ih (index + 1) _)

namespace Document

/-- Planting a document notes its nodes with their faces. -/
theorem hasFaces_plant (document : Document) (model : Model) (imports : List NodeId) :
    (⟨model, [], []⟩ : Planting).HasFaces (document.plant model imports).1 document.faces := by
  have rules := Planting.hasFaces_each Rule.hasFaces_plant "rules" document.rules 0 ⟨model, [], []⟩
  have interfaces := Planting.hasFaces_each Declaration.hasFaces_plant "interfaces"
    document.interfaces 0 (Planting.each Rule.plant "rules" 0 ⟨model, [], []⟩ document.rules).1
  have types := Planting.hasFaces_each Declaration.hasFaces_plant "types" document.types 0
    (Planting.each Declaration.plant "interfaces" 0
      (Planting.each Rule.plant "rules" 0 ⟨model, [], []⟩ document.rules).1 document.interfaces).1
  have noted := rules.trans (interfaces.trans types)
  -- The diagnostics and the grammar itself are noted at no place.
  have last : HasFaces _ (document.plant model imports).1 [] := .of_places
    ((Model.extends_addDiagnostics document.diagnostics _).1.trans (Model.extends_add _ _)) rfl
  have whole := noted.trans last
  rwa [List.append_nil] at whole

/-- The grammar of a number lists nodes with the faces of what the document lists. -/
def IsListedAt (document : Document) (m : Model) (id : NodeId) : Prop :=
  ∃ grammar, m.grammar? id = some grammar ∧ ∀ list,
    List.Forall₂ (fun (face : Face) node => face.IsAt m (.node node)) (document.listed list)
      (m.indexedNodes grammar list)

/-- The node of a number is the grammar of a document with the given imports, whatever it is called
and wherever it comes from. -/
def IsShownAt (document : Document) (imports : List NodeId) (I : Interpretation Json Reference)
    (m : Model) (id : NodeId) : Prop :=
  ∃ name path rules interfaces types diagnostics,
    m.grammar? id = some ⟨name, .ofNodes rules, .ofNodes (interfaces ++ types), .ofNodes imports,
      .ofNodes diagnostics, path⟩ ∧
    List.Forall₂ (fun rule => Planting.Standing.rule rule.production I m) document.rules rules ∧
    List.Forall₂ (fun d => Planting.Standing.declaration d I m) document.interfaces interfaces ∧
    List.Forall₂ (fun d => Planting.Standing.declaration d I m) document.types types ∧
    List.Forall₂ (fun d => Planting.Standing.diagnostic d I m) document.diagnostics diagnostics

/-- A rule that stands has its face. -/
theorem face_of_standing {rule : Rule} {I : Interpretation Json Reference} {m : Model}
    {id : NodeId} (word : ∀ w, I.word w = w) (h : rule.production.StandsAt I m id) :
    rule.face.IsAt m (.node id) := by
  cases rule with
  | terminal name regex hidden fragment =>
    have shape : m.shape? id = some (.terminalRule (I.item name) _ _ _) := h
    rw [Interpretation.item, word name] at shape
    exact .terminalRule shape
  | parser name definition inferredType entry fragment =>
    obtain ⟨place, -, shape⟩ := h
    rw [Interpretation.item, word name] at shape
    exact .parserRule shape

/-- A document that is shown is listed. -/
theorem IsShownAt.isListedAt {document : Document} {imports : List NodeId}
    {I : Interpretation Json Reference} {m : Model} {id : NodeId} (word : ∀ w, I.word w = w)
    (h : document.IsShownAt imports I m id) : document.IsListedAt m id := by
  obtain ⟨name, path, rules, interfaces, types, diagnostics, found, standRules, standInterfaces,
    standTypes, -⟩ := h
  refine ⟨_, found, fun list => ?_⟩
  have declared : ∀ kind, List.Forall₂ (fun (face : Face) node => face.IsAt m (.node node))
      ((document.declared kind).map Declaration.face)
      ((Model.nodesIn (.ofNodes (interfaces ++ types))).filter (m.isTypeOfKind kind)) := by
    intro kind
    rw [Model.nodesIn_ofNodes, List.forall₂_map_left_iff]
    have all := List.rel_append standInterfaces standTypes
    have kept := List.rel_filter (p := fun d : Declaration => d.kind.isText kind)
      (q := m.isTypeOfKind kind) ?_ all
    · exact kept.imp fun d node stands => .declaredType stands
    · intro d node stands
      have shape : m.shape? node = some (.typeDeclaration _ (.value d.kind)) := stands
      have kinds : m.isTypeOfKind kind node = d.kind.isText kind := by
        simp only [Model.isTypeOfKind, shape]
        rfl
      exact Iff.of_eq (congrArg (· = true) kinds.symm)
  rw [listed, Model.indexedNodes]
  split
  · rw [Model.nodesIn_ofNodes, List.forall₂_map_left_iff]
    exact standRules.imp fun rule node stands => face_of_standing word stands
  · split
    · exact declared "Interface"
    · exact declared "Type"

end Document

/-- Imported documents are listed where they were found. -/
def ImportedDocuments.AreListed (documents : ImportedDocuments) (imported : Imported)
    (m : Model) : Prop :=
  List.Forall₂ (fun (entry : String × Document) (note : String × NodeId) =>
    entry.1 = note.1 ∧ entry.2.IsListedAt m note.2) documents imported

/-- The document that is imported under a stem is listed at the grammar that was found for it. -/
theorem ImportedDocuments.AreListed.get? {documents : ImportedDocuments} {imported : Imported}
    {m : Model} (h : documents.AreListed imported m) (stem : String) :
    (imported.get? stem = none ∧ documents.get? stem = none) ∨
      ∃ g document, imported.get? stem = some g ∧ documents.get? stem = some document ∧
        document.IsListedAt m g := by
  induction h with
  | nil => exact .inl ⟨rfl, rfl⟩
  | @cons entry note documents imported head _ ih =>
    obtain ⟨s, document⟩ := entry
    obtain ⟨s', g⟩ := note
    obtain ⟨same, listed⟩ := head
    simp only at same
    subst same
    rw [Imported.get?, ImportedDocuments.get?, List.lookup_cons]
    by_cases here : s = stem
    · exact .inr ⟨g, document, if_pos here, by simp [here], listed⟩
    · have other : (stem == s) = false := by simpa using Ne.symm here
      rw [if_neg here, other]
      exact ih

/-- What was found goes with a face: both are the same fault, or what was found has the face. -/
inductive Face.Finds (m : Model) : Except Fault (Option NodeId) → Except Fault Face → Prop where
  | fault (fault : Fault) : Finds m (.error fault) (.error fault)
  | found {found : Option NodeId} {face : Face}
      (isAt : face.IsAt m ((found.map Item.node).getD .nothing)) : Finds m (.ok found) (.ok face)

/-- A face that goes with a list of nodes at an index goes with what is there. -/
theorem Face.isAt_getElem? {m : Model} {faces : List Face} {nodes : List NodeId}
    (h : List.Forall₂ (fun (face : Face) node => face.IsAt m (.node node)) faces nodes)
    (index : Nat) :
    (faces[index]?.getD .nowhere).IsAt m ((nodes[index]?.map Item.node).getD .nothing) := by
  by_cases bound : index < faces.length
  · have bound' : index < nodes.length := h.length_eq ▸ bound
    rw [List.getElem?_eq_getElem bound, List.getElem?_eq_getElem bound']
    exact h.get bound bound'
  · rw [List.getElem?_eq_none (Nat.le_of_not_lt bound),
      List.getElem?_eq_none (h.length_eq ▸ Nat.le_of_not_lt bound)]
    exact .nowhere

namespace Document

section Linked

variable {document : Document} {fields : Fields} {imported : Imported} {model m : Model}
  {documents : ImportedDocuments}

/-- What is noted at a position of a planted document has the face that stands there. -/
theorem faceAt_of_place? (more : (document.plant model (imported.map Prod.snd)).1.model.Extends m)
    (position : Position) : (document.faceAt position).IsAt m
      ((((document.plant model (imported.map Prod.snd)).1.place? position).map Item.node).getD
        .nothing) := by
  obtain ⟨-, noted, places, together⟩ := document.hasFaces_plant model (imported.map Prod.snd)
  rw [Planting.place?, places, List.nil_append, faceAt]
  rcases @find?_of_forall₂ _ _ _ (·.1 == position) (·.1 == position) _ _ together
    fun _ _ same => by rw [same.1] with ⟨none, none'⟩ | ⟨entry, note, here, here', -, isAt⟩
  · rw [none, none']
    exact .nowhere
  · rw [here, here']
    exact isAt.later more

/-- What a path leads to in an imported document has the face that the document lists there. -/
theorem finds_outsideNode {planted : Model} (more : planted.Extends m)
    (listed : documents.AreListed imported planted) (name path : List Char) :
    Face.Finds m (planted.outsideNode imported name path) (outsideFace documents name path) := by
  rw [Model.outsideNode, outsideFace]
  rcases listed.get? (FilePath.ofText (String.ofList name)).stem with
    ⟨none, none'⟩ | ⟨g, document, here, here', grammar, found, lists⟩
  · rw [none, none']
    exact .found .nowhere
  · rw [here, here', Option.bind_some, found]
    cases outsidePath? path with
    | none => exact .found .nowhere
    | some segment =>
      obtain ⟨list, digits⟩ := segment
      cases read : indexNumber digits with
      | error fault =>
        simp only [read]
        exact .fault fault
      | ok index =>
        simp only [read]
        exact .found ((Face.isAt_getElem? (lists list) index).later more)

/-- What an address leads to in a document that is planted has the face that the document gives
it. -/
theorem finds_leadsTo
    (more : (document.plant model (imported.map Prod.snd)).1.model.Extends m)
    (listed : documents.AreListed imported
      (document.plant model (imported.map Prod.snd)).1.model) (address : Json) :
    Face.Finds m (document.leadsTo fields imported model address)
      (document.faceOf fields documents address) := by
  rw [leadsTo, Planting.nodeAt.eq_def, faceOf.eq_def]
  cases address with
  | str text =>
    simp only
    split
    · cases Json.follow [] (.obj fields)
        (segments ((text.toList.dropWhile (· != '#')).drop 1)) with
      | error fault => exact .fault fault
      | ok position =>
        refine .found ?_
        cases position with
        | none => exact .nowhere
        | some position => exact faceAt_of_place? more position
    · exact finds_outsideNode more listed _ _
  | _ => exact .fault .noField

/-- What the address of a reference leads to in a document that is planted has the face of the
reference. -/
theorem isAt_face_of_leadsTo
    (more : (document.plant model (imported.map Prod.snd)).1.model.Extends m)
    (listed : documents.AreListed imported
      (document.plant model (imported.map Prod.snd)).1.model) {reference : Reference}
    {address : Json} (written : reference.address = some address) {target : Option NodeId}
    (led : document.leadsTo fields imported model address = .ok target) :
    (document.face fields documents reference).IsAt m ((target.map Item.node).getD .nothing) := by
  have finds := @finds_leadsTo _ fields _ _ _ _ more listed address
  rw [led] at finds
  rw [face, written, Option.bind_some]
  generalize document.faceOf fields documents address = seen at finds
  cases finds with
  | found isAt => exact isAt

/-- Where a document stands with its references bound, they lead to what has their faces. -/
theorem carries_face
    (more : (document.plant model (imported.map Prod.snd)).1.model.Extends m)
    (listed : documents.AreListed imported
      (document.plant model (imported.map Prod.snd)).1.model) :
    (Interpretation.bound (document.leadsTo fields imported model)).Carries m
      (.seen (document.face fields documents)) m where
  word := rfl
  extension := .refl m
  leads := by
    rintro _ reference ⟨link, target, rfl, isLink, leads⟩
    refine ⟨link, _, rfl, isLink, ?_⟩
    cases address : reference.address with
    | none =>
      rw [address] at leads
      rw [face, address, leads]
      exact .nowhere
    | some address' =>
      rw [address] at leads
      obtain ⟨found, led, rfl⟩ := leads
      exact isAt_face_of_leadsTo more listed address led

end Linked

/-- The names of the rules of a document. -/
def ruleNames (document : Document) : List Json :=
  document.rules.map fun rule => rule.production.name

variable {document : Document} {imported : ImportedDocuments} {name : Json}

/-- A rule with the face of a parser rule is named so. -/
theorem name_of_face {rule : Rule} (h : rule.face = .parserRule name) :
    rule.production.name = name := by
  cases rule with
  | parser own definition inferredType entry fragment => exact Face.parserRule.inj h
  | terminal own regex hidden fragment => cases h

/-- What stands at the positions of the items of a list stands at those of one of the items. -/
theorem exists_of_mem_facesOfEach {α : Type} {faces : Position → α → List (Position × Face)}
    {field : String} {list : List α} {index : Nat} {entry : Position × Face}
    (mem : entry ∈ facesOfEach faces field index list) :
    ∃ a ∈ list, ∃ position, entry ∈ faces position a := by
  induction list generalizing index with
  | nil => exact absurd mem List.not_mem_nil
  | cons a rest ih =>
    rcases List.mem_append.mp mem with here | later
    · exact ⟨a, List.mem_cons_self, _, here⟩
    · obtain ⟨b, inside, found⟩ := ih later
      exact ⟨b, List.mem_cons_of_mem _ inside, found⟩

/-- The only parser rule at the positions of a rule is the rule itself. -/
theorem face_of_mem_faces {rule : Rule} {position at' : Position}
    (mem : (at', .parserRule name) ∈ rule.faces position) : rule.face = .parserRule name := by
  have own : (at', Face.parserRule name) ∈ [(position, rule.face)] →
      rule.face = .parserRule name := by
    intro mem
    rw [List.mem_singleton, Prod.mk.injEq] at mem
    exact mem.2.symm
  unfold Rule.faces at mem
  split at mem
  · rcases List.mem_append.mp mem with below | here
    · obtain ⟨spot, -, same⟩ := List.mem_map.mp below
      cases same
    · exact own here
  · exact own mem

/-- A parser rule that stands in a document is one of its rules. -/
theorem mem_ruleNames_of_faceAt {position : Position}
    (h : document.faceAt position = .parserRule name) : name ∈ document.ruleNames := by
  have declarations : ∀ {field : String} {list : List Declaration} {at' : Position},
      (at', Face.parserRule name) ∉ facesOfEach declarationFaces field 0 list := by
    intro field list at' mem
    obtain ⟨declaration, -, position, here⟩ := exists_of_mem_facesOfEach mem
    rw [declarationFaces, List.mem_singleton, Prod.mk.injEq] at here
    exact absurd here.2 (by simp [Declaration.face])
  rw [faceAt] at h
  cases found : document.faces.find? (·.1 == position) with
  | none =>
    rw [found] at h
    cases h
  | some entry =>
    obtain ⟨at', face⟩ := entry
    rw [found] at h
    cases h
    rcases List.mem_append.mp (List.mem_of_find?_eq_some found) with inRules | inOthers
    · obtain ⟨rule, inside, position, here⟩ := exists_of_mem_facesOfEach inRules
      exact List.mem_map.mpr ⟨rule, inside, name_of_face (face_of_mem_faces here)⟩
    · rcases List.mem_append.mp inOthers with here | here
      · exact absurd here declarations
      · exact absurd here declarations

/-- A parser rule in a list of a document is one of its rules. -/
theorem mem_ruleNames_of_listed {list : String} {index : Nat}
    (h : (document.listed list)[index]?.getD .nowhere = .parserRule name) :
    name ∈ document.ruleNames := by
  have inside : Face.parserRule name ∈ document.listed list := by
    cases found : (document.listed list)[index]? with
    | none =>
      rw [found] at h
      cases h
    | some face =>
      rw [found, Option.getD_some] at h
      exact h ▸ List.mem_of_getElem? found
  have noDeclaration : ∀ kind, Face.parserRule name ∉
      (document.declared kind).map Declaration.face := by
    intro kind mem
    obtain ⟨declaration, -, same⟩ := List.mem_map.mp mem
    cases same
  unfold listed at inside
  split at inside
  · obtain ⟨rule, mem, same⟩ := List.mem_map.mp inside
    exact List.mem_map.mpr ⟨rule, mem, name_of_face same⟩
  · split at inside
    · exact absurd inside (noDeclaration _)
    · exact absurd inside (noDeclaration _)

/-- The document that is found under a stem is one of the imported ones. -/
theorem mem_of_get? {stem : String} (h : imported.get? stem = some document) :
    document ∈ imported.map Prod.snd := by
  induction imported with
  | nil => cases h
  | cons entry rest ih =>
    obtain ⟨s, first⟩ := entry
    rw [ImportedDocuments.get?, List.lookup_cons] at h
    split at h
    · rw [Option.some.injEq] at h
      exact h ▸ List.mem_cons_self
    · exact List.mem_cons_of_mem _ (ih h)

/-- The parser rules that a document calls are rules of its own or of the documents that it
imports. -/
theorem mem_ruleNames_of_face {fields : Fields} {reference : Reference}
    (h : document.face fields imported reference = .parserRule name) :
    name ∈ document.ruleNames ∨ ∃ other ∈ imported.map Prod.snd, name ∈ other.ruleNames := by
  unfold face at h
  cases written : reference.address with
  | none =>
    rw [written] at h
    cases h
  | some address =>
    rw [written, Option.bind_some] at h
    cases led : document.faceOf fields imported address with
    | error fault =>
      rw [led] at h
      cases h
    | ok f =>
      rw [led] at h
      replace h : f = .parserRule name := h
      subst h
      -- The address leads to a rule of the own document, or of the one that it names before the hash.
      unfold faceOf at led
      split at led
      · next text =>
        simp only at led
        split at led
        · cases followed : Json.follow [] (.obj fields)
            (segments ((text.toList.dropWhile (· != '#')).drop 1)) with
          | error fault =>
            rw [followed] at led
            cases led
          | ok position =>
            rw [followed] at led
            cases position with
            | none => cases led
            | some position => exact .inl (mem_ruleNames_of_faceAt (Except.ok.inj led))
        · refine .inr ?_
          unfold outsideFace at led
          split at led
          · cases led
          · next other found =>
            split at led
            · cases led
            · next list digits read =>
              obtain ⟨index, -, same⟩ := bind_eq_ok.mp led
              exact ⟨other, mem_of_get? found, mem_ruleNames_of_listed (Except.ok.inj same)⟩
      · cases led

end Document
end GrammarChart
