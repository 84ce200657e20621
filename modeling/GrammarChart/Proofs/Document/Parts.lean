import GrammarChart.Proofs.Document.Places
import GrammarChart.Proofs.Document.Written

/-!
# Parts of written grammars

A path leads through the parts of a grammar (`Part.walk`), through the value that is written for it
(`Part.follow_fields`) and through the nodes of a model in which it stands (`Part.agrees_descend`),
and to the same places in all of them. Only an index with too many digits stops it in the value.
-/

set_option autoImplicit false

namespace GrammarChart

namespace Phrase

/-- The terminal of an element. -/
def terminal? : Phrase String Mention → Option (Phrase String Mention)
  | .crossReference _ terminal _ => terminal
  | .assignment _ _ terminal _ => terminal
  | _ => none

/-- The values of elements in order. -/
theorem jsons_eq_map (phrases : List (Phrase String Mention)) :
    jsons phrases = phrases.map json := by
  induction phrases with
  | nil => rw [jsons, List.map_nil]
  | cons b rest ih => rw [jsons, ih, List.map_cons, json]

/-- The terminal of an element is written in its field. -/
theorem get?_fields_terminal (b : Phrase String Mention) :
    b.fields.get? "terminal" = b.terminal?.map json := by
  cases b with
  | crossReference type terminal mark =>
    cases terminal <;> simp [fields, Fields.get?_word, Fields.get?, terminal?, json]
  | assignment feature operator terminal mark =>
    cases terminal <;> simp [fields, Fields.get?_word, Fields.get?, terminal?, json]
  | _ =>
    simp [fields, Fields.get?_append, Fields.get?_word, Fields.get?_optional, Fields.get?,
      terminal?]

/-- The members of an element are written in their field, if it can have any. -/
theorem get?_fields_elements (b : Phrase String Mention) :
    b.fields.get? "elements" = some (.arr (b.members.map json)) ∨
      b.fields.get? "elements" = none ∧ b.members = [] := by
  cases b with
  | alternatives elements mark =>
    left
    simp [fields, Fields.get?, members, jsons_eq_map]
  | group elements mark =>
    left
    simp [fields, Fields.get?, members, jsons_eq_map]
  | crossReference type terminal mark =>
    right
    cases terminal <;> simp [fields, Fields.get?_word, Fields.get?, members]
  | assignment feature operator terminal mark =>
    right
    cases terminal <;> simp [fields, Fields.get?_word, Fields.get?, members]
  | _ =>
    right
    simp [fields, Fields.get?_append, Fields.get?_word, Fields.get?_optional, Fields.get?, members]

/-- Elements have no other fields that hops lead into. -/
theorem get?_fields_eq_none (b : Phrase String Mention) {key : String}
    (other : key ∈ ["rules", "interfaces", "types", "definition"]) : b.fields.get? key = none := by
  simp only [List.mem_cons, List.not_mem_nil, or_false] at other
  cases b with
  | crossReference type terminal mark =>
    cases terminal <;> rcases other with rfl | rfl | rfl | rfl <;>
      simp [fields, Fields.get?_word, Fields.get?]
  | assignment feature operator terminal mark =>
    cases terminal <;> rcases other with rfl | rfl | rfl | rfl <;>
      simp [fields, Fields.get?_word, Fields.get?]
  | _ =>
    rcases other with rfl | rfl | rfl | rfl <;>
      simp [fields, Fields.get?_append, Fields.get?_word, Fields.get?_optional, Fields.get?]

end Phrase

/-- A part of a written grammar: what an object is written for. -/
inductive Part where
  | grammar
  | rule (rule : Production String Mention)
  | declaration (kind name : String)
  | phrase (b : Phrase String Mention)
  /-- The regular expression of a terminal rule. -/
  | token (regex : String)

namespace Part

/-- The fields of the object that is written for a part. -/
def fields (ast : Ast) : Part → Fields
  | .grammar => ast.fields
  | .rule r => r.fields
  | .declaration kind name => Declaration.writtenFields kind name
  | .phrase b => b.fields
  | .token regex => Production.tokenFields regex

/-- The part that a hop leads to from a part. -/
def below? (ast : Ast) (part : Part) (hop : Hop) : Option Part :=
  match part, hop with
  | .grammar, .rules index => ast.rules[index]?.map .rule
  | .grammar, .interfaces index => ast.interfaces[index]?.map (.declaration "Interface")
  | .grammar, .types index => ast.types[index]?.map (.declaration "Type")
  | .rule (.parser _ definition _ _ _), .definition => definition.map .phrase
  | .rule (.terminal _ regex _ _), .definition => regex.map .token
  | .phrase b, .elements index => b.members[index]?.map .phrase
  | .phrase b, .terminal => b.terminal?.map .phrase
  | _, _ => none

/-- The part that a path leads to from a part. -/
def walk (ast : Ast) : Part → List Hop → Option Part
  | part, [] => some part
  | part, hop :: rest => (part.below? ast hop).bind fun next => next.walk ast rest

/-- The path comes to an index with too many digits at some part. -/
def Stumbles (ast : Ast) : Part → List Hop → Prop
  | _, [] => False
  | part, hop :: rest =>
    hop.IsOverlong ∨ ∃ next ∈ part.below? ast hop, next.Stumbles ast rest

instance Stumbles.decidable (ast : Ast) :
    (part : Part) → (path : List Hop) → Decidable (part.Stumbles ast path)
  | _, [] => inferInstanceAs (Decidable False)
  | part, hop :: rest =>
    haveI : DecidablePred fun next : Part => next.Stumbles ast rest := fun next =>
      Stumbles.decidable ast next rest
    inferInstanceAs (Decidable (_ ∨ ∃ next ∈ part.below? ast hop, _))

variable {ast : Ast}

/-- The hop leads from the object that is written for the part to the object that is written for the
part that the hop leads to, or to no object if there is none. -/
def Leads (ast : Ast) (part : Part) (hop : Hop) : Prop :=
  match part.below? ast hop with
  | some next => (part.fields ast).hop? hop = some (.obj (next.fields ast))
  | none => ∀ value, (part.fields ast).hop? hop = some value → ∀ inner, value ≠ .obj inner

/-- A hop leads to the items of a list that is written item by item. -/
theorem leads_of_items {α : Type} {part : Part} {hop : Hop} {list : List α} {item : α → Part}
    {index : Nat} (isIndex : hop.index? = some index)
    (written : (part.fields ast).get? hop.field =
      some (.arr (list.map fun a => .obj ((item a).fields ast))))
    (below : part.below? ast hop = list[index]?.map item) : part.Leads ast hop := by
  have found : (part.fields ast).hop? hop =
      list[index]?.map fun a => .obj ((item a).fields ast) := by
    unfold Fields.hop? Fields.getD
    rw [isIndex, written]
    exact List.getElem?_map
  unfold Leads
  rw [below, found]
  cases list[index]? with
  | none => exact fun value h => nomatch h
  | some a => rfl

/-- A hop leads to what is written in a field that may be missing. -/
theorem leads_of_option {α : Type} {part : Part} {hop : Hop} {value : Option α} {item : α → Part}
    (noIndex : hop.index? = none)
    (written : (part.fields ast).get? hop.field = value.map fun a => .obj ((item a).fields ast))
    (below : part.below? ast hop = value.map item) : part.Leads ast hop := by
  unfold Leads Fields.hop? Fields.getD
  rw [below, noIndex, written]
  cases value with
  | none =>
    intro value same inner isObject
    cases same
    cases isObject
  | some a => rfl

/-- A hop into a field that is not written leads nowhere. -/
theorem leads_of_absent {part : Part} {hop : Hop} (absent : (part.fields ast).get? hop.field = none)
    (below : part.below? ast hop = none) : part.Leads ast hop := by
  unfold Leads Fields.hop? Fields.getD
  rw [below, absent]
  intro value same inner isObject
  subst isObject
  cases index : hop.index? with
  | none =>
    rw [index] at same
    cases same
  | some i =>
    rw [index] at same
    cases same

/-- Hops lead through what is written as they lead through the parts of a grammar. -/
theorem leads (ast : Ast) (part : Part) (hop : Hop) : part.Leads ast hop := by
  cases part with
  | grammar =>
    cases hop with
    | rules index => exact leads_of_items rfl rfl rfl
    | interfaces index => exact leads_of_items rfl rfl rfl
    | types index => exact leads_of_items rfl rfl rfl
    | _ => exact leads_of_absent rfl rfl
  | declaration kind name => exact leads_of_absent (by cases hop <;> rfl) (by cases hop <;> rfl)
  | token regex => exact leads_of_absent (by cases hop <;> rfl) (by cases hop <;> rfl)
  | rule r =>
    cases r with
    | parser name definition inferredType entry fragment =>
      cases hop with
      | definition =>
        refine leads_of_option rfl ?_ rfl
        simp only [fields, Production.fields, Fields.get?_append, Fields.get?_word,
          Fields.get?_optional, Hop.field]
        exact Option.or_none
      | _ =>
        refine leads_of_absent ?_ rfl
        simp [fields, Production.fields, Fields.get?_append, Fields.get?_word, Fields.get?_optional,
          Fields.get?, Hop.field]
    | terminal name regex hidden fragment =>
      cases hop with
      | definition =>
        refine leads_of_option rfl ?_ rfl
        simp only [fields, Production.fields, Fields.get?_append, Fields.get?_optional, Hop.field]
        rfl
      | _ =>
        refine leads_of_absent ?_ rfl
        simp [fields, Production.fields, Fields.get?_optional, Fields.get?, Hop.field]
  | phrase b =>
    cases hop with
    | elements index =>
      rcases b.get?_fields_elements with written | ⟨absent, memberless⟩
      · refine leads_of_items rfl ?_ rfl
        exact written
      · refine leads_of_absent absent ?_
        rw [below?, memberless]
        rfl
    | terminal =>
      refine leads_of_option rfl ?_ rfl
      exact b.get?_fields_terminal
    | _ => exact leads_of_absent (b.get?_fields_eq_none (by simp [Hop.field])) rfl

/-- A path leads through the object that is written for a part to the position of the part that it
leads to, if there is one, and stops at an overlong index. -/
theorem follow_fields (ast : Ast) (path : List Hop) : ∀ (part : Part) (position : Position),
    (part.Stumbles ast path → ∃ count,
      Json.follow position (.obj (part.fields ast)) (path.map Hop.text) =
        .error (.numeralTooLong count)) ∧
    (¬ part.Stumbles ast path →
      Json.follow position (.obj (part.fields ast)) (path.map Hop.text) =
        .ok ((part.walk ast path).map fun _ => position ++ stepsOf path)) := by
  induction path with
  | nil =>
    intro part position
    refine ⟨False.elim, fun _ => ?_⟩
    rw [walk, stepsOf, List.flatMap_nil, List.append_nil]
    rfl
  | cons hop rest ih =>
    intro part position
    rw [List.map_cons]
    by_cases long : hop.IsOverlong
    · exact ⟨fun _ => Json.follow_overlong long, fun smooth => absurd (.inl long) smooth⟩
    · have leads := part.leads ast hop
      rw [Json.follow_hop long, walk]
      unfold Leads at leads
      cases below : part.below? ast hop with
      | none =>
        rw [below] at leads
        refine ⟨?_, fun _ => ?_⟩
        · rintro (overlong | ⟨next, leadsTo, -⟩)
          · exact absurd overlong long
          · rw [below] at leadsTo
            cases leadsTo
        · cases found : (part.fields ast).hop? hop with
          | none => rfl
          | some value => exact Json.follow_of_not_object (leads value found) _
      | some next =>
        rw [below] at leads
        rw [leads]
        obtain ⟨stops, leadsOn⟩ := ih next (position ++ hop.steps)
        constructor
        · rintro (overlong | ⟨next', leadsTo, stumbles⟩)
          · exact absurd overlong long
          · rw [below, Option.mem_some_iff] at leadsTo
            exact stops (leadsTo ▸ stumbles)
        · intro smooth
          have further := leadsOn fun stumbles => smooth (.inr ⟨next, below, stumbles⟩)
          rw [stepsOf, List.flatMap_cons, ← List.append_assoc]
          exact further

/-- A node is built for the part. -/
def isBuilt : Part → Bool
  | .grammar => false
  | .token _ => false
  | _ => true

/-- The part stands at the node. -/
def IsAt (J : Interpretation String Mention) (m : Model) : Part → NodeId → Prop
  | .rule r, id => r.StandsAt J m id
  | .declaration kind name, id =>
    m.shape? id = some (.typeDeclaration (.value (.str name)) (.value (.str kind)))
  | .phrase b, id => b.StandsAt J m id
  | _, _ => False

/-- A part and a node were found in the same place: the part stands at the node, or neither was
found, or no node is built for the part. -/
def Agrees (J : Interpretation String Mention) (m : Model) (part : Option Part)
    (node : Option NodeId) : Prop :=
  match part, node with
  | some part, some id => part.IsAt J m id
  | some part, none => part.isBuilt = false
  | none, some _ => False
  | none, none => True

variable {J : Interpretation String Mention} {m : Model}

/-- The items of a list that stand at nodes one by one agree with these. -/
theorem agrees_getElem? {α : Type} {item : α → Part} {list : List α} {ids : List NodeId}
    (stand : List.Forall₂ (fun a id => (item a).IsAt J m id) list ids) (index : Nat) :
    Agrees J m (list[index]?.map item) ids[index]? := by
  by_cases bound : index < list.length
  · have bound' : index < ids.length := stand.length_eq ▸ bound
    rw [List.getElem?_eq_getElem bound, List.getElem?_eq_getElem bound']
    exact stand.get bound bound'
  · have bound' : ¬ index < ids.length := stand.length_eq ▸ bound
    rw [List.getElem?_eq_none (Nat.le_of_not_lt bound),
      List.getElem?_eq_none (Nat.le_of_not_lt bound')]
    trivial

/-- The members of a group or of alternatives agree with the nodes that they stand at. -/
theorem agrees_members {elements : List (Phrase String Mention)} {ids : List NodeId}
    (stand : Phrase.StandAt J m elements ids) (index : Nat) :
    Agrees J m (elements[index]?.map .phrase) (Model.nodesIn (.ofNodes ids))[index]? := by
  rw [Model.nodesIn_ofNodes]
  exact agrees_getElem? (Phrase.standAt_iff.mp stand) index

/-- A tree that may be missing agrees with what stands in its place. -/
theorem agrees_of_standsIn {b : Option (Phrase String Mention)} {place : Item}
    (stands : Phrase.StandsIn J m b place) : Agrees J m (b.map .phrase) place.node? := by
  cases b with
  | none =>
    subst stands
    trivial
  | some b =>
    obtain ⟨id, rfl, stands⟩ := stands
    exact stands

/-- A hop from a part and one from the node that it stands at lead to the same place. -/
theorem agrees_below? {part : Part} {id : NodeId} (isAt : part.IsAt J m id) (hop : Hop) :
    Agrees J m (part.below? ast hop) (m.below? id hop) := by
  have at_ : ∀ {shape}, m.shape? id = some shape → m.below? id hop = shape.below? hop := by
    intro shape found
    rw [Model.below?, found, Option.bind_some]
  -- A hop leads on where the shape has the field that it names, and both sides have the same such
  -- fields; every other hop leads nowhere in both.
  cases part with
  | grammar => exact isAt.elim
  | token regex => exact isAt.elim
  | declaration kind name =>
    rw [at_ isAt]
    cases hop <;> trivial
  | rule r =>
    cases r with
    | parser name definition inferredType entry fragment =>
      obtain ⟨place, below, here⟩ := isAt
      rw [at_ here]
      cases hop with
      | definition => exact agrees_of_standsIn below
      | _ => trivial
    | terminal name regex hidden fragment =>
      rw [at_ isAt]
      cases hop with
      | definition => cases regex <;> trivial
      | _ => trivial
  | phrase b =>
    cases b with
    | keyword value mark =>
      rw [at_ (Model.Has.shape? isAt)]
      cases hop <;> trivial
    | ruleCall rule mark =>
      obtain ⟨link, -, here⟩ := isAt
      rw [at_ here.shape?]
      cases hop <;> trivial
    | crossReference type terminal mark =>
      obtain ⟨link, place, -, below, here⟩ := isAt
      rw [at_ here.shape?]
      cases hop with
      | terminal => exact agrees_of_standsIn below
      | _ => trivial
    | assignment feature operator terminal mark =>
      obtain ⟨place, below, here⟩ := isAt
      rw [at_ here.shape?]
      cases hop with
      | terminal => exact agrees_of_standsIn below
      | _ => trivial
    | alternatives elements mark =>
      obtain ⟨ids, below, here⟩ := isAt
      rw [at_ here.shape?]
      cases hop with
      | elements index => exact agrees_members below index
      | _ => trivial
    | group elements mark =>
      obtain ⟨ids, below, here⟩ := isAt
      rw [at_ here.shape?]
      cases hop with
      | elements index => exact agrees_members below index
      | _ => trivial
    | action type inferredType feature operator mark =>
      cases type with
      | none =>
        rw [at_ (Model.Has.shape? isAt)]
        cases hop <;> trivial
      | some type =>
        obtain ⟨link, -, here⟩ := isAt
        rw [at_ here.shape?]
        cases hop <;> trivial
    | unknown kind mark =>
      obtain ⟨-, shapeKind, here⟩ := isAt
      rw [at_ here.shape?]
      cases hop <;> trivial

/-- No hop leads to the grammar itself. -/
theorem below?_ne_grammar (part : Part) (hop : Hop) : part.below? ast hop ≠ some .grammar := by
  cases part with
  | rule r => cases r <;> cases hop <;> simp [below?]
  | _ => cases hop <;> simp [below?]

/-- No path leads to a node by way of a part that no node is built for. -/
theorem agrees_of_unbuilt {part next : Part} {hop : Hop} (found : part.below? ast hop = some next)
    (unbuilt : next.isBuilt = false) (rest : List Hop) :
    Agrees J m (next.walk ast rest) none := by
  cases next with
  | grammar => exact absurd found (part.below?_ne_grammar hop)
  | token regex =>
    cases rest with
    | nil => exact unbuilt
    | cons first _ => cases first <;> trivial
  | _ => cases unbuilt

/-- Where a hop led to the same place, so does the path on from there, if paths do so from every
part. -/
theorem agrees_bind {part : Part} {hop : Hop} {node : Option NodeId}
    (first : Agrees J m (part.below? ast hop) node) {rest : List Hop}
    (further : ∀ {part : Part} {id : NodeId}, part.IsAt J m id →
      Agrees J m (part.walk ast rest) (m.descend id rest)) :
    Agrees J m ((part.below? ast hop).bind fun next => next.walk ast rest)
      (node.bind fun id => m.descend id rest) := by
  cases found : part.below? ast hop with
  | none =>
    cases node with
    | none => trivial
    | some id =>
      rw [found] at first
      exact first.elim
  | some next =>
    rw [found] at first
    cases node with
    | none => exact agrees_of_unbuilt found first rest
    | some id => exact further first

/-- A path from a part and one from the node that it stands at lead to the same place. -/
theorem agrees_descend (path : List Hop) : ∀ {part : Part} {id : NodeId}, part.IsAt J m id →
    Agrees J m (part.walk ast path) (m.descend id path) := by
  induction path with
  | nil => exact fun isAt => isAt
  | cons hop rest ih =>
    intro part id isAt
    exact agrees_bind (agrees_below? isAt hop) ih

end Part

end GrammarChart
