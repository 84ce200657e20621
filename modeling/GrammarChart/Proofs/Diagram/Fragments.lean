import GrammarChart.Proofs.Diagram.Known

/-!
# Fragments of a diagram

A document is written fragment by fragment: the first and the last line of each class block, and
lines that are drawn for a call, for a cross reference or for an action. A `Fragment` is such a text
together with what it is drawn for. Rules are given here with names for their references, and what
these lead to is given apart from the rules, so that the same rules can be looked at with other
targets. The document of rules is their fragments in a row (`Model.result_eq_fragments`).
-/

set_option autoImplicit false

namespace GrammarChart

variable {ρ : Type}

namespace Phrase

section Resolve

variable (target : ρ → Target)

mutual

/-- The element with its references replaced by what they lead to. -/
def resolve : Phrase String ρ → Phrase String Target
  | .keyword value mark => .keyword value mark
  | .ruleCall rule mark => .ruleCall (target rule) mark
  | .crossReference type terminal mark => .crossReference (target type) (resolveIn terminal) mark
  | .assignment feature operator terminal mark =>
    .assignment feature operator (resolveIn terminal) mark
  | .alternatives elements mark => .alternatives (resolveAll elements) mark
  | .group elements mark => .group (resolveAll elements) mark
  | .action type inferredType feature operator mark =>
    .action (type.map target) inferredType feature operator mark
  | .unknown kind mark => .unknown kind mark

/-- The terminal, if there is one, with its references replaced. -/
def resolveIn : Option (Phrase String ρ) → Option (Phrase String Target)
  | none => none
  | some terminal => some terminal.resolve

/-- The elements with their references replaced. -/
def resolveAll : List (Phrase String ρ) → List (Phrase String Target)
  | [] => []
  | b :: rest => b.resolve :: resolveAll rest

end

variable {target}

/-- The references of elements are replaced one by one. -/
theorem resolveAll_eq (elements : List (Phrase String ρ)) :
    resolveAll target elements = elements.map (resolve target) := by
  induction elements with
  | nil => rfl
  | cons b rest ih => rw [resolveAll, ih, List.map_cons]

/-- The members of a resolved element are resolved. -/
theorem members_resolve (b : Phrase String ρ) :
    (b.resolve target).members = b.members.map (resolve target) := by
  cases b with
  | alternatives elements mark | group elements mark => exact resolveAll_eq elements
  | _ => rfl

/-- Resolving keeps the mark of an element. -/
@[simp] theorem mark_resolve (b : Phrase String ρ) : (b.resolve target).mark = b.mark := by
  cases b <;> rfl

/-- Resolving keeps the kind of an element. -/
@[simp] theorem handler?_resolve (b : Phrase String ρ) :
    (b.resolve target).handler? = b.handler? := by
  cases b <;> rfl

/-- What a visit that starts at a resolved element meets is what one that starts at the element
meets, all of it resolved. -/
theorem reached_nil_resolve (b : Phrase String ρ) : (b.resolve target).reached [] =
    (b.reached []).map (Prod.map (List.map (resolve target)) (resolve target)) :=
  reached_map members_resolve b []

/-- Resolving makes no element of an unknown kind and takes none away. -/
theorem isKnown_resolve (b : Phrase String ρ) : (b.resolve target).isKnown = b.isKnown := by
  simp [isKnown, reached_nil_resolve, List.all_map, Function.comp_def]

end Resolve

end Phrase

namespace Inherited

variable {target : ρ → Target}

/-- A resolved element hands down what the element hands down. -/
@[simp] theorem within_resolve (signals : Inherited) (b : Phrase String ρ) :
    signals.within (b.resolve target) = signals.within b := by
  cases b <;> rfl

/-- The same is inherited within resolved elements. -/
@[simp] theorem around_map_resolve (outer : List (Phrase String ρ)) :
    around (outer.map (Phrase.resolve target)) = around outer := by
  induction outer with
  | nil => rfl
  | cons b outer ih => rw [List.map_cons, around, around, ih, within_resolve]

/-- A resolved element has the bounds of the element. -/
@[simp] theorem bounds_resolve (signals : Inherited) (b : Phrase String ρ) :
    signals.bounds (b.resolve target) = signals.bounds b := by
  have operator : signals.operatorOf (b.resolve target) = signals.operatorOf b := by
    cases b <;> rfl
  rw [bounds, bounds, Phrase.mark_resolve, operator]

end Inherited

/-- A piece of a document: the first or the last line of a class block, or a line that is drawn for
an element. -/
inductive Fragment (ρ : Type) where
  | frame (text : String)
  | drawn (source : Phrase String ρ) (text : String)

namespace Fragment

/-- The text of a fragment. -/
def text : Fragment ρ → String
  | .frame text => text
  | .drawn _ text => text

/-- The fragment is the first or the last line of a class block. -/
def isFrame : Fragment ρ → Bool
  | .frame _ => true
  | .drawn _ _ => false

/-- The texts of lines that are drawn for an element are the lines. -/
@[simp] theorem map_text_drawn (source : Phrase String ρ) (texts : List String) :
    (texts.map (drawn source)).map text = texts := by
  rw [List.map_map]
  exact List.map_id texts

end Fragment

namespace Phrase

variable (target : ρ → Target)

/-- The attribute line of an element is drawn for the terminal that is assigned. -/
def attributeFragments (b : Phrase String ρ) : List (Fragment ρ) :=
  match b with
  | .assignment _ _ (some terminal) _ => (b.resolve target).attributeLines.map (.drawn terminal)
  | _ => []

/-- The line of an element that is assigned to a feature of the owner is drawn for that element. -/
def assignedFragments (owner : String) (bounds : Multiplicity) (arrow : Arrow) (feature : String)
    (b : Phrase String ρ) : List (Fragment ρ) :=
  ((b.resolve target).assignedLines owner bounds arrow feature).map (.drawn b)

/-- The lines of an element of the owner. Those of an assignment are drawn for what it assigns, and
the line of any other element for that element. -/
def drawnFragments (owner : String) (inherited : Inherited) (b : Phrase String ρ) :
    List (Fragment ρ) :=
  match b with
  | .assignment feature operator terminal _ =>
    terminal.toList.flatMap fun t => (t.reached []).flatMap fun met =>
      met.2.assignedFragments target owner (inherited.bounds b) (assignmentArrow operator) feature
  | _ => ((b.resolve target).drawnLines owner inherited).map (.drawn b)

variable {target}

/-- The texts of the attribute fragments are the attribute lines. -/
theorem map_text_attributeFragments (b : Phrase String ρ) :
    (b.attributeFragments target).map Fragment.text = (b.resolve target).attributeLines := by
  cases b with
  | assignment feature operator terminal mark =>
    cases terminal with
    | none => rfl
    | some t => exact Fragment.map_text_drawn t _
  | _ => rfl

/-- The texts of the fragments of an element are its lines. -/
theorem map_text_drawnFragments (owner : String) (inherited : Inherited) (b : Phrase String ρ) :
    (b.drawnFragments target owner inherited).map Fragment.text =
      (b.resolve target).drawnLines owner inherited := by
  cases b with
  | assignment feature operator terminal mark =>
    have bounds : inherited.bounds (resolve target (.assignment feature operator terminal mark)) =
        inherited.bounds (.assignment feature operator terminal mark) :=
      inherited.bounds_resolve _
    rw [resolve] at bounds ⊢
    rw [drawnFragments, drawnLines, bounds]
    cases terminal with
    | none => rfl
    | some t =>
      simp only [resolveIn, Option.toList_some, List.flatMap_singleton, reached_nil_resolve,
        List.flatMap_map, List.map_flatMap, assignedFragments, Fragment.map_text_drawn,
        Prod.map_snd]
  | _ => exact Fragment.map_text_drawn _ _

end Phrase

namespace Production

/-- The rule with the references of its body replaced by what they lead to. -/
def resolve (target : ρ → Target) : Production String ρ → Production String Target :=
  mapBody (Phrase.resolve target)

section Fragments

variable (target : ρ → Target)

/-- The class block of a rule with the given attributes, between its first and its last line. Only a
rule with a body has one. -/
def blockAround (rule : Production String ρ) (attributes : List (Fragment ρ)) : List (Fragment ρ) :=
  match rule.body? with
  | some _ => .frame ("class " ++ rule.name ++ " \x7b\n") :: attributes ++ [.frame "\x7d\n"]
  | none => []

/-- The fragments of the attributes of a rule. -/
def attributeFragments (rule : Production String ρ) : List (Fragment ρ) :=
  rule.body?.toList.flatMap fun body =>
    (body.reached []).flatMap (·.2.attributeFragments target)

/-- The fragments of the class block of a rule. -/
def blockFragments (rule : Production String ρ) : List (Fragment ρ) :=
  rule.blockAround (rule.attributeFragments target)

/-- The line of an alias, without bounds, is drawn when its body calls a parser rule. -/
def aliasLines (name : String) : Target → List String
  | .parserRule other => [name ++ " *-- " ++ other ++ "\n"]
  | _ => []

/-- The fragments of the relationships of a rule. The line of an alias is drawn for its body. -/
def lineFragments (rule : Production String ρ) : List (Fragment ρ) :=
  match rule.body? with
  | some (.ruleCall call mark) =>
    (aliasLines rule.name (target call)).map (.drawn (.ruleCall call mark))
  | some body =>
    (body.reached []).flatMap fun met => met.2.drawnFragments target rule.name (.around met.1)
  | none => []

/-- The fragments of a document: the class blocks of the rules, and then their relationships. -/
def fragments (rules : List (Production String ρ)) : List (Fragment ρ) :=
  rules.flatMap (blockFragments target) ++ rules.flatMap (lineFragments target)

end Fragments

/-- The document that is written fragment by fragment. -/
def document (fragments : List (Fragment ρ)) : String :=
  "@startuml\n" ++ String.join (fragments.map Fragment.text) ++ "@enduml\n"

variable {target : ρ → Target}

/-- Resolving makes no element of an unknown kind and takes none away. -/
theorem isKnown_resolve (rule : Production String ρ) :
    (rule.resolve target).isKnown = rule.isKnown :=
  isKnown_mapBody Phrase.isKnown_resolve rule

/-- The texts of the fragments of a class block are its lines. -/
theorem map_text_blockFragments (rule : Production String ρ) :
    (rule.blockFragments target).map Fragment.text = (rule.resolve target).classBlock := by
  rw [blockFragments, blockAround, attributeFragments, classBlock, resolve, body?_mapBody,
    name_mapBody]
  cases rule.body? with
  | none => rfl
  | some b =>
    have attributes : ((b.reached []).flatMap (·.2.attributeFragments target)).map Fragment.text =
        ((b.resolve target).reached []).flatMap (·.2.attributeLines) := by
      rw [List.map_flatMap, Phrase.reached_nil_resolve, List.flatMap_map]
      exact List.flatMap_congr fun met _ => met.2.map_text_attributeFragments
    simp only [Option.toList_some, List.flatMap_singleton, Option.map_some, List.map_append,
      List.map_cons, List.map_nil, attributes]
    rfl

/-- The texts of the fragments of relationships are the relationship lines. -/
theorem map_text_lineFragments (rule : Production String ρ) :
    (rule.lineFragments target).map Fragment.text = (rule.resolve target).relationshipLines := by
  rw [lineFragments, relationshipLines, resolve, body?_mapBody, name_mapBody]
  cases rule.body? with
  | none => rfl
  | some b =>
    have lines : ((b.reached []).flatMap fun met =>
          met.2.drawnFragments target rule.name (.around met.1)).map Fragment.text =
        ((b.resolve target).reached []).flatMap fun met =>
          met.2.drawnLines rule.name (.around met.1) := by
      rw [List.map_flatMap, Phrase.reached_nil_resolve, List.flatMap_map]
      refine List.flatMap_congr fun met _ => ?_
      rw [Phrase.map_text_drawnFragments, Prod.map_fst, Inherited.around_map_resolve, Prod.map_snd]
    cases b with
    | ruleCall call mark =>
      refine (Fragment.map_text_drawn _ _).trans ?_
      rw [Option.map_some, Phrase.resolve]
      cases target call <;> rfl
    | _ => exact lines

/-- The document of the fragments of rules is their diagram. -/
theorem document_fragments (rules : List (Production String ρ)) :
    document (fragments target rules) = diagram (rules.map (resolve target)) := by
  have blocks : (rules.flatMap (blockFragments target)).map Fragment.text =
      (rules.map (resolve target)).flatMap classBlock := by
    rw [List.map_flatMap, List.flatMap_map]
    exact List.flatMap_congr fun rule _ => rule.map_text_blockFragments
  have lines : (rules.flatMap (lineFragments target)).map Fragment.text =
      (rules.map (resolve target)).flatMap relationshipLines := by
    rw [List.map_flatMap, List.flatMap_map]
    exact List.flatMap_congr fun rule _ => rule.map_text_lineFragments
  rw [document, fragments, List.map_append, blocks, lines, diagram, String.join_append,
    ← String.append_assoc]

end Production

namespace Model

variable {m : Model}

/-- Rules compile to the document of their fragments, and to nothing else. -/
theorem result_eq_fragments {target : ρ → Target} {rules : List (Production String ρ)}
    {ids : List NodeId} (stand : List.Forall₂ m.Draws (rules.map (Production.resolve target)) ids)
    (verbose : Bool) (writer : Writer) (text : String) :
    (m.compileRules verbose (ids.map .node) writer).result = .ok text ↔
      (∀ rule ∈ rules, rule.isKnown) ∧
        text = Production.document (Production.fragments target rules) := by
  simp only [result_compileRules_eq_ok stand, List.forall_mem_map, Production.isKnown_resolve,
    Production.document_fragments]

end Model
end GrammarChart
