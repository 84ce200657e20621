import GrammarChart.Proofs.Diagram.Names

/-!
# Pruned rules

A reference that leads nowhere, or to an element of a rule, is dead: a diagram has no name for what
it leads to. `Phrase.prune` takes out of a body every element that cannot be drawn without a dead
reference and leaves all else as it is (`Phrase.not_dead_of_mem_elements_prune`). A rule and the
pruned rule draw the same (`Sketch.lines_pruned`, `Sketch.block_pruned`), unless the drawing asks an
element for its name, which is a fault (`Drawing.asks`, `Sketch.fault_lines`).
-/

set_option autoImplicit false

namespace GrammarChart

namespace Face

/-- The reference leads to an element. -/
def isElement : Face → Bool
  | .element => true
  | _ => false

/-- The reference leads nowhere, or to an element. -/
def isDead : Face → Bool
  | .nowhere => true
  | .element => true
  | _ => false

end Face

namespace Phrase

variable {φ ρ : Type}

/-- The rule that is called where a terminal may stand. -/
def called? : Option (Phrase φ ρ) → Option ρ
  | some (.ruleCall rule _) => some rule
  | _ => none

/-- The references of an element itself. -/
def ownReferences : Phrase φ ρ → List ρ
  | .ruleCall rule _ => [rule]
  | .crossReference type _ _ => [type]
  | .action type _ _ _ _ => type.toList
  | _ => []

/-- A keyword that stands for nothing in particular. -/
def blank (mark : Option Json) : Phrase Json ρ := .keyword (.str "") mark

section Prune

variable (dead : ρ → Bool)

mutual

/-- The element without what cannot be drawn without a dead reference. Where such an element stood,
a keyword with the same mark stands. -/
def prune : Phrase Json ρ → Phrase Json ρ
  | .keyword value mark => .keyword value mark
  | .ruleCall rule mark => if dead rule then blank mark else .ruleCall rule mark
  | .crossReference type terminal mark =>
    if dead type || (called? terminal).any dead then blank mark
    else .crossReference type (pruneIn terminal) mark
  | .assignment feature operator terminal mark =>
    .assignment feature operator (pruneIn terminal) mark
  | .alternatives elements mark => .alternatives (pruneAll elements) mark
  | .group elements mark => .group (pruneAll elements) mark
  | .action type inferredType feature operator mark =>
    if !inferredType.any Json.isPresent && type.any dead then blank mark
    else .action (type.filter fun t => !dead t) inferredType feature operator mark
  | .unknown kind mark => .unknown kind mark

/-- The terminal, if there is one, is pruned. -/
def pruneIn : Option (Phrase Json ρ) → Option (Phrase Json ρ)
  | none => none
  | some terminal => some terminal.prune

/-- Elements are pruned one by one. -/
def pruneAll : List (Phrase Json ρ) → List (Phrase Json ρ)
  | [] => []
  | b :: rest => b.prune :: pruneAll rest

end

attribute [local simp] prune pruneIn pruneAll

variable {dead : ρ → Bool}

/-- Elements are pruned one by one. -/
theorem pruneAll_eq (elements : List (Phrase Json ρ)) :
    pruneAll dead elements = elements.map (prune dead) := by
  induction elements with
  | nil => rfl
  | cons b rest ih => simp [ih]

/-- The terminal is pruned. -/
theorem pruneIn_eq (terminal : Option (Phrase Json ρ)) :
    pruneIn dead terminal = terminal.map (prune dead) := by
  cases terminal <;> rfl

/-- Pruning an element prunes its members. -/
theorem members_prune (b : Phrase Json ρ) :
    (b.prune dead).members = b.members.map (prune dead) := by
  cases b with
  | alternatives elements mark | group elements mark => exact pruneAll_eq elements
  | ruleCall | crossReference | action =>
    rw [prune]
    split <;> rfl
  | _ => rfl

/-- What is below a pruned element is pruned. -/
theorem exists_child_of_prune {b c : Phrase Json ρ} (h : c ∈ (b.prune dead).children) :
    ∃ child ∈ b.children, c = child.prune dead := by
  have terminals : ∀ {terminal : Option (Phrase Json ρ)}, c ∈ (pruneIn dead terminal).toList →
      ∃ child ∈ terminal.toList, c = child.prune dead := by
    intro terminal mem
    rw [pruneIn_eq, Option.mem_toList] at mem
    obtain ⟨child, given, rfl⟩ := Option.map_eq_some_iff.mp mem
    exact ⟨child, Option.mem_toList.mpr given, rfl⟩
  have members : ∀ {elements : List (Phrase Json ρ)}, c ∈ pruneAll dead elements →
      ∃ child ∈ elements, c = child.prune dead := by
    intro elements mem
    rw [pruneAll_eq] at mem
    obtain ⟨child, inside, rfl⟩ := List.mem_map.mp mem
    exact ⟨child, inside, rfl⟩
  cases b with
  | alternatives elements mark | group elements mark => exact members h
  | assignment feature operator terminal mark => exact terminals h
  | crossReference type terminal mark =>
    rw [prune] at h
    split at h
    · cases h
    · exact terminals h
  | ruleCall | action =>
    rw [prune] at h
    split at h <;> cases h
  | _ => cases h

/-- The elements of a pruned element are pruned ones. -/
theorem exists_of_mem_elements_prune (b : Phrase Json ρ) : ∀ {c : Phrase Json ρ},
    c ∈ (b.prune dead).elements → ∃ inner ∈ b.elements, c = inner.prune dead := by
  induction b using induct with
  | step b ih =>
    intro c mem
    rw [elements_eq] at mem
    rcases List.mem_cons.mp mem with rfl | below
    · exact ⟨b, b.self_mem_elements, rfl⟩
    · obtain ⟨d, child, inside⟩ := List.mem_flatMap.mp below
      obtain ⟨original, isChild, rfl⟩ := exists_child_of_prune child
      obtain ⟨inner, further, same⟩ := ih original isChild inside
      exact ⟨inner, mem_elements_of_child isChild further, same⟩

/-- No reference that is left after pruning is dead. -/
theorem not_dead_of_mem_elements_prune {b c : Phrase Json ρ} (h : c ∈ (b.prune dead).elements) :
    ∀ reference ∈ c.ownReferences, dead reference = false := by
  obtain ⟨inner, -, rfl⟩ := exists_of_mem_elements_prune b h
  intro reference mem
  cases inner with
  | ruleCall rule mark =>
    rw [prune] at mem
    split at mem
    · cases mem
    · next alive =>
      rw [List.mem_singleton.mp mem]
      simpa using alive
  | crossReference type terminal mark =>
    rw [prune] at mem
    split at mem
    · cases mem
    · next alive =>
      rw [Bool.or_eq_true, not_or] at alive
      rw [List.mem_singleton.mp mem]
      simpa using alive.1
  | action type inferredType feature operator mark =>
    rw [prune] at mem
    split at mem
    · cases mem
    · have kept := (Option.filter_eq_some_iff.mp (Option.mem_toList.mp mem)).2
      simpa using kept
  | _ => cases mem

/-- What a visit that starts at a pruned element meets is what one that starts at the element meets,
all of it pruned. -/
theorem reached_nil_prune (b : Phrase Json ρ) : (b.prune dead).reached [] =
    (b.reached []).map (Prod.map (List.map (prune dead)) (prune dead)) :=
  reached_map members_prune b []

/-- A pruned element has the mark of the element. -/
theorem mark_prune (b : Phrase Json ρ) : (b.prune dead).mark = b.mark := by
  cases b with
  | ruleCall | crossReference | action =>
    rw [prune]
    split <;> rfl
  | _ => rfl

/-- Pruning makes no assignment and takes none away. -/
theorem isAssignment_prune (b : Phrase Json ρ) :
    (b.prune dead).isAssignment = b.isAssignment := by
  cases b with
  | ruleCall | crossReference | action =>
    rw [prune]
    split <;> rfl
  | _ => rfl

/-- Pruning makes no group that counts and takes none away. -/
theorem isMarkedGroup_prune (b : Phrase Json ρ) :
    (b.prune dead).isMarkedGroup = b.isMarkedGroup := by
  cases b with
  | ruleCall | crossReference | action =>
    rw [prune]
    split <;> rfl
  | _ => rfl

/-- Pruning leaves the operators of assignments alone. -/
theorem operator?_prune_of_isAssignment {b : Phrase Json ρ} (h : b.isAssignment = true) :
    (b.prune dead).operator? = b.operator? := by
  cases b <;> first | rfl | cases h

/-- A pruned element within pruned ones has the bounds of the element, unless its operator was
lost. -/
theorem bounds_prune {b : Phrase Json ρ} (h : (b.prune dead).operator? = b.operator?)
    (outer : List (Phrase Json ρ)) :
    (b.prune dead).bounds (outer.map (prune dead)) = b.bounds outer := by
  have assignment : (outer.map (prune dead)).find? isAssignment =
      (outer.find? isAssignment).map (prune dead) := by
    rw [List.find?_map]
    exact congrArg (fun p => (outer.find? p).map (prune dead)) (funext isAssignment_prune)
  have group : (outer.map (prune dead)).find? isMarkedGroup =
      (outer.find? isMarkedGroup).map (prune dead) := by
    rw [List.find?_map]
    exact congrArg (fun p => (outer.find? p).map (prune dead)) (funext isMarkedGroup_prune)
  have governing : governingOperator (outer.map (prune dead)) (b.prune dead) =
      governingOperator outer b := by
    unfold governingOperator
    rw [h, assignment]
    cases found : outer.find? isAssignment with
    | none => rfl
    | some a =>
      rw [Option.map_some, Option.bind_some, Option.bind_some,
        operator?_prune_of_isAssignment (List.find?_some found)]
  have marks : ∀ found : Option (Phrase Json ρ),
      (found.map (prune dead)).map (fun g => Item.ofWord? g.mark) =
        found.map fun g => Item.ofWord? g.mark := by
    intro found
    cases found with
    | none => rfl
    | some g => simp only [Option.map_some, mark_prune]
  rw [bounds, bounds, signals, signals, mark_prune, governing, group, marks]

end Prune
end Phrase

namespace Production

variable {ρ : Type}

/-- The rule with its body pruned. -/
def prune (dead : ρ → Bool) : Production Json ρ → Production Json ρ
  | .parser name definition inferredType entry fragment =>
    .parser name (definition.map (Phrase.prune dead)) inferredType entry fragment
  | .terminal name regex hidden fragment => .terminal name regex hidden fragment

/-- A pruned rule has the name of the rule. -/
theorem name_prune (dead : ρ → Bool) (rule : Production Json ρ) :
    (rule.prune dead).name = rule.name := by
  cases rule <;> rfl

/-- The body of a pruned rule is pruned. -/
theorem body?_prune (dead : ρ → Bool) (rule : Production Json ρ) :
    (rule.prune dead).body? = rule.body?.map (Phrase.prune dead) := by
  cases rule <;> rfl

end Production

namespace Drawing

variable {ρ : Type} (face : ρ → Face)

/-- The name of a declared type is asked for, and it is an element. -/
def asksType (type : ρ) (terminal : Option (Phrase Json ρ)) : Bool :=
  isUsable face terminal && (face type).isElement

/-- Drawing an element that is assigned asks an element for its name. -/
def asksAssigned : Phrase Json ρ → Bool
  | .crossReference type terminal _ => asksType face type terminal
  | _ => false

/-- Drawing an element asks an element for its name. -/
def asks : Phrase Json ρ → Bool
  | .assignment _ _ terminal _ =>
    (terminal.toList.flatMap fun t => (t.reached []).map Prod.snd).any (asksAssigned face)
  | .crossReference type terminal _ => asksType face type terminal
  | .action type inferredType _ _ _ =>
    !inferredType.any Json.isPresent && type.any fun t => (face t).isElement
  | _ => false

/-- What is dead cannot be drawn. -/
def dead (reference : ρ) : Bool := (face reference).isDead

variable {face} {owner : Json}

section Faults

/-- Only an element faults when it is asked for its name. -/
theorem fault_name? (f : Face) :
    (Emission.ofExcept f.name?).fault = if f.isElement then some .noField else none := by
  cases f <;> rfl

/-- Asking for a declared type faults when it is an element. -/
theorem fault_declared (type : ρ) (terminal : Option (Phrase Json ρ)) :
    (Emission.ofExcept (declared face type terminal)).fault =
      if asksType face type terminal then some .noField else none := by
  unfold declared asksType
  cases isUsable face terminal with
  | true => exact fault_name? (face type)
  | false => rfl

/-- Asking for the type that an action makes faults when it is an element. -/
theorem fault_made (type : Option ρ) (inferredType : Option Json) :
    (Emission.ofExcept (made face type inferredType)).fault =
      if !inferredType.any Json.isPresent && type.any fun t => (face t).isElement then some .noField
      else none := by
  have unnamed : (Emission.ofExcept ((type.map fun t => (face t).name?).getD (.ok none))).fault =
      if type.any fun t => (face t).isElement then some .noField else none := by
    cases type with
    | none => rfl
    | some t => exact fault_name? (face t)
  unfold made
  cases inferredType with
  | none => exact unnamed
  | some name =>
    cases present : name.isPresent with
    | true => simp [Option.filter, present, Emission.ofList]
    | false => simpa [Option.filter, present] using unnamed

/-- The lines for a name that is given, if one is, fault when giving it does. -/
theorem fault_given (given : Except Fault (Option Json)) (make : Json → Line) :
    ((Emission.ofExcept given).flatMap fun name => .ofList (name.toList.map make)).fault =
      (Emission.ofExcept given).fault :=
  Emission.fault_flatMap fun _ _ => rfl

/-- Drawing an element that is assigned faults when it asks an element for its name. -/
theorem fault_assigned (bounds : Multiplicity) (arrow : Arrow) (feature : Json)
    (b : Phrase Json ρ) : (assigned face owner bounds arrow feature b).fault =
      if asksAssigned face b then some .noField else none := by
  cases b with
  | crossReference type terminal mark => exact (fault_given _ _).trans (fault_declared type terminal)
  | _ => rfl

/-- Drawing an element faults when it asks an element for its name. -/
theorem fault_drawn (met : List (Phrase Json ρ) × Phrase Json ρ) :
    (drawn face owner met).fault = if asks face met.2 then some .noField else none := by
  obtain ⟨outer, b⟩ := met
  cases b with
  | assignment feature operator terminal mark =>
    exact Emission.fault_ofEach fun c _ => fault_assigned _ _ _ c
  | crossReference type terminal mark => exact (fault_given _ _).trans (fault_declared type terminal)
  | action type inferredType feature operator mark =>
    exact (fault_given _ _).trans (fault_made type inferredType)
  | _ => rfl

end Faults

section Pruned

/-- The terminal rule that is called is called after pruning, unless it is dead. -/
theorem calledTerminal?_prune (terminal : Option (Phrase Json ρ)) :
    calledTerminal? face (Phrase.pruneIn (dead face) terminal) = calledTerminal? face terminal := by
  cases terminal with
  | none => rfl
  | some t =>
    cases t with
    | ruleCall rule mark =>
      rw [Phrase.pruneIn, Phrase.prune]
      split
      · next isDead =>
        unfold dead at isDead
        cases leads : face rule <;> simp_all [calledTerminal?, Phrase.blank, Face.isDead,
          Face.terminalRule?]
      · rfl
    | crossReference | action =>
      rw [Phrase.pruneIn, Phrase.prune]
      split <;> rfl
    | _ => rfl

/-- A terminal that calls nothing dead is as usable after pruning. -/
theorem isUsable_prune {terminal : Option (Phrase Json ρ)}
    (alive : (Phrase.called? terminal).any (dead face) = false) :
    isUsable face (Phrase.pruneIn (dead face) terminal) = isUsable face terminal := by
  cases terminal with
  | none => rfl
  | some t =>
    cases t with
    | ruleCall rule mark =>
      have kept : dead face rule = false := alive
      rw [Phrase.pruneIn, Phrase.prune, kept]
      rfl
    | crossReference | action =>
      rw [Phrase.pruneIn, Phrase.prune]
      split <;> rfl
    | _ => rfl

/-- A type that cannot be drawn for want of something that is not dead gives no name, unless it is
asked for it. -/
theorem declared_eq_none {type : ρ} {terminal : Option (Phrase Json ρ)}
    (needs : (dead face type || (Phrase.called? terminal).any (dead face)) = true)
    (quiet : asksType face type terminal = false) : declared face type terminal = .ok none := by
  have unusable : ∀ t : Option (Phrase Json ρ), (Phrase.called? t).any (dead face) = true →
      isUsable face t = false := by
    intro t calls
    cases t with
    | none => cases calls
    | some t =>
      cases t with
      | ruleCall rule mark =>
        have isDead : (face rule).isDead = true := calls
        show (face rule).isRule = false
        cases leads : face rule <;> simp_all [Face.isDead, Face.isRule]
      | _ => cases calls
  unfold declared
  cases usable : isUsable face terminal with
  | false => rfl
  | true =>
    rw [if_pos rfl]
    rcases (Bool.or_eq_true _ _).mp needs with isDead | calls
    · unfold asksType at quiet
      unfold dead at isDead
      cases leads : face type <;> simp_all [Face.isDead, Face.isElement, Face.name?]
    · rw [unusable terminal calls] at usable
      cases usable

/-- The attribute line of an element is left after pruning. -/
theorem attributes_prune (b : Phrase Json ρ) :
    attributes face (b.prune (dead face)) = attributes face b := by
  cases b with
  | assignment feature operator terminal mark =>
    rw [Phrase.prune, attributes, attributes, calledTerminal?_prune]
  | ruleCall | crossReference | action =>
    rw [Phrase.prune]
    split <;> rfl
  | _ => rfl

/-- The line of a dead call is none. -/
theorem parserRule?_eq_none {rule : ρ} (h : dead face rule = true) :
    (face rule).parserRule? = none := by
  unfold dead at h
  cases leads : face rule <;> simp_all [Face.isDead, Face.parserRule?]

/-- The line of an element that is assigned is left after pruning. -/
theorem assigned_prune (bounds : Multiplicity) (arrow : Arrow) (feature : Json) {b : Phrase Json ρ}
    (quiet : asksAssigned face b = false) :
    assigned face owner bounds arrow feature (b.prune (dead face)) =
      assigned face owner bounds arrow feature b := by
  cases b with
  | ruleCall rule mark =>
    rw [Phrase.prune]
    split
    · next isDead =>
      rw [assigned, parserRule?_eq_none isDead]
      rfl
    · rfl
  | crossReference type terminal mark =>
    rw [Phrase.prune]
    split
    · next needs =>
      rw [assigned, declared_eq_none needs quiet]
      rfl
    · next alive =>
      rw [Bool.or_eq_true, not_or, Bool.not_eq_true, Bool.not_eq_true] at alive
      rw [assigned, assigned, declared, declared, isUsable_prune alive.2]
  | action =>
    rw [Phrase.prune]
    split <;> rfl
  | _ => rfl

/-- A type that an action does not make by itself and that is dead gives no name, unless it is asked
for it. -/
theorem made_eq_none {type : Option ρ} {inferredType : Option Json}
    (needs : (!inferredType.any Json.isPresent && type.any (dead face)) = true)
    (quiet : (!inferredType.any Json.isPresent && type.any fun t => (face t).isElement) = false) :
    made face type inferredType = .ok none := by
  obtain ⟨absent, isDead⟩ := (Bool.and_eq_true _ _).mp needs
  rw [absent, Bool.true_and] at quiet
  have unnamed : inferredType.filter Json.isPresent = none := by
    cases inferredType with
    | none => rfl
    | some name => simpa [Option.filter] using absent
  unfold made
  rw [unnamed]
  cases type with
  | none => cases isDead
  | some t =>
    have leads : (face t).isDead = true := isDead
    have other : (face t).isElement = false := quiet
    show (face t).name? = .ok none
    cases found : face t <;> simp_all [Face.isDead, Face.isElement, Face.name?]

/-- The type that an action makes is left after pruning when it needs nothing dead. -/
theorem made_prune {type : Option ρ} {inferredType : Option Json}
    (alive : (!inferredType.any Json.isPresent && type.any (dead face)) = false) :
    made face (type.filter fun t => !dead face t) inferredType = made face type inferredType := by
  unfold made
  cases unnamed : inferredType.filter Json.isPresent with
  | some name => rfl
  | none =>
    have absent : inferredType.any Json.isPresent = false := by
      cases inferredType with
      | none => rfl
      | some name => simpa [Option.filter] using unnamed
    rw [absent, Bool.not_false, Bool.true_and] at alive
    cases type with
    | none => rfl
    | some t =>
      have kept : dead face t = false := alive
      rw [Option.filter_some, kept]
      rfl

/-- What is met in a pruned terminal is what is met in the terminal, all of it pruned. -/
theorem terminals_prune (terminal : Option (Phrase Json ρ)) :
    ((Phrase.pruneIn (dead face) terminal).toList.flatMap fun t => (t.reached []).map Prod.snd) =
      (terminal.toList.flatMap fun t => (t.reached []).map Prod.snd).map
        (Phrase.prune (dead face)) := by
  cases terminal with
  | none => rfl
  | some t =>
    rw [Phrase.pruneIn, Option.toList_some, List.flatMap_singleton, Option.toList_some,
      List.flatMap_singleton, Phrase.reached_nil_prune, List.map_map, List.map_map]
    rfl

/-- The lines of an element are left after pruning, unless they ask an element for its name. -/
theorem drawn_prune {outer : List (Phrase Json ρ)} {b : Phrase Json ρ}
    (quiet : asks face b = false) :
    drawn face owner (outer.map (Phrase.prune (dead face)), b.prune (dead face)) =
      drawn face owner (outer, b) := by
  -- Bounds come from the marks and operators around an element, which pruning keeps wherever the
  -- element itself is left.
  have bounds : (b.prune (dead face)).operator? = b.operator? →
      (b.prune (dead face)).bounds (outer.map (Phrase.prune (dead face))) = b.bounds outer :=
    fun same => Phrase.bounds_prune same outer
  cases b with
  | ruleCall rule mark =>
    rw [Phrase.prune] at bounds ⊢
    split
    · next isDead =>
      simp only [drawn, parserRule?_eq_none isDead]
      rfl
    · next alive =>
      rw [if_neg alive] at bounds
      simp only [drawn, bounds rfl]
  | crossReference type terminal mark =>
    rw [Phrase.prune] at bounds ⊢
    split
    · next needs =>
      simp only [drawn, declared_eq_none needs quiet]
      rfl
    · next alive =>
      rw [if_neg alive] at bounds
      rw [Bool.or_eq_true, not_or, Bool.not_eq_true, Bool.not_eq_true] at alive
      simp only [drawn, bounds rfl, declared, isUsable_prune alive.2]
  | action type inferredType feature operator mark =>
    rw [Phrase.prune] at bounds ⊢
    split
    · next needs =>
      simp only [drawn, made_eq_none needs quiet]
      rfl
    · next alive =>
      rw [if_neg alive] at bounds
      simp only [drawn, bounds rfl, made_prune (Bool.eq_false_iff.mpr alive)]
  | assignment feature operator terminal mark =>
    have silent : ∀ c ∈ terminal.toList.flatMap fun t => (t.reached []).map Prod.snd,
        asksAssigned face c = false := by
      intro c mem
      exact Bool.eq_false_iff.mpr fun loud =>
        Bool.eq_false_iff.mp quiet (List.any_eq_true.mpr ⟨c, mem, loud⟩)
    rw [Phrase.prune] at bounds ⊢
    simp only [drawn, bounds rfl, terminals_prune]
    exact Emission.ofEach_map_congr fun c mem => assigned_prune _ _ _ (silent c mem)
  | _ => rfl

variable {rule : Production Json ρ}

/-- The class block of a rule is left after pruning. -/
theorem block_prune : block face (rule.prune (dead face)) = block face rule := by
  unfold block
  rw [Production.body?_prune, Production.name_prune]
  cases rule.body? with
  | none => rfl
  | some body =>
    simp only [Option.map_some, Phrase.reached_nil_prune, List.flatMap_map, Prod.map_snd,
      attributes_prune]

/-- A body that is a call has at most the line of an alias. -/
theorem lines_of_call {call : ρ} {mark : Option Json}
    (hasBody : rule.body? = some (.ruleCall call mark)) :
    lines face rule = .ofList ((face call).parserRule?.toList.map fun name =>
      ⟨rule.name, none, .composition, none, name, true⟩) := by
  unfold lines
  rw [hasBody]

/-- The lines of a body that is no call are those of all that is met in it. -/
theorem lines_of_body {body : Phrase Json ρ} (hasBody : rule.body? = some body)
    (other : ∀ call mark, body ≠ .ruleCall call mark) :
    lines face rule = Emission.ofEach (drawn face rule.name) (body.reached []) := by
  unfold lines
  rw [hasBody]
  cases body with
  | ruleCall call mark => exact absurd rfl (other call mark)
  | _ => rfl

/-- Only calls are calls after pruning. -/
theorem isCall_of_prune {dead : ρ → Bool} {b : Phrase Json ρ} {call : ρ} {mark : Option Json}
    (h : b.prune dead = .ruleCall call mark) : b = .ruleCall call mark := by
  cases b with
  | ruleCall rule mark' =>
    rw [Phrase.prune] at h
    split at h
    · cases h
    · exact h
  | crossReference | action =>
    rw [Phrase.prune] at h
    split at h <;> cases h
  | _ => cases h

/-- The lines of a rule are left after pruning, unless they ask an element for its name. -/
theorem lines_prune (quiet : ∀ body ∈ rule.body?, ∀ met ∈ body.reached [], asks face met.2 = false) :
    lines face (rule.prune (dead face)) = lines face rule := by
  have pruned := Production.body?_prune (dead face) rule
  cases hasBody : rule.body? with
  | none =>
    rw [hasBody, Option.map_none] at pruned
    unfold lines
    rw [hasBody, pruned]
  | some body =>
    rw [hasBody, Option.map_some] at pruned
    have all : Emission.ofEach (drawn face rule.name) ((body.prune (dead face)).reached []) =
        Emission.ofEach (drawn face rule.name) (body.reached []) := by
      rw [Phrase.reached_nil_prune]
      exact Emission.ofEach_map_congr fun met mem => drawn_prune (quiet body hasBody met mem)
    by_cases call : ∃ rule mark, body = .ruleCall rule mark
    · obtain ⟨called, mark, rfl⟩ := call
      rw [Phrase.prune] at pruned
      rw [lines_of_call hasBody]
      split at pruned
      · next isDead =>
        rw [lines_of_body pruned (fun _ _ => nofun), parserRule?_eq_none isDead]
        rfl
      · rw [lines_of_call pruned, Production.name_prune]
    · push Not at call
      rw [lines_of_body hasBody call, lines_of_body pruned fun c mark isCall =>
        call c mark (isCall_of_prune isCall), Production.name_prune, all]

/-- The lines of a rule fault when they ask an element for its name. -/
theorem fault_lines : (lines face rule).fault =
    if rule.body?.any fun body => (body.reached []).any fun met => asks face met.2 then some .noField
    else none := by
  cases hasBody : rule.body? with
  | none =>
    unfold lines
    rw [hasBody]
    rfl
  | some body =>
    by_cases call : ∃ rule mark, body = .ruleCall rule mark
    · obtain ⟨called, mark, rfl⟩ := call
      rw [lines_of_call hasBody]
      rfl
    · push Not at call
      rw [lines_of_body hasBody call]
      exact Emission.fault_ofEach fun met _ => fault_drawn met

/-- What is not dead is no element. -/
theorem isElement_of_not_dead {reference : ρ} (alive : dead face reference = false) :
    (face reference).isElement = false := by
  unfold dead at alive
  cases leads : face reference <;> simp_all [Face.isDead, Face.isElement]

/-- Without dead references no element is asked for its name. -/
theorem asks_eq_false {b : Phrase Json ρ}
    (alive : ∀ c ∈ b.elements, ∀ reference ∈ c.ownReferences, dead face reference = false) :
    asks face b = false := by
  have type : ∀ {type : ρ} {terminal : Option (Phrase Json ρ)}, dead face type = false →
      asksType face type terminal = false := by
    intro type terminal kept
    rw [asksType, isElement_of_not_dead kept, Bool.and_false]
  have self := alive b b.self_mem_elements
  cases b with
  | crossReference t terminal mark => exact type (self t (List.mem_singleton_self t))
  | action t inferredType feature operator mark =>
    have named : (t.any fun t => (face t).isElement) = false := by
      cases t with
      | none => rfl
      | some t => exact isElement_of_not_dead (self t (List.mem_singleton_self t))
    rw [asks, named, Bool.and_false]
  | assignment feature operator terminal mark =>
    refine Bool.eq_false_iff.mpr fun loud => ?_
    obtain ⟨c, inside, loud⟩ := List.any_eq_true.mp loud
    obtain ⟨t, isTerminal, below⟩ := List.mem_flatMap.mp inside
    obtain ⟨met, reached, rfl⟩ := List.mem_map.mp below
    have element := alive met.2
      (Phrase.mem_elements_of_child isTerminal (t.mem_elements_of_mem_reached reached))
    cases isCross : met.2 with
    | crossReference declared terminal mark =>
      rw [isCross] at element loud
      rw [asksAssigned, type (element declared (List.mem_singleton_self declared))] at loud
      cases loud
    | _ =>
      rw [isCross] at loud
      cases loud
  | _ => rfl

end Pruned
end Drawing

namespace Sketch

/-- The sketch with its rule pruned. -/
def pruned (s : Sketch) : Sketch := ⟨s.face, s.rule.prune (Drawing.dead s.face)⟩

/-- Drawing the lines of the rule asks an element for its name. -/
def asks (s : Sketch) : Bool :=
  s.rule.body?.any fun body => (body.reached []).any fun met => Drawing.asks s.face met.2

/-- The lines of a rule fault when they ask an element for its name. -/
theorem fault_lines (s : Sketch) : s.lines.fault = if s.asks then some .noField else none :=
  Drawing.fault_lines

/-- A pruned rule has the class block of the rule. -/
theorem block_pruned (s : Sketch) : s.pruned.block = s.block := Drawing.block_prune

/-- A pruned rule has the lines of the rule, unless these ask an element for its name. -/
theorem lines_pruned {s : Sketch} (quiet : s.asks = false) : s.pruned.lines = s.lines := by
  refine Drawing.lines_prune fun body hasBody met mem => Bool.eq_false_iff.mpr fun loud => ?_
  refine Bool.eq_false_iff.mp quiet ?_
  rw [asks, hasBody]
  exact List.any_eq_true.mpr ⟨met, mem, loud⟩

/-- The lines of a pruned rule ask no element for its name. -/
theorem asks_pruned (s : Sketch) : s.pruned.asks = false := by
  rw [asks, pruned, Production.body?_prune]
  cases s.rule.body? with
  | none => rfl
  | some body =>
    refine Bool.eq_false_iff.mpr fun loud => ?_
    obtain ⟨met, mem, loud⟩ := List.any_eq_true.mp loud
    refine Bool.eq_false_iff.mp (Drawing.asks_eq_false fun c inside => ?_) loud
    exact Phrase.not_dead_of_mem_elements_prune (Phrase.mem_elements_trans _
      (Phrase.mem_elements_of_mem_reached _ mem) inside)

/-- Pruned rules are put together from what the rules are, unless these ask an element for its
name. -/
theorem texts_pruned {sketches : List Sketch} (quiet : ∀ s ∈ sketches, s.asks = false) :
    texts (sketches.map pruned) = texts sketches := by
  have lines : Emission.ofEach Sketch.lines (sketches.map pruned) =
      Emission.ofEach Sketch.lines sketches :=
    Emission.ofEach_map_congr fun s mem => lines_pruned (quiet s mem)
  have blocks : (sketches.map pruned).flatMap block = sketches.flatMap block := by
    rw [List.flatMap_map]
    exact List.flatMap_congr fun s _ => s.block_pruned
  rw [texts, texts, lines, blocks]

end Sketch
end GrammarChart
