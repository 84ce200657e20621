import GrammarChart.Model.Containment

/-!
# Imported grammars

The grammars that a grammar reaches through imports, nearest first and each once, and the rules
that a diagram of the grammar shows: of all rules of one name the first one.
-/

set_option autoImplicit false

namespace GrammarChart

/-- A stricter condition that drops some member of a list counts fewer of them. -/
theorem countP_lt_of_dropped {α : Type} {p q : α → Bool} {l : List α} {a : α}
    (imp : ∀ x, p x → q x) (mem : a ∈ l) (hq : q a) (hp : ¬ p a) :
    l.countP p < l.countP q := by
  induction l with
  | nil => simp at mem
  | cons b rest ih =>
    have le : rest.countP p ≤ rest.countP q := List.countP_mono_left fun x _ => imp x
    rcases List.mem_cons.1 mem with rfl | h
    · simp only [Bool.not_eq_true] at hp
      simp [hq, hp]
      omega
    · have := ih h
      by_cases hb : p b
      · simp [hb, imp b hb, this]
      · by_cases hqb : q b <;> simp [hb, hqb] <;> omega

namespace Model

/-- What a grammar imports directly. -/
def importsOf (m : Model) (id : NodeId) : Except Fault (List Item) :=
  m.itemsOf (.node id) "imports"

/-- What imports anything is a node of the model. -/
theorem lt_of_importsOf {m : Model} {id : NodeId} {imports : List Item}
    (h : m.importsOf id = .ok imports) : id.index < m.nodes.length := by
  apply Nat.lt_of_not_le
  intro bound
  have missing : m.node? id = none := List.getElem?_eq_none bound
  have none : m.importsOf id = .error .noField := by
    simp [importsOf, itemsOf, partOf, Item.node?, missing]
    rfl
  simp [none] at h

/-- How many nodes of the model are not among the given ones. -/
def unseen (m : Model) (seen : List NodeId) : Nat :=
  (List.range m.nodes.length).countP fun i => !seen.contains ⟨i⟩

/-- A further node of the model leaves fewer nodes unseen. -/
theorem unseen_cons_lt {m : Model} {seen : List NodeId} {id : NodeId} (h : id ∉ seen)
    (bound : id.index < m.nodes.length) : m.unseen (id :: seen) < m.unseen seen := by
  apply countP_lt_of_dropped (a := id.index)
  · intro i hi
    simp only [List.contains_cons, Bool.not_or, Bool.and_eq_true] at hi
    exact hi.2
  · simpa using bound
  · simpa using h
  · simp

/-- Works off a queue of grammars: one that was seen is skipped, and the imports of any other one
queue up behind. -/
def reachFrom (m : Model) (seen : List NodeId) (queue : List Item) :
    Except Fault (List NodeId) :=
  match queue with
  | [] => .ok []
  | .node id :: rest =>
    if id ∈ seen then reachFrom m seen rest
    else match _h : m.importsOf id with
      | .ok imports => (reachFrom m (id :: seen) (rest ++ imports)).map (id :: ·)
      | .error fault => .error fault
  | _ :: _ => .error .noField
termination_by (m.unseen seen, queue.length)
decreasing_by
  · exact Prod.Lex.right _ (by simp)
  · exact Prod.Lex.left _ _ (unseen_cons_lt (by assumption) (lt_of_importsOf _h))

/-- The grammars that a grammar reaches through one or more imports, nearest first. -/
def reachable (m : Model) (id : NodeId) : Except Fault (List NodeId) := do
  m.reachFrom [id] (← m.importsOf id)

/-- The rules of a grammar. -/
def rulesOf (m : Model) (id : NodeId) : Emission Item :=
  (Emission.ofExcept (m.itemsOf (.node id) "rules")).flatMap .ofList

/-- Keeps the rules whose name did not come before, neither among the given names nor earlier in
the list. A name that cannot be a member of a set stops the search. -/
def firstOfEachName (m : Model) (names : List Item) : List Item → Except Fault (List Item)
  | [] => .ok []
  | rule :: rest => do
    let name ← m.nameOf rule
    if !m.isAtom name then throw .wrongType
    else if names.any name.sameAtom then firstOfEachName m names rest
    else
      let kept ← firstOfEachName m (name :: names) rest
      return rule :: kept

/-- The rules that a diagram of a grammar shows: its own ones and, if asked for, those of the
grammars it reaches, one for each name. -/
def collectRules (m : Model) (id : NodeId) (withImports : Bool) : Except Fault (List Item) := do
  let reached ← if withImports then m.reachable id else pure []
  let all := Emission.ofEach m.rulesOf (id :: reached)
  let kept ← m.firstOfEachName [] all.items
  match all.fault with
  | some fault => throw fault
  | none => return kept

end Model
end GrammarChart
