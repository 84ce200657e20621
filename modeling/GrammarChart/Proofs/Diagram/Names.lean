import GrammarChart.Proofs.Diagram.Sketches
import GrammarChart.Proofs.Model.Inheritance

/-!
# Names in lines

A relationship line joins two names and may show a feature. When the words that a rule gives and
those that its references lead to are good, so are the words of its lines (`Drawing.joins_of_lines`).
What is good is left open: lines that are written need names that are texts, and lines that are read
back need identifiers.
-/

set_option autoImplicit false

namespace GrammarChart

/-- The names at the ends of a line are good, and the feature that it shows is. -/
structure Line.Joins (good : Json → Prop) (shows : String → Prop) (line : Line) : Prop where
  source : good line.source
  feature : ∀ feature ∈ line.feature, shows feature
  target : good line.target

/-- The name of what a reference leads to is good. -/
def Face.Names (good : Json → Prop) : Face → Prop
  | .parserRule name | .terminalRule name | .declaredType name => good name
  | _ => True

/-- The names that an element draws a line to are good, and the feature that it shows is. -/
def Phrase.Joins {ρ : Type} (face : ρ → Face) (good : Json → Prop) (shows : String → Prop) :
    Phrase Json ρ → Prop
  | .ruleCall rule _ => (face rule).Names good
  | .crossReference type _ _ => (face type).Names good
  | .assignment feature _ _ _ => ∀ shown ∈ feature.shown?, shows shown
  | .action type inferredType feature _ _ => (∀ t ∈ type, (face t).Names good) ∧
    (∀ name ∈ inferredType.filter Json.isPresent, good name) ∧
    ∀ shown ∈ feature.bind Json.shown?, shows shown
  | _ => True

namespace Drawing

variable {ρ : Type} {face : ρ → Face} {good : Json → Prop} {shows : String → Prop} {owner : Json}
  {line : Line}

/-- The name that a face gives is good. -/
theorem good_of_name? {f : Face} (named : f.Names good) {name : Json}
    (given : f.name? = .ok (some name)) : good name := by
  cases f with
  | nowhere | element => cases given
  | parserRule value | terminalRule value | declaredType value =>
    cases value <;> cases given <;> exact named

/-- The name of a declared type is good. -/
theorem good_of_declared {type : ρ} {terminal : Option (Phrase Json ρ)} {name : Json}
    (named : (face type).Names good) (given : declared face type terminal = .ok (some name)) :
    good name := by
  unfold declared at given
  split at given
  · exact good_of_name? named given
  · cases given

/-- The name of a type that an action makes is good. -/
theorem good_of_made {type : Option ρ} {inferredType : Option Json} {name : Json}
    (types : ∀ t ∈ type, (face t).Names good)
    (inferred : ∀ name ∈ inferredType.filter Json.isPresent, good name)
    (given : made face type inferredType = .ok (some name)) : good name := by
  unfold made at given
  split at given
  · next word kept =>
    cases given
    exact inferred name kept
  · cases type with
    | none => cases given
    | some type => exact good_of_name? (types type rfl) given

/-- The lines of a call join good names. -/
theorem joins_of_call {call : ρ} (named : (face call).Names good) {make : Json → Line}
    (drawn : ∀ name : Json, good name → (make name).Joins good shows)
    (mem : line ∈ (face call).parserRule?.toList.map make) : line.Joins good shows := by
  obtain ⟨name, called, rfl⟩ := List.mem_map.mp mem
  refine drawn name ?_
  cases hf : face call <;> simp_all [Face.parserRule?, Face.Names]

/-- The lines for a name that is given, if one is, join good names. -/
theorem joins_of_given {given : Except Fault (Option Json)} {make : Json → Line}
    (named : ∀ name, given = .ok (some name) → (make name).Joins good shows)
    (mem : line ∈ ((Emission.ofExcept given).flatMap fun name =>
      .ofList (name.toList.map make)).items) : line.Joins good shows := by
  obtain ⟨name, found, here⟩ := Emission.mem_flatMap_items mem
  obtain ⟨value, isName, rfl⟩ := List.mem_map.mp here
  cases given with
  | error fault => cases found
  | ok given =>
    cases List.mem_singleton.mp found
    exact named value (congrArg Except.ok (Option.mem_toList.mp isName))

/-- A line of an element that is assigned joins good names. -/
theorem joins_of_assigned (own : good owner) {bounds : Multiplicity} {arrow : Arrow}
    {feature : Json} (shown : ∀ text ∈ feature.shown?, shows text) {b : Phrase Json ρ}
    (named : b.Joins face good shows)
    (mem : line ∈ (assigned face owner bounds arrow feature b).items) : line.Joins good shows := by
  cases b with
  | ruleCall call mark => exact joins_of_call named (fun name isGood => ⟨own, shown, isGood⟩) mem
  | crossReference type terminal mark =>
    exact joins_of_given (fun name given => ⟨good_of_declared named given, shown, own⟩) mem
  | _ => exact absurd mem List.not_mem_nil

/-- A line of an element joins good names when the element and those below it do. -/
theorem joins_of_drawn (own : good owner) {met : List (Phrase Json ρ) × Phrase Json ρ}
    (named : ∀ c ∈ met.2.elements, c.Joins face good shows)
    (mem : line ∈ (drawn face owner met).items) : line.Joins good shows := by
  obtain ⟨outer, b⟩ := met
  have self := named b b.self_mem_elements
  cases b with
  | assignment feature operator terminal mark =>
    obtain ⟨c, inside, here⟩ := Emission.mem_ofEach_items mem
    obtain ⟨t, isTerminal, below⟩ := List.mem_flatMap.mp inside
    obtain ⟨met, reached, rfl⟩ := List.mem_map.mp below
    refine joins_of_assigned own self (named _ ?_) here
    exact Phrase.mem_elements_of_child isTerminal (t.mem_elements_of_mem_reached reached)
  | ruleCall call mark => exact joins_of_call self (fun name isGood => ⟨own, by simp, isGood⟩) mem
  | crossReference type terminal mark =>
    exact joins_of_given (fun name given => ⟨own, by simp, good_of_declared self given⟩) mem
  | action type inferredType feature operator mark =>
    obtain ⟨types, inferred, features⟩ := self
    exact joins_of_given (fun name given => ⟨good_of_made types inferred given, features, own⟩) mem
  | _ => exact absurd mem List.not_mem_nil

/-- The lines of a rule join good names when the rule has a good name and its elements join good
ones. -/
theorem joins_of_lines {rule : Production Json ρ} (name : good rule.name)
    (elements : ∀ body ∈ rule.body?, ∀ b ∈ body.elements, b.Joins face good shows)
    (mem : line ∈ (lines face rule).items) : line.Joins good shows := by
  unfold lines at mem
  split at mem
  · exact absurd mem List.not_mem_nil
  · next call mark body =>
    have called := elements _ body _ (Phrase.self_mem_elements _)
    exact joins_of_call called (fun other isGood => ⟨name, by simp, isGood⟩) mem
  · next body _ hasBody =>
    obtain ⟨met, reached, here⟩ := Emission.mem_ofEach_items mem
    refine joins_of_drawn name (fun c below => ?_) here
    exact elements body hasBody c
      (body.mem_elements_trans (body.mem_elements_of_mem_reached reached) below)

end Drawing

namespace Sketch

/-- The lines of a sketch join good names when its rule has a good name and its elements join good
ones. -/
theorem joins_of_lines {s : Sketch} {good : Json → Prop} {shows : String → Prop}
    (name : good s.rule.name)
    (elements : ∀ body ∈ s.rule.body?, ∀ b ∈ body.elements, b.Joins s.face good shows) {line : Line}
    (mem : line ∈ s.lines.items) : line.Joins good shows :=
  Drawing.joins_of_lines name elements mem

end Sketch
end GrammarChart
