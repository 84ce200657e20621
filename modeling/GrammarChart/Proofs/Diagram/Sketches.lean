import GrammarChart.Proofs.Diagram.Results
import GrammarChart.Proofs.Diagram.Seen

/-!
# Sketches

A sketch is the tree of a rule with the faces of what its references lead to; it says all that a
diagram shows of the rule. Rules that stand in a model compile to the diagram of their sketches
(`result_of_sketches`). A diagram that could be written is its class blocks and the texts of its
lines in a row (`Sketch.exists_of_diagram`).
-/

set_option autoImplicit false

namespace GrammarChart

/-- The tree of a rule with the faces of what its references lead to. -/
structure Sketch where
  face : Reference → Face
  rule : Production Json Reference

namespace Sketch

/-- The class block of a rule. -/
def block (sketch : Sketch) : List String := Drawing.block sketch.face sketch.rule

/-- The relationship lines of a rule. -/
def lines (sketch : Sketch) : Emission Line := Drawing.lines sketch.face sketch.rule

/-- What the diagram of rules is put together from, up to the fault that stops it. -/
def texts (sketches : List Sketch) : Emission String :=
  (Emission.ofList (sketches.flatMap block)).append
    ((Emission.ofEach lines sketches).flatMap Line.write)

/-- The diagram of rules. -/
def diagram (sketches : List Sketch) : Except Fault String :=
  match (texts sketches).fault with
  | some fault => .error fault
  | none => .ok (Writer.opening ++ String.join (texts sketches).items ++ Writer.closing)

/-- The rule stands at the node, with all below it contained in what it stands in. -/
structure StandsAt (sketch : Sketch) (m : Model) (id : NodeId) : Prop where
  stands : sketch.rule.StandsAt (.seen sketch.face) m id
  nested : m.NestedBelow id
  known : sketch.rule.isKnown

end Sketch

namespace Sketch

variable {sketches : List Sketch} {text : String}

/-- A diagram that could be written is its class blocks and then the texts of its lines. -/
theorem exists_of_diagram (h : diagram sketches = .ok text) :
    ∃ drawn written, Emission.ofEach lines sketches = .ofList drawn ∧
      List.Forall₂ (fun line shown => Line.text line = .ok shown) drawn written ∧
      text = Writer.opening ++ String.join (sketches.flatMap block) ++ String.join written ++
        Writer.closing := by
  cases stopped : (texts sketches).fault with
  | some fault =>
    rw [diagram, stopped] at h
    cases h
  | none =>
    rw [diagram, stopped] at h
    obtain ⟨-, lines⟩ := Emission.append_fault_eq_none.mp stopped
    obtain ⟨each, whole⟩ := Emission.flatMap_fault_eq_none.mp lines
    have drawn := Emission.eq_ofList whole
    obtain ⟨written, produced, together⟩ := Emission.ofEach_ofExcept each
    refine ⟨_, written, drawn, together, ?_⟩
    have items : (texts sketches).items = sketches.flatMap block ++ written := by
      rw [texts, drawn, Emission.ofList_flatMap]
      show (Emission.append _ (Emission.ofEach (fun x => .ofExcept (Line.text x)) _)).items = _
      rw [produced]
      rfl
    rw [← Except.ok.inj h, items, String.join_append, ← String.append_assoc]

end Sketch

namespace Model

variable {m : Model}

/-- Rules that stand are drawn as their sketches say. -/
theorem fragments_of_sketches (plain : m.IsPlain) {sketches : List Sketch} {ids : List NodeId}
    (stand : List.Forall₂ (fun sketch id => sketch.StandsAt m id) sketches ids) :
    (m.compilationOutputs false (ids.map .node)).fragments = Sketch.texts sketches := by
  have blocks : Emission.ofEach (fun id => m.classBlock (.node id)) ids =
      .ofList (sketches.flatMap Sketch.block) := by
    refine Emission.ofEach_eq_ofList_of_forall₂ ?_ stand
    intro sketch _ id _ stands
    exact classBlock_of_seen stands.stands stands.nested stands.known
  have lines : Emission.ofEach (fun id => m.relationshipLines (.node id)) ids =
      (Emission.ofEach Sketch.lines sketches).flatMap Line.write := by
    rw [Emission.ofEach_flatMap]
    refine Emission.ofEach_congr ?_ stand
    intro sketch _ id _ stands
    exact relationshipLines_of_seen (fun _ _ => plain) stands.stands stands.nested stands.known
  rw [fragments_quiet, Emission.ofEach_map, Emission.ofEach_map, blocks, lines, Sketch.texts]

/-- Rules that stand in a model compile to the diagram of their sketches. -/
theorem result_of_sketches (plain : m.IsPlain) {sketches : List Sketch} {ids : List NodeId}
    (stand : List.Forall₂ (fun sketch id => sketch.StandsAt m id) sketches ids) (writer : Writer) :
    (m.compileRules false (ids.map .node) writer).result = Sketch.diagram sketches := by
  rw [result_compileRules_eq_joined, fragments_of_sketches plain stand, Emission.joined,
    Sketch.diagram]
  cases (Sketch.texts sketches).fault <;> rfl

end Model
end GrammarChart
