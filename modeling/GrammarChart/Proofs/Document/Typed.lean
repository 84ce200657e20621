import GrammarChart.Proofs.Diagram.Names
import GrammarChart.Proofs.Document.Shapes
import GrammarChart.Proofs.Document.Shown

/-!
# Typed documents

The faults of the addresses of a document: an address that is a text stops the binding only by an
index with too many digits (`Planting.isOverlong_of_nodeAt`). Where all names of a document and of
those that it imports are texts, its references lead to what has a text for its name, or to what has
no name (`Document.IsTyped.face`, `View.isTyped_linkedView`).
-/

set_option autoImplicit false

namespace GrammarChart

/-- An index of a path that an address has, by its digits. -/
def HasIndex (address : String) (digits : List Nat) : Prop :=
  (∃ segment ∈ segments ((address.toList.dropWhile (· != '#')).drop 1), ∃ name,
    Segment.ofText segment = some ⟨name, some digits⟩) ∨
  ∃ list, outsidePath? ((address.toList.dropWhile (· != '#')).drop 1) = some (list, digits)

/-- The fault is that of an address with an index that has too many digits. -/
def Fault.IsOverlong (refers : String → Prop) (fault : Fault) : Prop :=
  ∃ address digits, refers address ∧ HasIndex address digits ∧
    Text.Numeral.maxDigits < digits.length ∧ fault = .numeralTooLong digits.length

section Addresses

/-- Only too many digits keep an index from being read. -/
theorem indexNumber_eq_error {digits : List Nat} {fault : Fault}
    (h : indexNumber digits = .error fault) :
    Text.Numeral.maxDigits < digits.length ∧ fault = .numeralTooLong digits.length := by
  unfold indexNumber Text.Numeral.convert at h
  by_cases long : digits.length > Text.Numeral.maxDigits
  · rw [if_pos long] at h
    cases h
    exact ⟨long, rfl⟩
  · rw [if_neg long] at h
    cases h

/-- Only an index stops a path. -/
theorem Json.exists_of_follow_eq_error {position : Position} {value : Json}
    {path : List (List Char)} {fault : Fault}
    (h : Json.follow position value path = .error fault) :
    ∃ segment ∈ path, ∃ name digits, Segment.ofText segment = some ⟨name, some digits⟩ ∧
      indexNumber digits = .error fault := by
  induction path generalizing position value with
  | nil =>
    unfold Json.follow at h
    split at h <;> cases h
  | cons text rest ih =>
    have later : ∀ {position' value'}, Json.follow position' value' rest = .error fault →
        ∃ segment ∈ text :: rest, ∃ name digits,
          Segment.ofText segment = some ⟨name, some digits⟩ ∧ indexNumber digits = .error fault := by
      intro position' value' stopped
      obtain ⟨segment, mem, found⟩ := ih stopped
      exact ⟨segment, List.mem_cons_of_mem _ mem, found⟩
    unfold Json.follow at h
    split at h
    · exact later h
    · next name digits _ read =>
      cases index : indexNumber digits with
      | error other =>
        rw [index] at h
        cases h
        exact ⟨text, List.mem_cons_self, name, digits, read, index⟩
      | ok index' =>
        simp only [index, ok_bind] at h
        split at h
        · split at h
          · exact later h
          · cases h
        · cases h
    · cases h

/-- Only an address that is no text, or an index with too many digits, stops the binding. -/
theorem Planting.isOverlong_of_nodeAt {p : Planting} {imported : Imported} {fields : Fields}
    {address : String} (refers : String → Prop) (good : refers address) {fault : Fault}
    (h : p.nodeAt imported fields (.str address) = .error fault) : fault.IsOverlong refers := by
  unfold nodeAt at h
  dsimp only at h
  split at h
  · cases followed : Json.follow [] (.obj fields)
      (segments ((address.toList.dropWhile (· != '#')).drop 1)) with
    | ok position =>
      rw [followed] at h
      cases h
    | error other =>
      rw [followed] at h
      cases h
      obtain ⟨segment, mem, name, digits, read, long⟩ := Json.exists_of_follow_eq_error followed
      obtain ⟨more, rfl⟩ := indexNumber_eq_error long
      exact ⟨address, digits, good, .inl ⟨segment, mem, name, read⟩, more, rfl⟩
  · unfold Model.outsideNode at h
    split at h
    · cases h
    · split at h
      · cases h
      · next list digits read =>
        cases index : indexNumber digits with
        | ok index' =>
          simp only [index, ok_bind] at h
          cases h
        | error other =>
          simp only [index, error_bind] at h
          cases h
          obtain ⟨more, rfl⟩ := indexNumber_eq_error index
          exact ⟨address, digits, good, .inr ⟨list, read⟩, more, rfl⟩

/-- Linking a document stops only by the fault of one of its addresses. -/
theorem Document.exists_of_link_eq_error {document : Document} {fields : Fields}
    {imported : Imported} {model : Model} {fault : Fault}
    (h : document.link fields imported model = .error fault) :
    ∃ reference ∈ document.rules.flatMap Rule.references, ∃ address ∈ reference.address,
      document.leadsTo fields imported model address = .error fault := by
  set p := (document.plant model (imported.map Prod.snd)).1 with planted
  have stopped : p.bindAll imported fields p.model p.pending = .error fault := by
    rw [link_eq] at h
    cases bound : p.bindAll imported fields p.model p.pending with
    | error other =>
      rw [bound, error_bind, Except.error.injEq] at h
      rw [h]
    | ok linked =>
      rw [bound] at h
      cases h
  have faulty : ∃ entry ∈ p.pending, ∃ fault, p.nodeAt imported fields entry.2 = .error fault := by
    by_contra none
    push Not at none
    obtain ⟨m', bound⟩ := @Planting.exists_bindAll_eq_ok p imported fields p.model p.pending
      fun entry mem => by
        cases led : p.nodeAt imported fields entry.2 with
        | ok found => exact ⟨found, rfl⟩
        | error other => exact absurd led (none entry mem other)
    rw [bound] at stopped
    cases stopped
  obtain ⟨entry, mem, other, led, bound⟩ :=
    Planting.exists_bindAll_eq_error (m := p.model) faulty
  rw [stopped, Except.error.injEq] at bound
  subst bound
  have noted : entry.2 ∈ p.addresses := List.mem_map_of_mem mem
  rw [planted, Document.addresses_plant, List.mem_filterMap] at noted
  obtain ⟨reference, inside, written⟩ := noted
  exact ⟨reference, inside, entry.2, written, led⟩

end Addresses

/-- The name that a diagram may take from what a reference leads to is a text. -/
def Face.IsTyped (face : Face) : Prop := face.Names Json.IsText

/-- What a grammar shows is typed: its document, and what its references lead to. -/
structure View.IsTyped (refers : String → Prop) (view : View) : Prop where
  document : view.document.IsTyped refers
  faces : ∀ reference, (view.face reference).IsTyped

namespace Document.IsTyped

variable {refers : String → Prop} {document : Document}

/-- A rule of a typed document has a typed face. -/
theorem face_rule (h : document.IsTyped refers) {rule : Rule} (mem : rule ∈ document.rules) :
    rule.face.IsTyped := by
  have name := (h.rules rule mem).name
  cases rule <;> exact name

/-- A declaration of a typed document has a typed face. -/
theorem face_declaration (h : document.IsTyped refers) {declaration : Declaration}
    (mem : declaration ∈ document.interfaces ++ document.types) : declaration.face.IsTyped :=
  h.declarations declaration mem

/-- What stands at a position of a typed document has a typed face. -/
theorem faceAt (h : document.IsTyped refers) (position : Position) :
    (document.faceAt position).IsTyped := by
  have declarations : ∀ {field : String} {list : List Declaration} {entry : Position × Face},
      list ⊆ document.interfaces ++ document.types →
      entry ∈ facesOfEach declarationFaces field 0 list → entry.2.IsTyped := by
    intro field list entry sub mem
    obtain ⟨declaration, inside, at', here⟩ := exists_of_mem_facesOfEach mem
    rw [declarationFaces, List.mem_singleton] at here
    exact here ▸ h.face_declaration (sub inside)
  rw [Document.faceAt]
  cases found : document.faces.find? (·.1 == position) with
  | none => trivial
  | some entry =>
    rcases List.mem_append.mp (List.mem_of_find?_eq_some found) with inRules | inOthers
    · obtain ⟨rule, inside, at', here⟩ := exists_of_mem_facesOfEach inRules
      have own := h.face_rule inside
      unfold Rule.faces at here
      split at here
      · rcases List.mem_append.mp here with below | here
        · obtain ⟨spot, -, rfl⟩ := List.mem_map.mp below
          trivial
        · exact List.mem_singleton.mp here ▸ own
      · exact List.mem_singleton.mp here ▸ own
    · rcases List.mem_append.mp inOthers with here | here
      · exact declarations (List.subset_append_left _ _) here
      · exact declarations (List.subset_append_right _ _) here

/-- What a path from another document leads to in a typed document has a typed face. -/
theorem face_listed (h : document.IsTyped refers) (list : String) (index : Nat) :
    ((document.listed list)[index]?.getD .nowhere).IsTyped := by
  have declared : ∀ kind, ∀ face ∈ (document.declared kind).map Declaration.face, face.IsTyped := by
    intro kind face mem
    obtain ⟨declaration, inside, rfl⟩ := List.mem_map.mp mem
    exact h.face_declaration (List.mem_filter.mp inside).1
  have each : ∀ face ∈ document.listed list, face.IsTyped := by
    intro face mem
    unfold Document.listed at mem
    split at mem
    · obtain ⟨rule, inside, rfl⟩ := List.mem_map.mp mem
      exact h.face_rule inside
    · split at mem
      · exact declared _ face mem
      · exact declared _ face mem
  cases found : (document.listed list)[index]? with
  | none => trivial
  | some face => exact each face (List.mem_of_getElem? found)

/-- What the references of a typed document lead to has typed faces when the documents that it
imports are typed. -/
theorem face (h : document.IsTyped refers) {fields : Fields} {imported : ImportedDocuments}
    (others : ∀ other ∈ imported.map Prod.snd, other.IsTyped refers) (reference : Reference) :
    (document.face fields imported reference).IsTyped := by
  unfold Document.face
  cases reference.address with
  | none => trivial
  | some address =>
    rw [Option.bind_some]
    cases led : document.faceOf fields imported address with
    | error fault => trivial
    | ok f =>
      show f.IsTyped
      unfold Document.faceOf at led
      split at led
      · next text =>
        dsimp only at led
        split at led
        · obtain ⟨position, -, rfl⟩ := map_eq_ok.mp led
          cases position with
          | none => trivial
          | some position => exact h.faceAt position
        · unfold outsideFace at led
          split at led
          · cases led
            trivial
          · next other found =>
            split at led
            · cases led
              trivial
            · obtain ⟨index, -, same⟩ := bind_eq_ok.mp led
              cases same
              exact (others other (mem_of_get? found)).face_listed _ _
      · cases led

end Document.IsTyped

/-- What a linked document shows is typed when the document and all that it imports are. -/
theorem View.isTyped_linkedView {refers : String → Prop} {views : NodeId → View}
    {document : Document} {fields : Fields} {imported : Imported} (typed : document.IsTyped refers)
    (others : ∀ g ∈ imported.map Prod.snd, (views g).IsTyped refers) :
    (Model.linkedView views document fields imported).IsTyped refers where
  document := typed
  faces := typed.face fun other mem => by
    obtain ⟨entry, inside, rfl⟩ := List.mem_map.mp mem
    obtain ⟨noted, isNoted, rfl⟩ := List.mem_map.mp inside
    exact (others noted.2 (List.mem_map_of_mem isNoted)).document

end GrammarChart
