import Mathlib
import GrammarChart.Diagram.Relationship

/-!
# Remarks of a diagram

A diagram is a list of lines, each of which says one thing: that a class begins or ends, that it has
an attribute, or that two names are related. When its names are identifiers, a line says nothing else
(`Remark.text_inj`), and what the lines say one after the other is told by the whole text
(`Remark.document_inj`). Classes come before relationships and end with a line of their own, so they
are told apart (`Remark.ofDiagram_inj`).
-/

set_option autoImplicit false

namespace GrammarChart

/-- A letter, a digit or an underscore. -/
def isIdentifierCharacter (c : Char) : Bool := c.isAlphanum || c == '_'

/-- A text of letters, digits and underscores, at least one. -/
structure IsIdentifier (text : String) : Prop where
  nonempty : text.toList ≠ []
  characters : ∀ c ∈ text.toList, isIdentifierCharacter c = true

/-- An operator of an assignment. -/
def IsOperator (text : String) : Prop := text ∈ ["=", "+=", "?="]

/-- An attribute of a class. -/
structure Attribute where
  feature : String
  operator : String
  terminal : String
  deriving DecidableEq, Repr

/-- A class of a diagram. -/
structure ClassBox where
  name : String
  attributes : List Attribute
  deriving DecidableEq, Repr

/-- A relationship of a diagram. -/
structure Relationship where
  source : String
  bounds : Option Multiplicity
  arrow : Arrow
  feature : Option String
  target : String
  deriving DecidableEq, Repr

/-- The words between the ends of a relationship line. -/
def Relationship.inner (r : Relationship) : List String :=
  (r.bounds.map Multiplicity.text).toList ++ r.arrow.text ::
    (r.feature.map fun feature => "\"" ++ feature ++ "\"").toList

/-- The words of a relationship line. -/
def Relationship.words (r : Relationship) : List String :=
  r.source :: r.inner ++ [r.target]

/-- What one line of a diagram says. -/
inductive Remark where
  | opening
  | begins (name : String)
  | has (a : Attribute)
  | ends
  | relates (r : Relationship)
  | closing
  deriving DecidableEq, Repr

section Identifiers

variable {text : String}

theorem IsIdentifier.not_mem (h : IsIdentifier text) {c : Char}
    (other : isIdentifierCharacter c = false) : c ∉ text.toList := by
  intro mem
  simp [h.characters c mem] at other

theorem IsIdentifier.head?_append (h : IsIdentifier text) (rest : List Char) :
    (text.toList ++ rest).head? ≠ some '@' := by
  obtain ⟨c, others, letters⟩ := List.exists_cons_of_ne_nil h.nonempty
  rw [letters]
  rintro ⟨rfl⟩
  exact h.not_mem (by decide) (letters ▸ List.mem_cons_self)

theorem IsIdentifier.getLast?_append (h : IsIdentifier text) (before : List Char) :
    ∃ c, (before ++ text.toList).getLast? = some c ∧ isIdentifierCharacter c = true := by
  have last := List.getLast?_eq_some_getLast h.nonempty
  rw [List.getLast?_append, last]
  exact ⟨_, rfl, h.characters _ (List.mem_of_getLast? last)⟩

/-- No character of an operator can stand in an identifier, and none separates words or lines. -/
theorem IsOperator.characters (h : IsOperator text) : text.toList ≠ [] ∧
    ∀ c ∈ text.toList, isIdentifierCharacter c = false ∧ c ≠ ' ' ∧ c ≠ '\n' ∧ c ≠ '@' := by
  unfold IsOperator at h
  simp only [List.mem_cons, List.not_mem_nil, or_false] at h
  rcases h with rfl | rfl | rfl <;> simp [isIdentifierCharacter, Char.isAlphanum]

end Identifiers

/-- Where two texts go on with characters of another class, equal wholes have equal parts. -/
theorem append_inj_of_stop {p : Char → Bool} {xs ys xs' ys' : List Char}
    (all : ∀ c ∈ xs, p c = true) (stop : ∀ c ∈ ys.head?, p c = false)
    (all' : ∀ c ∈ xs', p c = true) (stop' : ∀ c ∈ ys'.head?, p c = false)
    (same : xs ++ ys = xs' ++ ys') : xs = xs' ∧ ys = ys' := by
  have taken : ∀ {xs ys : List Char}, (∀ c ∈ xs, p c = true) → (∀ c ∈ ys.head?, p c = false) →
      (xs ++ ys).takeWhile p = xs := by
    intro xs ys all stop
    rw [List.takeWhile_append_of_pos all]
    cases ys with
    | nil => simp
    | cons c rest => simp [stop c rfl]
  have first : xs = xs' := by rw [← taken all stop, same, taken all' stop']
  subst first
  exact ⟨rfl, List.append_cancel_left same⟩

namespace Attribute

/-- The names of an attribute are identifiers, and its operator is one. -/
structure IsProper (a : Attribute) : Prop where
  feature : IsIdentifier a.feature
  operator : IsOperator a.operator
  terminal : IsIdentifier a.terminal

/-- How an attribute is written. -/
def text (a : Attribute) : String := a.feature ++ a.operator ++ a.terminal

/-- The operator parts the feature from the terminal rule. -/
theorem text_inj {a b : Attribute} (ha : a.IsProper) (hb : b.IsProper) (same : a.text = b.text) :
    a = b := by
  have letters := congrArg String.toList same
  simp only [text, String.toList_append, List.append_assoc] at letters
  have stops : ∀ {c : Attribute}, c.IsProper →
      ∀ d ∈ (c.operator.toList ++ c.terminal.toList).head?, isIdentifierCharacter d = false := by
    intro c proper d mem
    obtain ⟨nonempty, all⟩ := proper.operator.characters
    rw [List.head?_append_of_ne_nil _ nonempty] at mem
    exact (all d (List.mem_of_head? mem)).1
  obtain ⟨feature, rest⟩ := append_inj_of_stop ha.feature.characters (stops ha)
    hb.feature.characters (stops hb) letters
  have others : ∀ {c : Attribute}, c.IsProper →
      (∀ d ∈ c.operator.toList, (!isIdentifierCharacter d) = true) ∧
        ∀ d ∈ c.terminal.toList.head?, (!isIdentifierCharacter d) = false := by
    intro c proper
    refine ⟨fun d mem => by simp [(proper.operator.characters.2 d mem).1], fun d mem => ?_⟩
    simp [proper.terminal.characters d (List.mem_of_head? mem)]
  obtain ⟨operator, terminal⟩ := append_inj_of_stop (p := fun d => !isIdentifierCharacter d)
    (others ha).1 (others ha).2 (others hb).1 (others hb).2 rest
  cases a
  cases b
  simp_all [String.toList_inj]

end Attribute

theorem Arrow.text_inj {a b : Arrow} (same : a.text = b.text) : a = b := by
  cases a <;> cases b <;> first | rfl | simp [Arrow.text] at same

theorem Multiplicity.text_inj {a b : Multiplicity} (same : a.text = b.text) : a = b := by
  obtain ⟨ao, am⟩ := a
  obtain ⟨bo, bm⟩ := b
  cases ao <;> cases am <;> cases bo <;> cases bm <;> first | rfl | exact absurd same (by decide)

/-- Bounds are not taken for an arrow. -/
theorem Multiplicity.text_ne_arrow (bounds : Multiplicity) (arrow : Arrow) :
    bounds.text ≠ arrow.text := by
  obtain ⟨optional, many⟩ := bounds
  cases optional <;> cases many <;> cases arrow <;> decide

namespace Relationship

/-- The names of a relationship are identifiers. -/
structure IsProper (r : Relationship) : Prop where
  source : IsIdentifier r.source
  feature : ∀ feature ∈ r.feature, IsIdentifier feature
  target : IsIdentifier r.target

/-- What follows the bounds tells the arrow, the feature and the target. -/
theorem words_after_bounds_inj {arrow arrow' : Arrow} {feature feature' : Option String}
    {target target' : String}
    (same : arrow.text :: (feature.map fun feature => "\"" ++ feature ++ "\"").toList ++ [target] =
      arrow'.text :: (feature'.map fun feature => "\"" ++ feature ++ "\"").toList ++ [target']) :
    arrow = arrow' ∧ feature = feature' ∧ target = target' := by
  simp only [List.cons_append, List.cons.injEq] at same
  refine ⟨Arrow.text_inj same.1, ?_⟩
  cases feature <;> cases feature' <;> simp_all

/-- The second word is the arrow when there are no bounds, and the bounds otherwise. -/
theorem words_inj {r s : Relationship} (same : r.words = s.words) : r = s := by
  obtain ⟨source, bounds, arrow, feature, target⟩ := r
  obtain ⟨source', bounds', arrow', feature', target'⟩ := s
  obtain ⟨rfl, same⟩ := List.cons.inj same
  have equal : bounds = bounds' ∧ arrow = arrow' ∧ feature = feature' ∧ target = target' := by
    cases bounds with
    | none =>
      cases bounds' with
      | none => exact ⟨rfl, words_after_bounds_inj same⟩
      | some bounds' => exact absurd (List.cons.inj same).1.symm (bounds'.text_ne_arrow arrow)
    | some bounds =>
      cases bounds' with
      | none => exact absurd (List.cons.inj same).1 (bounds.text_ne_arrow arrow')
      | some bounds' =>
        obtain ⟨first, rest⟩ := List.cons.inj same
        exact ⟨congrArg some (Multiplicity.text_inj first), words_after_bounds_inj rest⟩
  obtain ⟨rfl, rfl, rfl, rfl⟩ := equal
  rfl

/-- No word of a relationship line has a character that separates words or lines. -/
theorem not_mem_words {r : Relationship} (h : r.IsProper) {c : Char}
    (separates : c = ' ' ∨ c = '\n') : ∀ word ∈ r.words, c ∉ word.toList := by
  have other : isIdentifierCharacter c = false := by rcases separates with rfl | rfl <;> rfl
  have inBounds : ∀ bounds : Multiplicity, c ∉ bounds.text.toList := by
    rintro ⟨optional, many⟩
    rcases separates with rfl | rfl <;> cases optional <;> cases many <;>
      simp [Multiplicity.text, Multiplicity.lower, Multiplicity.upper]
  have inArrow : ∀ arrow : Arrow, c ∉ arrow.text.toList := by
    intro arrow
    rcases separates with rfl | rfl <;> cases arrow <;> simp [Arrow.text]
  have inFeature : ∀ feature ∈ r.feature, c ∉ ("\"" ++ feature ++ "\"").toList := by
    intro feature mem
    have proper := (h.feature feature mem).not_mem other
    rcases separates with rfl | rfl <;> simpa using proper
  intro word mem
  simp only [words, inner, List.cons_append, List.append_assoc, List.mem_cons, List.mem_append,
    Option.mem_toList, Option.map_eq_some_iff, List.not_mem_nil, or_false] at mem
  rcases mem with rfl | ⟨bounds, -, rfl⟩ | rfl | ⟨feature, given, rfl⟩ | rfl
  · exact h.source.not_mem other
  · exact inBounds bounds
  · exact inArrow r.arrow
  · exact inFeature feature given
  · exact h.target.not_mem other

/-- How a relationship is written. -/
def text (r : Relationship) : String := " ".intercalate r.words

theorem toList_text (r : Relationship) :
    r.text.toList = [' '].intercalate (r.words.map String.toList) := by
  simp [text]

/-- A relationship line is split into its words at the spaces. -/
theorem text_inj {r s : Relationship} (hr : r.IsProper) (hs : s.IsProper)
    (same : r.text = s.text) : r = s := by
  have split : ∀ {r : Relationship}, r.IsProper →
      r.text.toList.splitOn ' ' = r.words.map String.toList := by
    intro r proper
    rw [toList_text, List.splitOn_intercalate ' ']
    · intro letters mem
      obtain ⟨word, inside, rfl⟩ := List.mem_map.mp mem
      exact not_mem_words proper (.inl rfl) word inside
    · simp [words]
  have letters : r.words.map String.toList = s.words.map String.toList := by
    rw [← split hr, ← split hs, same]
  exact words_inj (List.map_injective_iff.mpr (fun _ _ => String.toList_inj.mp) letters)

/-- Every word after the first one stands after a space. -/
theorem intercalate_cons (first : List Char) (others : List (List Char)) :
    [' '].intercalate (first :: others) = first ++ others.flatMap fun word => ' ' :: word := by
  induction others generalizing first with
  | nil => simp [List.intercalate]
  | cons word rest ih => simp [List.intercalate_cons_cons, ih]

/-- A relationship line starts with its source and ends with a space and its target. -/
theorem toList_text_eq (r : Relationship) : r.text.toList = r.source.toList ++
    r.inner.flatMap (fun word => ' ' :: word.toList) ++ ' ' :: r.target.toList := by
  rw [toList_text, words, List.cons_append, List.map_cons, intercalate_cons]
  simp [List.flatMap_map]

end Relationship

namespace Remark

/-- The names in a remark are identifiers. -/
def IsProper : Remark → Prop
  | begins name => IsIdentifier name
  | has a => a.IsProper
  | relates r => r.IsProper
  | _ => True

/-- How a remark is written, apart from the end of its line. -/
def text : Remark → String
  | opening => "@startuml"
  | begins name => "class " ++ name ++ " \x7b"
  | has a => a.text
  | ends => "\x7d"
  | relates r => r.text
  | closing => "@enduml"

/-- The kind of a line: its first and its last character, and whether it has spaces. -/
def mould (letters : List Char) : Bool × Option Char × Bool :=
  (letters.head? == some '@', letters.getLast?.filter fun c => !isIdentifierCharacter c,
    letters.contains ' ')

/-- The mould of a remark. -/
def kind : Remark → Bool × Option Char × Bool
  | opening => (true, none, false)
  | begins _ => (false, some '\x7b', true)
  | has _ => (false, none, false)
  | ends => (false, some '\x7d', false)
  | relates _ => (false, none, true)
  | closing => (true, none, false)

attribute [local simp] text kind

/-- A line from one identifier to another is of a kind that depends on its spaces only. -/
theorem mould_of_identifiers {first last : String} (hf : IsIdentifier first)
    (hl : IsIdentifier last) (middle : List Char) :
    mould (first.toList ++ middle ++ last.toList) =
      (false, none, (first.toList ++ middle ++ last.toList).contains ' ') := by
  have starts := hf.head?_append (middle ++ last.toList)
  obtain ⟨c, ends, identifies⟩ := hl.getLast?_append (first.toList ++ middle)
  rw [← List.append_assoc] at starts
  rw [mould, ends, beq_eq_false_iff_ne.mpr starts, Option.filter_some, identifies]
  rfl

/-- The kind of a line can be read off it. -/
theorem mould_text {e : Remark} (h : e.IsProper) : mould e.text.toList = e.kind := by
  cases e with
  | opening | closing | ends => simp [mould, isIdentifierCharacter, Char.isAlphanum]
  | begins name =>
    have letters : (begins name).text.toList =
        "class ".toList ++ name.toList ++ [' '] ++ ['\x7b'] := by simp
    rw [letters, mould, List.getLast?_concat, kind]
    simp [isIdentifierCharacter, Char.isAlphanum]
  | has a =>
    have letters : (has a).text.toList =
        a.feature.toList ++ a.operator.toList ++ a.terminal.toList := by
      simp [Attribute.text]
    have apart : ' ' ∉ a.operator.toList := fun mem => (h.operator.characters.2 ' ' mem).2.1 rfl
    have feature : ' ' ∉ a.feature.toList := h.feature.not_mem (by decide)
    have terminal : ' ' ∉ a.terminal.toList := h.terminal.not_mem (by decide)
    rw [letters, mould_of_identifiers h.feature h.terminal, kind]
    simp [apart, feature, terminal]
  | relates r =>
    have letters : (relates r).text.toList = r.source.toList ++
        (r.inner.flatMap (fun word => ' ' :: word.toList) ++ [' ']) ++ r.target.toList := by
      simp [r.toList_text_eq]
    rw [letters, mould_of_identifiers h.source h.target, kind]
    simp

/-- What a line says can be read off it. -/
theorem text_inj {e f : Remark} (he : e.IsProper) (hf : f.IsProper) (same : e.text = f.text) :
    e = f := by
  have kinds : e.kind = f.kind := by rw [← mould_text he, ← mould_text hf, same]
  cases e with
  | opening =>
    cases f with
    | opening => rfl
    | closing => simp at same
    | _ => simp at kinds
  | closing =>
    cases f with
    | closing => rfl
    | opening => simp at same
    | _ => simp at kinds
  | begins name =>
    cases f with
    | begins name' => simpa using same
    | _ => simp at kinds
  | has a =>
    cases f with
    | has b => exact congrArg has (Attribute.text_inj he hf same)
    | _ => simp at kinds
  | ends =>
    cases f with
    | ends => rfl
    | _ => simp at kinds
  | relates r =>
    cases f with
    | relates s => exact congrArg relates (Relationship.text_inj he hf same)
    | _ => simp at kinds

/-- A remark is written within one line. -/
theorem newline_not_mem {e : Remark} (h : e.IsProper) : '\n' ∉ e.text.toList := by
  cases e with
  | opening | closing | ends => simp
  | begins name =>
    have own : '\n' ∉ name.toList := IsIdentifier.not_mem h (by decide)
    simpa using own
  | has a =>
    have apart : '\n' ∉ a.operator.toList :=
      fun mem => (h.operator.characters.2 '\n' mem).2.2.1 rfl
    have feature : '\n' ∉ a.feature.toList := h.feature.not_mem (by decide)
    have terminal : '\n' ∉ a.terminal.toList := h.terminal.not_mem (by decide)
    simp [Attribute.text, apart, feature, terminal]
  | relates r =>
    have source : '\n' ∉ r.source.toList := h.source.not_mem (by decide)
    have target : '\n' ∉ r.target.toList := h.target.not_mem (by decide)
    have inner : ∀ word ∈ r.inner, '\n' ∉ word.toList := fun word mem =>
      Relationship.not_mem_words h (.inr rfl) word (by simp [Relationship.words, mem])
    simpa [r.toList_text_eq, source, target] using inner

/-- Only a remark that begins a class is written like one. -/
theorem eq_begins_of_text {e : Remark} (h : e.IsProper) {name : String}
    (same : e.text = (begins name).text) : e = begins name := by
  have kinds : e.kind = (begins name).kind := by
    rw [← mould_text h, same]
    have letters : (begins name).text.toList =
        "class ".toList ++ name.toList ++ [' '] ++ ['\x7b'] := by simp
    rw [letters, mould, List.getLast?_concat, kind]
    simp [isIdentifierCharacter, Char.isAlphanum]
  cases e with
  | begins other => simpa using same
  | _ => simp at kinds

/-- The text of remarks, each on a line of its own. -/
def document (remarks : List Remark) : String :=
  String.join (remarks.map fun e => e.text ++ "\n")

/-- The lines of a document are those of its remarks, and an empty one after the last. -/
theorem lines_document {remarks : List Remark} (proper : ∀ e ∈ remarks, e.IsProper) :
    (document remarks).toList.splitOn '\n' = remarks.map (fun e => e.text.toList) ++ [[]] := by
  induction remarks with
  | nil => simp [document]
  | cons e rest ih =>
    rw [List.forall_mem_cons] at proper
    have letters : (document (e :: rest)).toList =
        e.text.toList ++ '\n' :: (document rest).toList := by
      simp [document]
    rw [letters, List.splitOn_append_cons_self_of_not_mem (newline_not_mem proper.1), ih proper.2]
    rfl

/-- The lines of a document that are written like the beginning of a class are those of the remarks
that begin it. -/
theorem count_lines {remarks : List Remark} (proper : ∀ e ∈ remarks, e.IsProper) (name : String) :
    ((document remarks).toList.splitOn '\n').count ("class " ++ name ++ " \x7b").toList =
      remarks.count (begins name) := by
  rw [lines_document proper, List.count_append, List.count_singleton,
    if_neg (by simp), Nat.add_zero]
  induction remarks with
  | nil => rfl
  | cons e rest ih =>
    rw [List.forall_mem_cons] at proper
    have same : e.text.toList = ("class " ++ name ++ " \x7b").toList ↔ e = begins name :=
      ⟨fun h => eq_begins_of_text proper.1 (String.toList_inj.mp h), fun h => by rw [h]; rfl⟩
    simp only [List.map_cons, List.count_cons, ih proper.2, beq_iff_eq, same]

/-- What the lines of a document say can be read off it. -/
theorem document_inj {remarks others : List Remark} (proper : ∀ e ∈ remarks, e.IsProper)
    (proper' : ∀ e ∈ others, e.IsProper) (same : document remarks = document others) :
    remarks = others := by
  have lines := lines_document proper
  rw [same, lines_document proper'] at lines
  have texts := List.append_cancel_right lines
  clear same lines
  induction remarks generalizing others with
  | nil => cases others <;> simp_all
  | cons e rest ih =>
    cases others with
    | nil => simp at texts
    | cons f rest' =>
      rw [List.forall_mem_cons] at proper proper'
      obtain ⟨first, later⟩ := List.cons.inj texts
      rw [text_inj proper'.1 proper.1 (String.toList_inj.mp first), ih proper.2 proper'.2 later]

end Remark

namespace ClassBox

/-- The names in a class are identifiers, and the operators of its attributes are ones. -/
structure IsProper (c : ClassBox) : Prop where
  name : IsIdentifier c.name
  attributes : ∀ a ∈ c.attributes, a.IsProper

/-- What the lines of a class say. -/
def remarks (c : ClassBox) : List Remark :=
  .begins c.name :: c.attributes.map .has ++ [.ends]

/-- The end of a class parts its attributes from what follows. -/
theorem attributes_inj {as bs : List Attribute} {rest rest' : List Remark}
    (same : as.map Remark.has ++ .ends :: rest = bs.map Remark.has ++ .ends :: rest') :
    as = bs ∧ rest = rest' := by
  induction as generalizing bs with
  | nil => cases bs <;> simp_all
  | cons a as ih =>
    cases bs with
    | nil => simp at same
    | cons b bs =>
      simp only [List.map_cons, List.cons_append, List.cons.injEq, Remark.has.injEq] at same
      obtain ⟨rfl, later⟩ := same
      obtain ⟨rfl, same⟩ := ih later
      exact ⟨rfl, same⟩

/-- Classes are told from each other and from the relationships after them. -/
theorem remarks_inj {cs ds : List ClassBox} {rs ss : List Relationship}
    (same : cs.flatMap remarks ++ rs.map .relates = ds.flatMap remarks ++ ss.map .relates) :
    cs = ds ∧ rs = ss := by
  have noClass : ∀ {c : ClassBox} {cs : List ClassBox} {rs ss : List Relationship},
      (c :: cs).flatMap remarks ++ rs.map .relates ≠ ss.map .relates := by
    intro c cs rs ss
    cases ss <;> simp [remarks]
  induction cs generalizing ds with
  | nil =>
    cases ds with
    | nil =>
      refine ⟨rfl, List.map_injective_iff.mpr (fun r s same => ?_) same⟩
      exact Remark.relates.inj same
    | cons d ds => exact absurd same.symm noClass
  | cons c cs ih =>
    cases ds with
    | nil => exact absurd same noClass
    | cons d ds =>
      obtain ⟨name, attributes⟩ := c
      obtain ⟨name', attributes'⟩ := d
      simp only [List.flatMap_cons, remarks, List.cons_append, List.append_assoc, List.nil_append,
        List.cons.injEq, Remark.begins.injEq] at same
      obtain ⟨rfl, same⟩ := same
      obtain ⟨rfl, rest⟩ := attributes_inj same
      obtain ⟨rfl, rfl⟩ := ih rest
      exact ⟨rfl, rfl⟩

end ClassBox

/-- What the lines of a diagram of classes and relationships say. -/
def Remark.ofDiagram (classes : List ClassBox) (relationships : List Relationship) : List Remark :=
  .opening :: (classes.flatMap ClassBox.remarks ++ relationships.map .relates) ++ [.closing]

/-- A diagram of proper classes and relationships has proper remarks. -/
theorem Remark.isProper_ofDiagram {classes : List ClassBox} {relationships : List Relationship}
    (hc : ∀ c ∈ classes, c.IsProper) (hr : ∀ r ∈ relationships, r.IsProper) :
    ∀ e ∈ Remark.ofDiagram classes relationships, e.IsProper := by
  have inClass : ∀ c ∈ classes, ∀ e ∈ c.remarks, e.IsProper := by
    intro c mem e inside
    simp only [ClassBox.remarks, List.cons_append, List.mem_cons, List.mem_append, List.mem_map,
      List.not_mem_nil, or_false] at inside
    rcases inside with rfl | ⟨a, ha, rfl⟩ | rfl
    · exact (hc c mem).name
    · exact (hc c mem).attributes a ha
    · trivial
  intro e mem
  simp only [ofDiagram, List.cons_append, List.mem_cons, List.mem_append, List.mem_flatMap,
    List.mem_map, List.not_mem_nil, or_false] at mem
  rcases mem with rfl | (⟨c, hc', inside⟩ | ⟨r, hr', rfl⟩) | rfl
  · trivial
  · exact inClass c hc' e inside
  · exact hr r hr'
  · trivial

/-- A diagram begins a class as often as it has classes of that name. -/
theorem Remark.count_begins (classes : List ClassBox) (relationships : List Relationship)
    (name : String) : (Remark.ofDiagram classes relationships).count (.begins name) =
      (classes.map ClassBox.name).count name := by
  have noAttribute : ∀ as : List Attribute, (as.map has).count (.begins name) = 0 :=
    fun as => List.count_eq_zero.mpr (by simp)
  have noRelationship : (relationships.map relates).count (.begins name) = 0 :=
    List.count_eq_zero.mpr (by simp)
  have each : (classes.flatMap ClassBox.remarks).count (.begins name) =
      (classes.map ClassBox.name).count name := by
    induction classes with
    | nil => rfl
    | cons c rest ih =>
      rw [List.flatMap_cons, List.count_append, ih, ClassBox.remarks, List.map_cons]
      simp [List.count_cons, List.count_append, noAttribute, Nat.add_comm]
  simp [ofDiagram, List.count_append, noRelationship, each]

/-- The text of a diagram tells its classes and its relationships. -/
theorem Remark.ofDiagram_inj {cs ds : List ClassBox} {rs ss : List Relationship}
    (hc : ∀ c ∈ cs, c.IsProper) (hr : ∀ r ∈ rs, r.IsProper) (hd : ∀ d ∈ ds, d.IsProper)
    (hs : ∀ s ∈ ss, s.IsProper)
    (same : Remark.document (ofDiagram cs rs) = Remark.document (ofDiagram ds ss)) :
    cs = ds ∧ rs = ss := by
  have remarks := document_inj (isProper_ofDiagram hc hr) (isProper_ofDiagram hd hs) same
  exact ClassBox.remarks_inj (List.append_cancel_right (List.cons.inj remarks).2)

end GrammarChart
