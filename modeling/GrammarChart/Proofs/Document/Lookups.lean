import GrammarChart.Proofs.Document.Imports
import GrammarChart.Proofs.Document.Places
import GrammarChart.Proofs.Document.Runs
import GrammarChart.Proofs.Document.Shown

/-!
# Lookups in the own document and in another one

An item of a list of a document can be named from inside the document and from a document that
imports it. Inside, the address is followed through the written value, and the place that it leads
to is looked up (`Document.IsLinked.leadsTo_own`); from outside, the lists of the built grammar are
indexed, with the interfaces and the types told apart by their kind
(`Document.IsLinked.leadsTo_other`). Both find the entry of the list with that index
(`Document.entries`), as long as the lists hold what their names say
(`Document.AreEntries.indexedNodes_eq`). Loaders leave what was loaded as it is, up to the names of
grammars (`Loader.keepsModel_loadAttachedTo`, `Loader.keepsModel_loadFileTo`), so that the other
document may be linked at any later time.
-/

set_option autoImplicit false

namespace GrammarChart

/-- The text spells an index with decimal digits, not more than are converted. -/
structure IsIndex (text : String) (index : Nat) : Prop where
  nonempty : text.toList ≠ []
  digits : ∀ c ∈ text.toList, Text.isDigit c = true
  short : text.toList.length ≤ Text.Numeral.maxDigits
  spells : Text.Numeral.ofDigits (text.toList.filterMap Text.digitValue?) = index

/-- The address of an item of a list of a document. An empty name stands for the own document. -/
def itemAddress (name list index : String) : String :=
  name ++ "#/" ++ list ++ "@" ++ index

/-- The path behind the hash mark of such an address. -/
def itemPath (list index : String) : List Char :=
  '/' :: (list.toList ++ '@' :: index.toList)

/-- Three lists have items that an address can name. -/
theorem mem_indexedLists {list : String} :
    list ∈ indexedLists ↔ list = "rules" ∨ list = "interfaces" ∨ list = "types" := by
  simp [indexedLists]

namespace IsIndex

variable {text : String} {index : Nat}

/-- The numeral of a number spells it, unless it is overlong. -/
theorem of_number (short : ¬ Text.Numeral.IsOverlong index) : IsIndex (toString index) index := by
  have numeral : (toString index).toList = Nat.toDigits 10 index := by simp
  have read := indexNumber_indexDigits index
  rw [if_neg short, GrammarChart.indexNumber, Text.Numeral.convert, length_indexDigits] at read
  refine ⟨?_, ?_, ?_, ?_⟩
  · rw [numeral]
    exact Nat.toDigits_ne_nil
  · rw [numeral]
    exact fun c mem => Text.isDigit_of_mem_toDigits mem
  · rw [numeral]
    by_contra long
    rw [if_pos (Nat.not_le.mp long)] at read
    cases read
  · rw [numeral]
    exact ofDigits_indexDigits index

/-- The digits of an index are read. -/
theorem indexOf (h : IsIndex text index) :
    Segment.indexOf text.toList = some (text.toList.filterMap Text.digitValue?) := by
  unfold Segment.indexOf
  rw [List.takeWhile_eq_self_iff.mpr h.digits, List.dropWhile_eq_nil_iff.mpr h.digits]
  simp [h.nonempty, Segment.isEnd]

/-- The digits of an index are converted. -/
theorem indexNumber (h : IsIndex text index) :
    indexNumber (text.toList.filterMap Text.digitValue?) = .ok index := by
  have short : (text.toList.filterMap Text.digitValue?).length ≤ Text.Numeral.maxDigits :=
    (List.length_filterMap_le _ _).trans h.short
  rw [GrammarChart.indexNumber, Text.Numeral.convert, if_neg (Nat.not_lt.mpr short), h.spells]

/-- No slash is a digit. -/
theorem slash_not_mem (h : IsIndex text index) : '/' ∉ text.toList := by
  intro mem
  have digit := h.digits '/' mem
  revert digit
  decide

/-- The segment of an item is read as its list and the digits of its index. -/
theorem ofText_segment (h : IsIndex text index) {list : String} (listed : list ∈ indexedLists) :
    Segment.ofText (list.toList ++ '@' :: text.toList) =
      some ⟨list.toList, some (text.toList.filterMap Text.digitValue?)⟩ := by
  have words : ∀ list ∈ indexedLists, list.toList.all Text.isWordCharacter = true ∧
      list.toList.isEmpty = false := by decide
  obtain ⟨word, named⟩ := words list listed
  rw [List.all_eq_true] at word
  have sign : Text.isWordCharacter '@' = false := by decide
  unfold Segment.ofText
  rw [List.takeWhile_append_of_pos word, List.dropWhile_append_of_pos word]
  simp only [List.takeWhile_cons, List.dropWhile_cons, sign]
  simp [named, Segment.isEnd, h.indexOf]

/-- The path to an item has one segment. -/
theorem segments_itemPath (h : IsIndex text index) {list : String} (listed : list ∈ indexedLists) :
    segments (itemPath list text) = [list.toList ++ '@' :: text.toList] := by
  have plain : ∀ list ∈ indexedLists, '/' ∉ list.toList := by decide
  have whole : '/' ∉ list.toList ++ '@' :: text.toList := by
    simp [plain list listed, h.slash_not_mem]
  have split : (itemPath list text).splitOn '/' = [[], list.toList ++ '@' :: text.toList] := by
    have first := List.splitOn_append_cons_self_of_not_mem (List.not_mem_nil (a := '/'))
      (list.toList ++ '@' :: text.toList)
    rw [List.nil_append, List.splitOn_eq_singleton whole] at first
    exact first
  rw [segments, split]
  simp

/-- A path to an item is read in another document. -/
theorem outsidePath?_itemPath (h : IsIndex text index) {list : String}
    (listed : list ∈ indexedLists) : outsidePath? (itemPath list text) =
      some (list, text.toList.filterMap Text.digitValue?) := by
  rcases mem_indexedLists.mp listed with rfl | rfl | rfl <;>
    simp [outsidePath?, indexedLists, itemPath, h.indexOf]

/-- A path to an item leads from an object to the item, where the list has objects only and is long
enough. -/
theorem follow_itemPath (h : IsIndex text index) {list : String} (listed : list ∈ indexedLists)
    {fields : Fields} {items : List Json} (given : Document.itemsOf fields list = .ok items)
    (objects : ∀ item ∈ items, ∃ inner, item = .obj inner) :
    Json.follow [] (.obj fields) (segments (itemPath list text)) =
      .ok (if index < items.length then some [.field list, .item index] else none) := by
  -- Only a list has items that are objects; of another value there are none.
  have written : (∃ value, fields.getD list .null = value ∧ ∀ all, value ≠ .arr all) ∧ items = [] ∨
      fields.getD list .null = .arr items := by
    rw [Document.itemsOf, Fields.getD] at given
    rw [Fields.getD]
    cases found : fields.get? list with
    | none =>
      rw [found] at given
      cases given
      exact .inl ⟨⟨.null, rfl, by simp⟩, rfl⟩
    | some value =>
      rw [found, Option.getD_some] at given
      cases value with
      | arr all =>
        cases given
        exact .inr rfl
      | obj inner =>
        cases given
        cases inner with
        | nil => exact .inl ⟨⟨.obj [], rfl, by simp⟩, rfl⟩
        | cons field rest => simp at objects
      | str characters =>
        cases given
        cases spelled : characters.toList with
        | nil => exact .inl ⟨⟨.str characters, rfl, by simp⟩, rfl⟩
        | cons c rest => simp [spelled] at objects
      | _ => cases given
  rw [h.segments_itemPath listed]
  unfold Json.follow
  rw [h.ofText_segment listed]
  simp only [h.indexNumber, ok_bind, String.ofList_toList]
  rcases written with ⟨⟨value, isValue, other⟩, rfl⟩ | isList
  · rw [isValue]
    cases value <;> first | rfl | exact absurd rfl (other _)
  · rw [isList]
    by_cases within : index < items.length
    · obtain ⟨inner, isObject⟩ := objects _ (List.getElem_mem within)
      simp only [List.getElem?_eq_getElem within, isObject, if_pos within]
      rfl
    · simp only [List.getElem?_eq_none (Nat.le_of_not_lt within), if_neg within]
      rfl

end IsIndex

/-- Where only objects can be read, what is read item by item is as long as what is written, which
are objects. -/
theorem objects_of_mapM {α : Type} {read : Json → Except Fault α}
    (only : ∀ value a, read value = .ok a → ∃ fields, value = .obj fields) {items : List Json}
    {made : List α} (h : items.mapM read = .ok made) :
    items.length = made.length ∧ ∀ item ∈ items, ∃ fields, item = .obj fields := by
  refine ⟨(forall₂_of_mapM h).length_eq, fun item mem => ?_⟩
  obtain ⟨a, -, read⟩ := exists_of_mapM h mem
  exact only item a read

/-- A rule is read from an object. -/
theorem Rule.isObject_of_ofJson (value : Json) (rule : Rule) (h : Rule.ofJson value = .ok rule) :
    ∃ fields, value = .obj fields := by
  obtain ⟨fields, given, -⟩ := bind_eq_ok.mp h
  cases value <;> first | exact ⟨_, rfl⟩ | cases given

/-- A declaration is read from an object. -/
theorem Declaration.isObject_of_ofJson (value : Json) (declaration : Declaration)
    (h : Declaration.ofJson value = .ok declaration) : ∃ fields, value = .obj fields := by
  cases value <;> first | exact ⟨_, rfl⟩ | cases h

namespace Document

variable {document : Document} {fields : Fields} {imported : Imported} {model model' : Model}
  {id : NodeId} {list text : String} {index : Nat}

/-- The number of entries in a list of a document. -/
def count (document : Document) (list : String) : Nat :=
  if list = "rules" then document.rules.length
  else if list = "interfaces" then document.interfaces.length
  else document.types.length

/-- The nodes of a grammar in a list of its document. Of the declared types, the interfaces of the
document come first. -/
def entries (document : Document) (grammar : Grammar) (list : String) : List NodeId :=
  if list = "rules" then Model.nodesIn grammar.rules
  else if list = "interfaces" then (Model.nodesIn grammar.types).take document.interfaces.length
  else (Model.nodesIn grammar.types).drop document.interfaces.length

/-- The lists of a document that was read are written as objects. -/
theorem exists_items (read : Document.ofFields fields = .ok document)
    (listed : list ∈ indexedLists) : ∃ items, Document.itemsOf fields list = .ok items ∧
      items.length = document.count list ∧ ∀ item ∈ items, ∃ inner, item = .obj inner := by
  unfold Document.ofFields at read
  simp only [bind_eq_ok] at read
  obtain ⟨ruleItems, hasRules, rules, rulesRead, interfaceItems, hasInterfaces, typeItems, hasTypes,
    interfaces, interfacesRead, types, typesRead, _, -, _, -, last⟩ := read
  cases last
  rcases mem_indexedLists.mp listed with rfl | rfl | rfl
  · exact ⟨ruleItems, hasRules, objects_of_mapM Rule.isObject_of_ofJson rulesRead⟩
  · exact ⟨interfaceItems, hasInterfaces,
      objects_of_mapM Declaration.isObject_of_ofJson interfacesRead⟩
  · exact ⟨typeItems, hasTypes, objects_of_mapM Declaration.isObject_of_ofJson typesRead⟩

/-- The entries of a document stand in a grammar: its rules and, with the interfaces first, its
declarations. -/
structure AreEntries (document : Document) (m : Model) (grammar : Grammar) : Prop where
  rules : document.rules.length = (Model.nodesIn grammar.rules).length
  declared : List.Forall₂ (fun (d : Declaration) node =>
    m.shape? node = some (.typeDeclaration (.value d.name) (.value d.kind)))
    (document.interfaces ++ document.types) (Model.nodesIn grammar.types)

/-- The entries of a linked document stand in its grammar. -/
theorem IsLinked.exists_areEntries (linked : document.IsLinked fields imported model model' id) :
    ∃ grammar, model'.grammar? id = some grammar ∧ document.AreEntries model' grammar := by
  obtain ⟨rules, interfaces, types, diagnostics, isGrammar, standRules, standInterfaces,
    standTypes, -⟩ := linked.stands
  refine ⟨_, isGrammar, ?_, ?_⟩
  · rw [Model.nodesIn_ofNodes]
    exact standRules.length_eq
  · rw [Model.nodesIn_ofNodes]
    exact List.rel_append standInterfaces standTypes

namespace AreEntries

variable {m m' : Model} {grammar : Grammar}

/-- The entries keep standing in models that go on. -/
theorem later (h : document.AreEntries m grammar) (extension : m.Extends m') :
    document.AreEntries m' grammar where
  rules := h.rules
  declared := h.declared.imp fun d node stands => by
    obtain ⟨found, isNode, shape⟩ := Option.map_eq_some_iff.mp stands
    have has : m.Has node found.shape found.cardinality := ⟨found, isNode, rfl, rfl⟩
    have settled : found.shape.isSettled = true := by rw [shape]; rfl
    rw [(extension node _ _ settled has).1.shape?, shape]

/-- There are as many entries as the document has. -/
theorem length_entries (h : document.AreEntries m grammar) :
    (document.entries grammar list).length = document.count list := by
  have declared := h.declared.length_eq
  rw [List.length_append] at declared
  unfold entries count
  split
  · exact h.rules.symm
  · split
    · rw [List.length_take]
      omega
    · rw [List.length_drop]
      omega

/-- Where all interfaces are interfaces and all types are types, a list of the grammar holds the
entries of the list of the document. -/
theorem indexedNodes_eq (h : document.AreEntries m grammar)
    (interfaces : ∀ d ∈ document.interfaces, d.kind = .str "Interface")
    (types : ∀ d ∈ document.types, d.kind = .str "Type") :
    m.indexedNodes grammar list = document.entries grammar list := by
  have first := List.forall₂_take document.interfaces.length h.declared
  have second := List.forall₂_drop document.interfaces.length h.declared
  rw [List.take_left] at first
  rw [List.drop_left] at second
  -- The kind that a node is asked for is that of its declaration.
  have kindOf : ∀ {d : Declaration} {node : NodeId} {own : String}, d.kind = .str own →
      m.shape? node = some (.typeDeclaration (.value d.name) (.value d.kind)) →
      ∀ kind, m.isTypeOfKind kind node = (own == kind) := by
    intro d node own tagged stands kind
    rw [Model.isTypeOfKind, stands, tagged]
    rfl
  have kinds : ∀ {own : String} {ds : List Declaration} {nodes : List NodeId},
      (∀ d ∈ ds, d.kind = .str own) → List.Forall₂ (fun (d : Declaration) node =>
        m.shape? node = some (.typeDeclaration (.value d.name) (.value d.kind))) ds nodes →
      ∀ node ∈ nodes, ∀ kind, m.isTypeOfKind kind node = (own == kind) := by
    intro own ds nodes tagged stand
    induction stand with
    | nil => simp
    | cons here _ ih =>
      rw [List.forall_mem_cons] at tagged
      exact List.forall_mem_cons.mpr ⟨kindOf tagged.1 here, ih tagged.2⟩
  have isInterface := kinds interfaces first
  have isType := kinds types second
  have split : ∀ p : NodeId → Bool, (Model.nodesIn grammar.types).filter p =
      ((Model.nodesIn grammar.types).take document.interfaces.length).filter p ++
        ((Model.nodesIn grammar.types).drop document.interfaces.length).filter p := by
    intro p
    rw [← List.filter_append, List.take_append_drop]
  unfold Model.indexedNodes entries
  rw [split, split]
  congr 2
  · rw [List.filter_eq_self.mpr fun node mem => by simp [isInterface node mem],
      List.filter_eq_nil_iff.mpr fun node mem => by simp [isType node mem], List.append_nil]
  · rw [List.filter_eq_nil_iff.mpr fun node mem => by simp [isInterface node mem],
      List.filter_eq_self.mpr fun node mem => by simp [isType node mem], List.nil_append]

end AreEntries

/-- What is noted at the position of an item is the entry of its list with its index. -/
theorem IsLinked.place?_item (linked : document.IsLinked fields imported model model' id)
    {grammar : Grammar} (isGrammar : model'.grammar? id = some grammar)
    (listed : list ∈ indexedLists) :
    (document.plant model (imported.map Prod.snd)).1.place? [.field list, .item index] =
      (document.entries grammar list)[index]? := by
  obtain ⟨planted, found, places⟩ := document.place?_stepsOf model (imported.map Prod.snd)
  rw [linked.root, linked.grammars, isGrammar, Option.some.injEq] at found
  subst found
  have place := (places model' linked.extension).1
  have last : ∀ found : Option NodeId, (found.bind fun node => model'.descend node []) = found := by
    intro found
    cases found <;> rfl
  rcases mem_indexedLists.mp listed with rfl | rfl | rfl
  · exact (place [.rules index]).trans (last _)
  · exact (place [.interfaces index]).trans (last _)
  · exact (place [.types index]).trans (last _)

/-- In the own document, the address of an item leads to the entry of its list with its index. -/
theorem IsLinked.leadsTo_own (linked : document.IsLinked fields imported model model' id)
    (read : Document.ofFields fields = .ok document) {grammar : Grammar}
    (isGrammar : model'.grammar? id = some grammar) (entries : document.AreEntries model' grammar)
    (isIndex : IsIndex text index) (listed : list ∈ indexedLists) :
    document.leadsTo fields imported model (.str (itemAddress "" list text)) =
      .ok (document.entries grammar list)[index]? := by
  obtain ⟨items, given, long, objects⟩ := exists_items read listed
  have address : (itemAddress "" list text).toList = '#' :: itemPath list text := by
    simp [itemAddress, itemPath]
  have followed := isIndex.follow_itemPath listed given objects
  rw [leadsTo, Planting.nodeAt]
  simp only [address]
  rw [if_pos (by simp)]
  simp only [List.dropWhile_cons, bne_self_eq_false, Bool.false_eq_true, if_false, List.drop_one,
    List.tail_cons, followed]
  rw [long, ← entries.length_entries]
  by_cases within : index < (document.entries grammar list).length
  · rw [if_pos within]
    exact congrArg Except.ok (linked.place?_item isGrammar listed)
  · rw [if_neg within, List.getElem?_eq_none (Nat.le_of_not_lt within)]
    rfl

/-- In a document that imports another one, the address of an item in the other one leads to the
node in the list of its grammar with the index. -/
theorem IsLinked.leadsTo_other (linked : document.IsLinked fields imported model model' id)
    {name : String} (present : name ≠ "") (whole : '#' ∉ name.toList) {g : NodeId}
    (named : imported.get? (Imported.stemOf name) = some g) {grammar : Grammar}
    (isGrammar : model'.grammar? g = some grammar) (isIndex : IsIndex text index)
    (listed : list ∈ indexedLists) :
    document.leadsTo fields imported model (.str (itemAddress name list text)) =
      .ok ((document.plant model (imported.map Prod.snd)).1.model.indexedNodes
        grammar list)[index]? := by
  have planted := (linked.grammars g).trans isGrammar
  have address : (itemAddress name list text).toList =
      name.toList ++ '#' :: itemPath list text := by
    simp [itemAddress, itemPath]
  have before : ∀ c ∈ name.toList, (c != '#') = true := by
    intro c mem
    simp only [bne_iff_ne, ne_eq]
    rintro rfl
    exact whole mem
  rw [leadsTo, Planting.nodeAt]
  simp only [address, List.takeWhile_append_of_pos before, List.dropWhile_append_of_pos before]
  rw [if_neg (by simp [present])]
  simp only [List.takeWhile_cons, List.dropWhile_cons, bne_self_eq_false, Bool.false_eq_true,
    if_false, List.append_nil, List.drop_one, List.tail_cons]
  rw [Model.outsideNode, String.ofList_toList,
    show imported.get? (FilePath.ofText name).stem = some g from named, Option.bind_some, planted]
  simp only [isIndex.outsidePath?_itemPath listed, isIndex.indexNumber, ok_bind]
  rfl

end Document

namespace Loader

section Keeping

variable {α : Type}

/-- The model goes on when the loader runs. -/
def KeepsModel (loader : Loader α) : Prop :=
  ∀ s a s', loader s = .ok (a, s') → s.model.Keeps s'.model

variable {resolve : Resolver} {tree : FileTree}

/-- The model goes on when the paths of a document are resolved one by one. -/
theorem keepsModel_resolveAll (keeps : ∀ path, KeepsModel (resolve path)) (paths : List Json) :
    KeepsModel (resolveAll resolve paths) := by
  induction paths with
  | nil =>
    rintro s found s' ⟨⟩
    exact .refl s.model
  | cons path rest ih =>
    intro s found s' run
    rcases exists_of_resolveAll_cons run with ⟨-, later⟩ | ⟨-, between, outcome⟩
    · exact ih _ _ _ later
    · rcases outcome with ⟨here, later⟩ | ⟨_, _, _, -, here, later, -⟩
      · exact (keeps path _ _ _ here).trans (ih _ _ _ later)
      · exact (keeps path _ _ _ here).trans (ih _ _ _ later)

/-- The model goes on when a document is loaded. -/
theorem keepsModel_load (keeps : ∀ path, KeepsModel (resolve path)) (value : Json) :
    KeepsModel (load resolve value) := by
  intro s id s' run
  obtain ⟨fields, found, between, document, loading⟩ := exists_isLoading run
  obtain ⟨paths, -, resolved⟩ := loading.resolved
  exact (keepsModel_resolveAll keeps paths _ _ _ resolved).trans (.of_isPrefix loading.linked.nodes)

/-- The model goes on when an attached document is found. -/
theorem keepsModel_attachedImport (attached : Fields) {loadDocument : Json → Loader NodeId}
    (keeps : ∀ value, KeepsModel (loadDocument value)) (path : Json) :
    KeepsModel (attachedImport attached loadDocument path) := by
  intro s found s' run
  cases path with
  | str path =>
    rw [attachedImport_str] at run
    cases known : s.get? path with
    | some grammar =>
      rw [known] at run
      cases run
      exact .refl s.model
    | none =>
      rw [known, Option.elim_none, attachedDocument] at run
      obtain ⟨_, noted, ⟨⟩, run⟩ := bind_eq_ok.mp run
      cases given : attached.get? path with
      | none =>
        rw [given] at run
        cases run
        exact .refl s.model
      | some value =>
        rw [given] at run
        obtain ⟨id, between, loaded, run⟩ := bind_eq_ok.mp run
        obtain ⟨_, _, ⟨⟩, run⟩ := bind_eq_ok.mp run
        cases run
        have kept : (s.note path none).model.Keeps between.model := keeps value _ _ _ loaded
        exact kept
  | arr _ | obj _ => cases run
  | _ =>
    cases run
    exact .refl s.model

/-- The model goes on when a document with attached ones is loaded. -/
theorem keepsModel_loadAttachedTo (attached : Fields) (depth : Nat) (value : Json) :
    KeepsModel (loadAttachedTo attached depth value) := by
  have none : ∀ path, KeepsModel (noImports path) := by
    rintro path s found s' ⟨⟩
    exact .refl s.model
  induction depth generalizing value with
  | zero => exact keepsModel_load none value
  | succ depth ih => exact keepsModel_load (keepsModel_attachedImport attached ih) value

/-- The model goes on when a file is loaded. -/
theorem keepsModel_loadFileTo (tree : FileTree) (depth : Nat) (location : Location) :
    KeepsModel (loadFileTo tree depth location) := by
  have file : ∀ {resolve : Resolver} (location : Location), (∀ path, KeepsModel (resolve path)) →
      KeepsModel (loadFileWith tree location resolve) := by
    intro resolve location keeps s id s' run
    obtain ⟨fields, between, -, loaded, rfl⟩ := exists_of_loadFileWith run
    have entered : s.model.Keeps (s.enterFile location fields).model := .add s.model _
    have left : between.model.Keeps (between.leaveFile location id).model := .rename _ id _ _
    exact (entered.trans (keepsModel_load keeps _ _ _ _ loaded)).trans left
  have none : ∀ path, KeepsModel (noImports path) := by
    rintro path s found s' ⟨⟩
    exact .refl s.model
  induction depth generalizing location with
  | zero => exact file location none
  | succ depth ih =>
    refine file location fun path s found s' run => ?_
    obtain ⟨text, other, rfl, -, outcome⟩ := exists_of_fileImport run
    rcases outcome with ⟨-, rfl⟩ | ⟨-, ⟨-, -, rfl⟩ | ⟨-, id, -, loaded⟩⟩
    · exact .refl _
    · exact .refl _
    · exact ih other _ _ _ loaded

end Keeping

variable {resolve resolve' : Resolver} {value value' : Json} {s s₁ s' s₂ between between' : Loaded}
  {id id' : NodeId} {fields fields' : Fields} {found found' : List (String × NodeId)}
  {document document' : Document}

/-- **The lookups agree.** A document was loaded whose interfaces and types are what their lists are
called after, and another document that imports it was linked later, with no other import of the
stem of the name. Then the address of an item of a list leads to the same node when it is looked up
inside the one document and when it is looked up, behind the name, in the other one; and it leads
nowhere exactly when the list is not longer than the index. -/
theorem lookups_agree
    (loading : IsLoading resolve value s s₁ id fields found between document)
    (interfaces : ∀ d ∈ document.interfaces, d.kind = .str "Interface")
    (types : ∀ d ∈ document.types, d.kind = .str "Type")
    (loading' : IsLoading resolve' value' s' s₂ id' fields' found' between' document')
    (later : s₁.model.Keeps between'.model) {name : String} (present : name ≠ "")
    (whole : '#' ∉ name.toList)
    (imports : ∃ entry ∈ found', entry.2 = id ∧ Imported.stemOf entry.1 = Imported.stemOf name)
    (only : ∀ entry ∈ found', Imported.stemOf entry.1 = Imported.stemOf name → entry.2 = id)
    {list : String} (listed : list ∈ indexedLists) {text : String} {index : Nat}
    (isIndex : IsIndex text index) :
    ∃ items target, Document.itemsOf fields list = .ok items ∧
      document.leadsTo fields (Imported.insertAll [] found) between.model
        (.str (itemAddress "" list text)) = .ok target ∧
      document'.leadsTo fields' (Imported.insertAll [] found') between'.model
        (.str (itemAddress name list text)) = .ok target ∧
      (target = none ↔ items.length ≤ index) := by
  obtain ⟨grammar, isGrammar, entries⟩ := loading.linked.exists_areEntries
  obtain ⟨items, given, long, -⟩ := Document.exists_items loading.read listed
  -- In the model that the other document is planted in, the grammar is the same one.
  have grows := Model.Keeps.of_isPrefix
    (document'.plant_grows between'.model ((Imported.insertAll [] found').map Prod.snd)).1.nodes
  have keeps := later.trans grows
  obtain ⟨called, path, isGrammar'⟩ := keeps.grammars id grammar isGrammar
  have entries' := entries.later keeps.extension
  have named : (Imported.insertAll [] found').get? (Imported.stemOf name) = some id := by
    obtain ⟨entry, mem, -, same⟩ := imports
    obtain ⟨last, inside, same', isNamed⟩ := Imported.exists_named mem
    rw [Imported.named, same, only last inside (same'.trans same)] at isNamed
    exact isNamed
  have own := loading.linked.leadsTo_own loading.read isGrammar entries isIndex listed
  rw [loading'.linked.grammars] at isGrammar'
  have other := loading'.linked.leadsTo_other present whole named isGrammar' isIndex listed
  have lists : (document'.plant between'.model
      ((Imported.insertAll [] found').map Prod.snd)).1.model.indexedNodes
        { grammar with name := called, path := path } list = document.entries grammar list :=
    entries'.indexedNodes_eq interfaces types
  refine ⟨items, _, given, own, lists ▸ other, ?_⟩
  rw [List.getElem?_eq_none_iff, entries.length_entries, long]

/-- A document with an entry in each list. -/
def oneOfEach : Json := .obj [
  ("rules", .arr [.obj [("$type", .str "TerminalRule"), ("name", .str "A")]]),
  ("interfaces", .arr [.obj [("$type", .str "Interface"), ("name", .str "I")]]),
  ("types", .arr [.obj [("$type", .str "Type"), ("name", .str "T")]])]

/-- The document as an attached one. -/
def attachedOne : Fields := [("lib/e.langium", oneOfEach)]

/-- A document that imports it. -/
def importingOne : Json := .obj [("imports", .arr [.obj [("path", .str "lib/e.langium")]])]

/-- The type of an imported document is found from inside and from outside. -/
theorem lookups_agree_oneOfEach :
    ∃ s s₁ s₂ id id' fields found between document fields' found' between' document',
      IsLoading noImports oneOfEach s s₁ id fields found between document ∧
      (∀ d ∈ document.interfaces, d.kind = .str "Interface") ∧
      (∀ d ∈ document.types, d.kind = .str "Type") ∧
      IsLoading (attachedImport attachedOne (loadAttachedTo attachedOne 0)) importingOne
        ⟨.empty, []⟩ s₂ id' fields' found' between' document' ∧
      s₁.model.Keeps between'.model ∧ "e" ≠ "" ∧ '#' ∉ "e".toList ∧
      (∃ entry ∈ found', entry.2 = id ∧ Imported.stemOf entry.1 = Imported.stemOf "e") ∧
      (∀ entry ∈ found', Imported.stemOf entry.1 = Imported.stemOf "e" → entry.2 = id) ∧
      "types" ∈ indexedLists ∧ IsIndex "0" 0 ∧
      ∃ items target, Document.itemsOf fields "types" = .ok items ∧
        document.leadsTo fields (Imported.insertAll [] found) between.model
          (.str (itemAddress "" "types" "0")) = .ok target ∧
        document'.leadsTo fields' (Imported.insertAll [] found') between'.model
          (.str (itemAddress "e" "types" "0")) = .ok target ∧
        (target = none ↔ items.length ≤ 0) := by
  have inner : (load noImports oneOfEach ⟨.empty, [("lib/e.langium", none)]⟩).isOk = true := by
    decide +kernel
  have outer : (load (attachedImport attachedOne (loadAttachedTo attachedOne 0)) importingOne
      ⟨.empty, []⟩).isOk = true := by decide +kernel
  have stems : Imported.stemOf "lib/e.langium" = Imported.stemOf "e" := by decide +kernel
  have short : ¬ Text.Numeral.IsOverlong 0 := Nat.not_le.mpr (Nat.pow_pos (by decide))
  have numeral : toString (0 : Nat) = "0" := by decide
  have isIndex : IsIndex "0" 0 := numeral ▸ IsIndex.of_number short
  cases run : load noImports oneOfEach ⟨.empty, [("lib/e.langium", none)]⟩ with
  | error fault =>
    rw [run] at inner
    cases inner
  | ok made =>
    obtain ⟨id, s₁⟩ := made
    cases run' : load (attachedImport attachedOne (loadAttachedTo attachedOne 0)) importingOne
        ⟨.empty, []⟩ with
    | error fault =>
      rw [run'] at outer
      cases outer
    | ok made' =>
      obtain ⟨id', s₂⟩ := made'
      obtain ⟨fields, found, between, document, loading⟩ := exists_isLoading run
      obtain ⟨fields', found', between', document', loading'⟩ := exists_isLoading run'
      have read := loading.read
      cases loading.isGrammar
      cases read
      obtain ⟨paths, isPaths, resolved⟩ := loading'.resolved
      cases loading'.isGrammar
      cases isPaths
      have first : resolveAll (attachedImport attachedOne (loadAttachedTo attachedOne 0))
          [.str "lib/e.langium"] ⟨.empty, []⟩ =
            .ok ([("lib/e.langium", id)], s₁.note "lib/e.langium" (some id)) := by
        have unmet : (⟨.empty, []⟩ : Loaded).get? "lib/e.langium" = none := rfl
        have here : attachedImport attachedOne (loadAttachedTo attachedOne 0) (.str "lib/e.langium")
            ⟨.empty, []⟩ = .ok (some id, s₁.note "lib/e.langium" (some id)) := by
          rw [attachedImport_str, unmet, Option.elim_none, attachedDocument]
          exact bind_eq_ok.mpr ⟨(), _, rfl, bind_eq_ok.mpr ⟨id, s₁, run, rfl⟩⟩
        have present : (Json.str "lib/e.langium").isPresent = true := by decide
        rw [resolveAll, if_pos present]
        exact bind_eq_ok.mpr ⟨some id, _, here, rfl⟩
      have same := first.symm.trans resolved
      cases same
      have interfaces : ∀ d ∈ [(⟨.str "I", .str "Interface"⟩ : Declaration)],
          d.kind = .str "Interface" := by simp
      have types : ∀ d ∈ [(⟨.str "T", .str "Type"⟩ : Declaration)], d.kind = .str "Type" := by simp
      refine ⟨_, s₁, s₂, id, id', _, found, between, _, _, _, _, document', loading, interfaces,
        types, loading', .refl s₁.model, by decide, by decide, by simp [stems], by simp, by decide,
        isIndex, ?_⟩
      exact lookups_agree loading interfaces types loading' (.refl s₁.model) (by decide) (by decide)
        (by simp [stems]) (by simp) (by decide) isIndex

end Loader

end GrammarChart
