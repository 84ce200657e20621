import GrammarChart.Proofs.Store.Archive

/-!
# Damaged state files

A state file may hold anything. A store does not open on octets that are no text, or on a number
with too many digits; malformed text counts as no entries at all (`exists_valueOf_iff`). It opens on
any other value, but only an object has entries to look up and takes new ones. Entries are listed
when they have texts for names, and one entry without a name keeps all of them from being listed
(`entries_insert_iff`). `Store.damage_shows` puts this together.
-/

set_option autoImplicit false

namespace GrammarChart

open FileTree

namespace Store

/-- A state file has a value unless its octets are no text or a number in it is too long. -/
theorem exists_valueOf_iff {content : Content} : (∃ value, valueOf content = .ok value) ↔
    ∃ text, content.reading = .ok text ∧
      ∀ digits, Json.read text ≠ .error (.numeralTooLong digits) := by
  rw [valueOf]
  cases content.reading with
  | error fault => simp
  | ok text =>
    dsimp only
    cases read : Json.read text with
    | ok value => simp [read]
    | error fault => cases fault <;> simp [read]

/-- The value of a state file can be written. -/
theorem isWritable_of_valueOf {content : Content} {value : Json}
    (h : valueOf content = .ok value) : value.IsWritable := by
  rw [valueOf] at h
  split at h
  · cases h
  · split at h
    · next read =>
      cases h
      exact Json.isWritable_of_read read
    · cases h
      exact Json.isWritable_empty
    · cases h

section Values

variable {directory : FilePath} {value : Json}

/-- A value that is no object has no entries. -/
theorem state_of_not_object (noObject : ∀ held, value ≠ .obj held) :
    StoreState.ofJson value = .other value := by
  cases value with
  | obj held => exact absurd rfl (noObject held)
  | _ => rfl

theorem get?_of_not_object (noObject : ∀ held, value ≠ .obj held) (name : Json) :
    get? ⟨directory, .ofJson value⟩ name = .error .noField := by
  rw [get?, state_of_not_object noObject]

theorem entries_of_not_object (noObject : ∀ held, value ≠ .obj held) :
    entries ⟨directory, .ofJson value⟩ = .error .noField := by
  rw [entries, state_of_not_object noObject]

/-- Under a text nothing is filed in a value that is no object. -/
theorem file_of_not_object (noObject : ∀ held, value ≠ .obj held) {filing : Filing} {name : String}
    (text : filing.name = .str name) (now : String) :
    file ⟨directory, .ofJson value⟩ filing now = .error .wrongType := by
  rw [file, state_of_not_object noObject]
  cases value <;> simp [text, Json.wholeNumber?]

end Values

/-- The entry has a text for its name. -/
def IsNamed (entry : Json) : Prop :=
  ∃ name : String, entryName entry = .ok (.str name)

section Listing

variable {directory : FilePath} {held : Fields} {name : String} {entry : Json}

/-- Entries that have texts for names are listed. -/
theorem exists_entries_of_named (named : ∀ field ∈ held, IsNamed field.2) :
    ∃ listed, (holding directory held).entries = .ok listed ∧
      listed.Perm (held.map Prod.snd) := by
  obtain ⟨sorted, perm, -, listed⟩ := @exists_entries held
    (fun field => ((entryName field.2).toOption.bind Json.text?).getD "")
    (fun field mem => by
      obtain ⟨name, text⟩ := named field mem
      rw [text]
      rfl) directory
  exact ⟨_, listed, perm.map Prod.snd⟩

/-- Entries that are listed have names, which are all texts or all no texts. -/
theorem names_of_entries {listed : List Json} (h : (holding directory held).entries = .ok listed) :
    ∃ isText, ∀ field ∈ held, ∃ name,
      entryName field.2 = .ok name ∧ name.text?.isSome = isText := by
  have state : (holding directory held).state =
      .entries (held.map fun field => (.str field.1, field.2)) := rfl
  rw [entries, state] at h
  obtain ⟨named, found, sorting⟩ := bind_eq_ok.mp h
  split at sorting
  · next sorted sort =>
    obtain ⟨isText, texts⟩ := Json.texts_of_sortBy? sort
    refine ⟨isText, fun field mem => ?_⟩
    obtain ⟨pair, among, given⟩ := exists_of_mapM found (List.mem_map_of_mem mem)
    obtain ⟨name, hasName, same⟩ := bind_eq_ok.mp given
    cases same
    exact ⟨name, hasName, texts _ among⟩
  · cases sorting

/-- The fields after an entry was filed: the new one, and the others. -/
theorem mem_insert (apart : held.keys.Nodup) {field : String × Json} :
    field ∈ held.insert name entry ↔ field = (name, entry) ∨ field ∈ held ∧ field.1 ≠ name := by
  induction held with
  | nil => simp [Fields.insert]
  | cons head rest ih =>
    obtain ⟨key, old⟩ := head
    rw [Fields.keys, List.map_cons, List.nodup_cons] at apart
    rw [Fields.insert]
    by_cases here : key = name
    · subst here
      have others : ∀ other ∈ rest, other.1 ≠ key := fun other mem same =>
        apart.1 (List.mem_map.mpr ⟨other, mem, same⟩)
      rw [if_pos rfl, List.mem_cons, List.mem_cons]
      constructor
      · rintro (rfl | mem)
        · exact .inl rfl
        · exact .inr ⟨.inr mem, others field mem⟩
      · rintro (rfl | ⟨rfl | mem, different⟩)
        · exact .inl rfl
        · exact absurd rfl different
        · exact .inr mem
    · rw [if_neg here, List.mem_cons, List.mem_cons, ih apart.2]
      constructor
      · rintro (rfl | new | ⟨mem, different⟩)
        · exact .inr ⟨.inl rfl, here⟩
        · exact .inl new
        · exact .inr ⟨.inr mem, different⟩
      · rintro (new | ⟨rfl | mem, different⟩)
        · exact .inr (.inl new)
        · exact .inl rfl
        · exact .inr (.inr ⟨mem, different⟩)

/-- A new entry that has a text for its name is listed, together with the others, exactly when they
have texts for names. -/
theorem entries_insert_iff (apart : held.keys.Nodup) (named : IsNamed entry) :
    (∃ listed, (holding directory (held.insert name entry)).entries = .ok listed ∧
        entry ∈ listed) ↔ ∀ field ∈ held, field.1 ≠ name → IsNamed field.2 := by
  have new : (name, entry) ∈ held.insert name entry := (mem_insert apart).mpr (.inl rfl)
  constructor
  · rintro ⟨listed, given, -⟩ field mem different
    obtain ⟨isText, names⟩ := names_of_entries given
    obtain ⟨ownName, own, ownText⟩ := names _ new
    obtain ⟨text, hasText⟩ := named
    rw [hasText] at own
    cases own
    obtain ⟨name', hasName, isText'⟩ := names field ((mem_insert apart).mpr (.inr ⟨mem, different⟩))
    rw [← ownText] at isText'
    cases name' with
    | str text' => exact ⟨text', hasName⟩
    | _ => cases isText'
  · intro others
    obtain ⟨listed, given, perm⟩ := @exists_entries_of_named directory
      (held.insert name entry) (by
        intro field mem
        rcases (mem_insert apart).mp mem with rfl | ⟨old, different⟩
        · exact named
        · exact others field old different)
    exact ⟨listed, given, perm.mem_iff.mpr (List.mem_map_of_mem new)⟩

end Listing

/-- What a damaged state file does. A store opens unless the octets of the file are no text or a
number in it has too many digits. If its value is no object, nothing can be looked up, listed or
stored. If it is one, every name can be looked up and every diagram can be stored, is found under
its name and after opening the store again; but it is listed only if all other entries have texts
for names. -/
theorem damage_shows {tree : FileTree} {directory : FilePath} {location : Location}
    {content : Content} (dir : IsDirectoryAt tree directory location)
    (fits : Fits directory stateFileName)
    (stored : tree.get? (location ++ [stateFileName]) = some (.file content)) :
    ((∃ store, openAt tree directory = .ok store) ↔ ∃ text, content.reading = .ok text ∧
      ∀ digits, Json.read text ≠ .error (.numeralTooLong digits)) ∧
    ∀ store, openAt tree directory = .ok store → ∃ value, valueOf content = .ok value ∧
      ((∀ held, value ≠ .obj held) →
        (∀ name, store.get? name = .error .noField) ∧ store.entries = .error .noField ∧
        ∀ filing name now, filing.name = .str name →
          ¬ ∃ entry, (store.put tree filing now).result = .ok entry) ∧
      ∀ held : Fields, value = .obj held →
        (∀ name : String, store.get? (.str name) = .ok (held.get? name)) ∧
        ((∀ field ∈ held, IsNamed field.2) → ∃ listed, store.entries = .ok listed ∧
          listed.Perm (held.map Prod.snd)) ∧
        ((∃ listed, store.entries = .ok listed) → ∃ isText, ∀ field ∈ held, ∃ name,
          entryName field.2 = .ok name ∧ name.text?.isSome = isText) ∧
        ∀ filing name text now, IsStorable tree directory location filing name text →
          (filing.entry now).IsWritable →
          let filed := store.put tree filing now
          filed.result = .ok (filing.entry now) ∧
          (∀ other : String, filed.store.get? (.str other) =
            if name = other then .ok (some (filing.entry now)) else store.get? (.str other)) ∧
          ((∃ listed, filed.store.entries = .ok listed ∧ filing.entry now ∈ listed) ↔
            ∀ field ∈ held, field.1 ≠ name → IsNamed field.2) ∧
          openAt filed.tree directory = .ok (holding directory
            (Json.readBackFields (held.insert name (filing.entry now)))) := by
  have opens := openAt_of_stored dir fits stored
  refine ⟨?_, fun store opened => ?_⟩
  · rw [← exists_valueOf_iff, opens]
    cases valueOf content <;> simp [Except.map]
  rw [opens] at opened
  obtain ⟨value, isValue, rfl⟩ := map_eq_ok.mp opened
  refine ⟨value, isValue, fun noObject => ⟨?_, ?_, ?_⟩, ?_⟩
  · exact get?_of_not_object noObject
  · exact entries_of_not_object noObject
  · rintro filing name now isText ⟨entry, done⟩
    rw [put] at done
    split at done
    · cases done
    · rw [file_of_not_object noObject isText] at done
      cases done
  · rintro held rfl
    have writable := isWritable_of_valueOf isValue
    refine ⟨get?_holding directory held, exists_entries_of_named, ?_, ?_⟩
    · rintro ⟨listed, given⟩
      exact names_of_entries given
    · intro filing name text now storable writable' filed
      have free : tree.get? (location ++ [stateFileName]) ≠ some .directory := by
        rw [stored]
        simp
      have done : filed = _ := put_of_storable dir fits free storable held now
      have named : IsNamed (filing.entry now) := by
        refine ⟨name, ?_⟩
        rw [← storable.named]
        rfl
      rw [done]
      refine ⟨rfl, ?_, entries_insert_iff writable.1 named, ?_⟩
      · intro other
        exact get?_file storable.named (file_holding storable.named held now) other
      · have dir' := dir.put storable.free (.plain text)
        have free' := get?_state_put tree location name (.file (.plain text)) ▸ free
        refine openAt_of_saved (dir'.put free' _) fits
          (Json.isWritable_insert writable name writable') ?_
        rw [FileTree.get?_put _ _ _ _ (by simp), if_pos rfl]

/-- A directory with a state file of the given content and nothing else. -/
def damaged (content : Content) : FileTree :=
  ⟨[(["out"], .directory), (["out", "diagram_state.json"], .file content)], []⟩

/-- A store does not open on an octet that is no text. On an entry that is no object it opens, and
stores a diagram, but no longer lists it. -/
theorem damage_shows_unlisted :
    let content := Content.plain ((Json.obj [("b", .int 5)]).indented 0)
    let store := holding (.ofText "out") [("b", .int 5)]
    (∀ content, IsDirectoryAt (damaged content) (.ofText "out") ["out"] ∧
      (damaged content).get? (["out"] ++ [stateFileName]) = some (.file content)) ∧
    Fits (.ofText "out") stateFileName ∧
    (¬ ∃ store, openAt (damaged (.ofBytes [255])) (.ofText "out") = .ok store) ∧
    openAt (damaged content) (.ofText "out") = .ok store ∧
    IsStorable (damaged content) (.ofText "out") ["out"] blank "a" "@startuml\n@enduml\n" ∧
    (store.put (damaged content) blank "now").result = .ok (blank.entry "now") ∧
    ¬ ∃ listed, (store.put (damaged content) blank "now").store.entries = .ok listed ∧
      blank.entry "now" ∈ listed := by
  intro content store
  have dir (content : Content) : IsDirectoryAt (damaged content) (.ofText "out") ["out"] :=
    ⟨rfl, rfl⟩
  have stored (content : Content) :
      (damaged content).get? (["out"] ++ [stateFileName]) = some (.file content) := rfl
  have fits : Fits (.ofText "out") stateFileName := by decide +kernel
  have short : ¬ Text.Numeral.IsOverlong 5 ∧ ¬ Text.Numeral.IsOverlong 0 := by decide +kernel
  have writable : (Json.obj [("b", .int 5)]).IsWritable := ⟨by decide, short.1, trivial⟩
  have counts : valueOf content = .ok (.obj [("b", .int 5)]) :=
    valueOf_plain (Json.return_not_mem_indented _ 0) (Json.read_indented writable)
  have opened : openAt (damaged content) (.ofText "out") = .ok store :=
    openAt_of_saved (dir content) fits writable (stored content)
  have free : (damaged content).get? (["out"] ++ [DocumentName.fileName "a"]) ≠
      some .directory := by
    simp [damaged, FileTree.get?, lookup, DocumentName.fileName]
  have storable : IsStorable (damaged content) (.ofText "out") ["out"] blank "a"
      "@startuml\n@enduml\n" :=
    ⟨rfl, rfl, isFileName_blank, by decide +kernel, free⟩
  refine ⟨fun content => ⟨dir content, stored content⟩, fits, ?_, opened, storable, ?_⟩
  · rw [(damage_shows (dir _) fits (stored _)).1]
    rintro ⟨text, reading, -⟩
    have undecodable : (Content.ofBytes [255]).reading.isOk = false := by decide +kernel
    rw [reading] at undecodable
    cases undecodable
  · obtain ⟨value, isValue, -, shows⟩ := (damage_shows (dir _) fits (stored _)).2 store opened
    rw [counts] at isValue
    cases isValue
    obtain ⟨-, -, -, put⟩ := shows _ rfl
    obtain ⟨done, -, listed, -⟩ := put blank "a" _ "now" storable
      (isWritable_entry trivial short.2)
    refine ⟨done, fun isListed => ?_⟩
    obtain ⟨text, named⟩ := listed.mp isListed ("b", .int 5) List.mem_cons_self (by decide)
    cases named

end Store
end GrammarChart
