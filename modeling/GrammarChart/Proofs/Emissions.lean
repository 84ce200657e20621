import Mathlib
import GrammarChart.Emission

/-!
# Laws of emissions

An emission that ends without a fault is a list, and then running a pass over it is running the
pass over that list (`ofList_flatMap`, `ofEach_eq_ofList`). What can stop an emission is what can
stop one of its parts: each way of putting emissions together keeps the faults that stop it within
given ones (`Emission.StopsBy`), and so it keeps violations of the element model and of the writer
out (`Emission.NeverBreaks`). Passes over emissions compose (`append_flatMap`, `flatMap_assoc`), and
they keep emissions together that go together item by item (`Emission.Together`).
-/

set_option autoImplicit false

namespace GrammarChart

/-- A computation goes on with the value that was computed. -/
@[simp] theorem ok_bind {α β : Type} (a : α) (next : α → Except Fault β) :
    ((.ok a : Except Fault α) >>= next) = next a := rfl

/-- A fault ends a computation. -/
@[simp] theorem error_bind {α β : Type} (fault : Fault) (next : α → Except Fault β) :
    ((.error fault : Except Fault α) >>= next) = .error fault := rfl

/-- A computation in two steps gives a value when both steps do. -/
theorem bind_eq_ok {α β : Type} {e : Except Fault α} {next : α → Except Fault β} {b : β} :
    e >>= next = .ok b ↔ ∃ a, e = .ok a ∧ next a = .ok b := by
  cases e <;> simp

/-- A computation whose result is replaced gives a result when it does. -/
theorem map_eq_ok {α β : Type} {e : Except Fault α} {f : α → β} {b : β} :
    e.map f = .ok b ↔ ∃ a, e = .ok a ∧ f a = b := by
  cases e <;> simp [Except.map]

/-- Computations that are made one after the other give their results one by one. -/
theorem forall₂_of_mapM {α β : Type} {f : α → Except Fault β} {xs : List α} {ys : List β}
    (h : xs.mapM f = .ok ys) : List.Forall₂ (fun x y => f x = .ok y) xs ys := by
  induction xs generalizing ys with
  | nil =>
    cases h
    exact .nil
  | cons x rest ih =>
    rw [List.mapM_cons] at h
    obtain ⟨y, here, h⟩ := bind_eq_ok.mp h
    obtain ⟨others, later, same⟩ := bind_eq_ok.mp h
    cases same
    exact .cons here (ih later)

theorem exists_of_mapM {α β : Type} {f : α → Except Fault β} {xs : List α} {ys : List β}
    (h : xs.mapM f = .ok ys) {x : α} (mem : x ∈ xs) : ∃ y ∈ ys, f x = .ok y := by
  have together := forall₂_of_mapM h
  obtain ⟨i, bound, rfl⟩ := List.mem_iff_getElem.mp mem
  have bound' : i < ys.length := together.length_eq ▸ bound
  exact ⟨ys[i], List.getElem_mem bound', together.get bound bound'⟩

namespace Emission

variable {α β : Type}

/-- Two emissions without a fault, one after the other, are one list. -/
@[simp] theorem ofList_append_ofList (xs ys : List α) :
    (ofList xs).append (ofList ys) = ofList (xs ++ ys) := rfl

/-- A value that could be computed is a list of one. -/
@[simp] theorem ofExcept_ok (a : α) : ofExcept (.ok a : Except Fault α) = ofList [a] := rfl

/-- A pass over a list runs over its items. -/
@[simp] theorem ofList_flatMap (xs : List β) (produce : β → Emission α) :
    (ofList xs).flatMap produce = ofEach produce xs := append_nothing _

/-- A pass over one item is the pass. -/
@[simp] theorem ofEach_singleton (produce : β → Emission α) (b : β) :
    ofEach produce [b] = produce b := append_nothing _

/-- A pass over a value that is made from a computed one is a pass over the computed one. -/
theorem ofExcept_map_flatMap {γ : Type} {e : Except Fault γ} {f : γ → β} {produce : β → Emission α}
    {produce' : γ → Emission α} (each : ∀ c, e = .ok c → produce (f c) = produce' c) :
    (ofExcept (e.map f)).flatMap produce = (ofExcept e).flatMap produce' := by
  cases e with
  | error fault => rfl
  | ok c =>
    rw [Except.map, ofExcept_ok, ofExcept_ok, ofList_flatMap, ofList_flatMap, ofEach_singleton,
      ofEach_singleton, each c rfl]

/-- A pass over nothing produces nothing. -/
@[simp] theorem ofEach_nil (produce : β → Emission α) : ofEach produce [] = ofList [] := rfl

/-- A pass that faults on no item of a list produces the lists of the items in a row. -/
theorem ofEach_eq_ofList {produce : β → Emission α} {lists : β → List α} {xs : List β}
    (h : ∀ x ∈ xs, produce x = ofList (lists x)) :
    ofEach produce xs = ofList (xs.flatMap lists) := by
  induction xs with
  | nil => rfl
  | cons x rest ih =>
    have hrest : ofEach produce rest = ofList (rest.flatMap lists) :=
      ih fun y hy => h y (List.mem_cons_of_mem x hy)
    simp only [ofEach, h x List.mem_cons_self, hrest, ofList_append_ofList, List.flatMap_cons]

/-- Two lists that go together item by item produce the same when their items do. -/
theorem ofEach_eq_ofList_of_forall₂ {γ : Type} {R : γ → β → Prop} {produce : β → Emission α}
    {lists : γ → List α} {cs : List γ} {bs : List β}
    (step : ∀ c ∈ cs, ∀ b ∈ bs, R c b → produce b = ofList (lists c))
    (h : List.Forall₂ R cs bs) : ofEach produce bs = ofList (cs.flatMap lists) := by
  induction h with
  | nil => rfl
  | @cons c b cs bs head _ ih =>
    have first := step c List.mem_cons_self b List.mem_cons_self head
    have rest := ih fun c hc b hb =>
      step c (List.mem_cons_of_mem _ hc) b (List.mem_cons_of_mem _ hb)
    simp only [ofEach, first, rest, ofList_append_ofList, List.flatMap_cons]

/-- A pass over a list that was mapped is a pass over the list. -/
theorem ofEach_map {γ : Type} (produce : β → Emission α) (f : γ → β) (xs : List γ) :
    ofEach produce (xs.map f) = ofEach (fun x => produce (f x)) xs := by
  induction xs with
  | nil => rfl
  | cons x rest ih => simp only [List.map_cons, ofEach, ih]

/-- When the members of two lists go together and passes produce the same for both of them, they
produce the same for the lists. -/
theorem ofEach_congr {γ : Type} {R : γ → β → Prop} {produce : β → Emission α}
    {produce' : γ → Emission α} {cs : List γ} {bs : List β}
    (step : ∀ c ∈ cs, ∀ b ∈ bs, R c b → produce b = produce' c) (h : List.Forall₂ R cs bs) :
    ofEach produce bs = ofEach produce' cs := by
  induction h with
  | nil => rfl
  | @cons c b cs bs head _ ih =>
    have rest := ih fun c inCs b inBs =>
      step c (List.mem_cons_of_mem _ inCs) b (List.mem_cons_of_mem _ inBs)
    rw [ofEach, ofEach, step c List.mem_cons_self b List.mem_cons_self head, rest]

/-- A pass over a list that was mapped is another pass over the list when both produce the same for
each member. -/
theorem ofEach_map_congr {γ : Type} {produce : β → Emission α} {produce' : γ → Emission α}
    {f : γ → β} {xs : List γ} (same : ∀ x ∈ xs, produce (f x) = produce' x) :
    ofEach produce (xs.map f) = ofEach produce' xs := by
  rw [ofEach_map]
  refine ofEach_congr (R := Eq) ?_ (List.forall₂_same.mpr fun _ _ => rfl)
  rintro x mem _ - rfl
  exact same x mem

/-- A pass over lists in a row is the passes over the lists in a row. -/
theorem ofEach_of_flatMap {γ : Type} (produce : β → Emission α) (lists : γ → List β)
    (cs : List γ) :
    ofEach produce (cs.flatMap lists) = ofEach (fun c => ofEach produce (lists c)) cs := by
  induction cs with
  | nil => rfl
  | cons c rest ih => rw [List.flatMap_cons, ofEach_append, ih, ofEach]

/-- Two emissions in a row have the fault of the first one that has one. -/
theorem fault_append (first second : Emission α) :
    (first.append second).fault = first.fault.or second.fault := by
  obtain ⟨items, fault⟩ := first
  cases fault <;> rfl

/-- An emission without a fault is a list. -/
theorem eq_ofList {e : Emission α} (h : e.fault = none) : e = ofList e.items := by
  obtain ⟨items, fault⟩ := e
  simp only at h
  rw [h]
  rfl

/-- Two emissions in a row have no fault when neither has. -/
theorem append_fault_eq_none {first second : Emission α} :
    (first.append second).fault = none ↔ first.fault = none ∧ second.fault = none := by
  obtain ⟨items, fault⟩ := first
  cases fault <;> simp [append]

/-- A pass over a list has no fault when it has none on any item. -/
theorem ofEach_fault_eq_none {produce : β → Emission α} {xs : List β} :
    (ofEach produce xs).fault = none ↔ ∀ x ∈ xs, (produce x).fault = none := by
  induction xs with
  | nil => simp [ofEach, nothing]
  | cons x rest ih => rw [ofEach, append_fault_eq_none, ih, List.forall_mem_cons]

/-- A pass over an emission has no fault when neither the emission has one nor the pass on any
item. -/
theorem flatMap_fault_eq_none {e : Emission β} {produce : β → Emission α} :
    (e.flatMap produce).fault = none ↔ (∀ x ∈ e.items, (produce x).fault = none) ∧
      e.fault = none := by
  rw [flatMap, append_fault_eq_none, ofEach_fault_eq_none]

/-- A pass without a fault that produces one item for each produces as many items. -/
theorem ofEach_ofExcept {f : β → Except Fault α} {xs : List β}
    (h : ∀ x ∈ xs, (ofExcept (f x)).fault = none) :
    ∃ ys, ofEach (fun x => ofExcept (f x)) xs = ofList ys ∧
      List.Forall₂ (fun x y => f x = .ok y) xs ys := by
  induction xs with
  | nil => exact ⟨[], rfl, .nil⟩
  | cons x rest ih =>
    rw [List.forall_mem_cons] at h
    obtain ⟨ys, produced, together⟩ := ih h.2
    cases computed : f x with
    | error fault =>
      rw [computed] at h
      exact absurd h.1 (by simp [ofExcept, fail])
    | ok y =>
      refine ⟨y :: ys, ?_, .cons computed together⟩
      rw [ofEach, computed, produced]
      rfl

/-- What two emissions in a row hold is in one of them. -/
theorem mem_append_items {first second : Emission α} {a : α}
    (mem : a ∈ (first.append second).items) : a ∈ first.items ∨ a ∈ second.items := by
  obtain ⟨items, fault⟩ := first
  cases fault with
  | some fault => exact .inl mem
  | none => exact List.mem_append.mp mem

/-- What a pass over a list holds was produced for an item. -/
theorem mem_ofEach_items {produce : β → Emission α} {xs : List β} {a : α}
    (mem : a ∈ (ofEach produce xs).items) : ∃ x ∈ xs, a ∈ (produce x).items := by
  induction xs with
  | nil => exact absurd mem List.not_mem_nil
  | cons x rest ih =>
    rcases mem_append_items mem with here | later
    · exact ⟨x, List.mem_cons_self, here⟩
    · obtain ⟨y, inside, found⟩ := ih later
      exact ⟨y, List.mem_cons_of_mem x inside, found⟩

/-- What a pass over an emission holds was produced for something in it. -/
theorem mem_flatMap_items {e : Emission β} {produce : β → Emission α} {a : α}
    (mem : a ∈ (e.flatMap produce).items) : ∃ x ∈ e.items, a ∈ (produce x).items := by
  rcases mem_append_items mem with here | later
  · exact mem_ofEach_items here
  · exact absurd later List.not_mem_nil

/-- A pass over a list that has the same fault on some of the items, and none on the others, has it
when some item is one of them. -/
theorem fault_ofEach {produce : β → Emission α} {fault : Fault} {faulty : β → Bool} {xs : List β}
    (h : ∀ x ∈ xs, (produce x).fault = if faulty x then some fault else none) :
    (ofEach produce xs).fault = if xs.any faulty then some fault else none := by
  induction xs with
  | nil => rfl
  | cons x rest ih =>
    rw [List.forall_mem_cons] at h
    rw [ofEach, fault_append, h.1, ih h.2, List.any_cons]
    cases faulty x <;> rfl

/-- A pass over an emission that has no fault on any item ends as the emission does. -/
theorem fault_flatMap {e : Emission β} {produce : β → Emission α}
    (h : ∀ x ∈ e.items, (produce x).fault = none) : (e.flatMap produce).fault = e.fault := by
  have whole : (ofEach produce e.items).fault = none := by
    have each : ∀ x ∈ e.items, (produce x).fault = if false then some Fault.noField else none := h
    rw [fault_ofEach each]
    simp
  rw [flatMap, fault_append, whole, Option.none_or]

/-- A pass over nothing but a fault ends with the fault. -/
theorem flatMap_fail (fault : Option Fault) (produce : β → Emission α) :
    (⟨[], fault⟩ : Emission β).flatMap produce = ⟨[], fault⟩ := by
  cases fault <;> rfl

/-- A pass over two emissions in a row runs over the one and then over the other. -/
theorem append_flatMap (first second : Emission β) (produce : β → Emission α) :
    (first.append second).flatMap produce =
      (first.flatMap produce).append (second.flatMap produce) := by
  cases stopped : first.fault with
  | some fault =>
    have faulty : ∃ fault, (first.flatMap produce).fault = some fault := by
      unfold flatMap append
      split
      · next fault _ => exact ⟨fault, rfl⟩
      · exact ⟨fault, stopped⟩
    obtain ⟨fault', faulty⟩ := faulty
    rw [append_of_fault stopped, append_of_fault faulty]
  | none =>
    have whole : first.flatMap produce = ofEach produce first.items := by
      rw [flatMap, stopped]
      exact append_nothing _
    rw [append_of_none stopped, flatMap, ofEach_append, append_assoc, whole]
    rfl

/-- A pass over what a pass over a list produces is one pass over the list. -/
theorem ofEach_flatMap {γ : Type} (first : γ → Emission β) (second : β → Emission α)
    (xs : List γ) :
    (ofEach first xs).flatMap second = ofEach (fun x => (first x).flatMap second) xs := by
  induction xs with
  | nil => rfl
  | cons x rest ih => rw [ofEach, append_flatMap, ih, ofEach]

/-- Two passes, one over what the other produces, are one pass. -/
theorem flatMap_assoc {γ : Type} (e : Emission γ) (first : γ → Emission β)
    (second : β → Emission α) :
    (e.flatMap first).flatMap second = e.flatMap fun x => (first x).flatMap second := by
  have unfolded : e.flatMap first = (ofEach first e.items).append ⟨[], e.fault⟩ := rfl
  rw [unfolded, append_flatMap, ofEach_flatMap, flatMap_fail]
  rfl

/-- Two emissions end alike, and their items go together one by one. -/
structure Together {γ : Type} (R : γ → β → Prop) (e : Emission γ) (e' : Emission β) : Prop where
  fault : e'.fault = e.fault
  items : List.Forall₂ R e.items e'.items

namespace Together

variable {γ δ : Type} {R : γ → β → Prop} {S : δ → α → Prop}

/-- Two emissions in a row go together when both pairs do. -/
theorem append {first second : Emission γ} {first' second' : Emission β}
    (h : first.Together R first') (k : second.Together R second') :
    (first.append second).Together R (first'.append second') := by
  cases stopped : first.fault with
  | some fault =>
    have stopped' : first'.fault = some fault := h.fault.trans stopped
    rwa [append_of_fault stopped, append_of_fault stopped']
  | none =>
    have whole : first'.fault = none := h.fault.trans stopped
    rw [append_of_none stopped, append_of_none whole]
    exact ⟨k.fault, List.rel_append h.items k.items⟩

/-- Passes over two lists whose members go together produce what goes together. -/
theorem ofEach {produce : β → Emission α} {produce' : γ → Emission δ} {cs : List γ} {bs : List β}
    (step : ∀ c ∈ cs, ∀ b ∈ bs, R c b → (produce' c).Together S (produce b))
    (h : List.Forall₂ R cs bs) :
    (Emission.ofEach produce' cs).Together S (Emission.ofEach produce bs) := by
  induction h with
  | nil => exact ⟨rfl, .nil⟩
  | @cons c b cs bs head _ ih =>
    apply (step c List.mem_cons_self b List.mem_cons_self head).append
    apply ih
    intro c inCs b inBs
    exact step c (List.mem_cons_of_mem _ inCs) b (List.mem_cons_of_mem _ inBs)

/-- Passes that produce the same for items that go together produce the same for both emissions. -/
theorem flatMap_eq {produce : β → Emission α} {produce' : γ → Emission α} {e : Emission γ}
    {e' : Emission β} (h : e.Together R e') (same : ∀ c b, R c b → produce b = produce' c) :
    e'.flatMap produce = e.flatMap produce' := by
  rw [flatMap, flatMap, h.fault, ofEach_congr (fun c _ b _ => same c b) h.items]

/-- What goes together with a list is a list. -/
theorem exists_eq_ofList {cs : List γ} {e : Emission β} (h : (ofList cs).Together R e) :
    ∃ bs, e = ofList bs ∧ List.Forall₂ R cs bs := by
  obtain ⟨items, fault⟩ := e
  obtain ⟨whole, together⟩ := h
  refine ⟨items, ?_, together⟩
  rw [ofList, Emission.mk.injEq]
  exact ⟨rfl, whole⟩

end Together

end Emission

/-- The fault is a violation of the element model or of the writer. -/
def Fault.IsViolation : Fault → Prop
  | .violation _ => True
  | _ => False

/-- A computation that does not end in a violation. -/
def Except.NeverBreaks {α : Type} (e : Except Fault α) : Prop :=
  ∀ fault, e = .error fault → ¬ fault.IsViolation

namespace Except.NeverBreaks

variable {α β : Type}

/-- A value is no violation. -/
theorem ok (a : α) : Except.NeverBreaks (.ok a : Except Fault α) := by
  intro fault h
  simp at h

/-- A fault of another kind is no violation. -/
theorem error {fault : Fault} (h : ¬ fault.IsViolation) :
    Except.NeverBreaks (.error fault : Except Fault α) := by
  intro other same
  cases same
  exact h

/-- A computation that goes on with what another one gave ends in no violation when neither
does. -/
theorem bind {e : Except Fault α} {next : α → Except Fault β} (first : Except.NeverBreaks e)
    (second : ∀ a, e = .ok a → Except.NeverBreaks (next a)) :
    Except.NeverBreaks (e >>= next) := by
  cases e with
  | error fault => exact Except.NeverBreaks.error (first fault rfl)
  | ok a => exact second a rfl

/-- Changing the value adds no violation. -/
theorem map {e : Except Fault α} (h : Except.NeverBreaks e) (f : α → β) :
    Except.NeverBreaks (e.map f) := by
  cases e with
  | error fault => exact Except.NeverBreaks.error (h fault rfl)
  | ok a => exact Except.NeverBreaks.ok (f a)

end Except.NeverBreaks

/-- An emission that is stopped, if at all, by a fault that is allowed. -/
def Emission.StopsBy {α : Type} (allowed : Fault → Prop) (e : Emission α) : Prop :=
  ∀ fault, e.fault = some fault → allowed fault

namespace Emission.StopsBy

variable {α β : Type} {allowed : Fault → Prop}

/-- A list is never stopped. -/
theorem ofList (xs : List α) : (Emission.ofList xs).StopsBy allowed := by
  intro fault h
  simp [Emission.ofList] at h

/-- A single value is stopped by the fault of its computation. -/
theorem ofExcept {e : Except Fault α} (h : ∀ fault, e = .error fault → allowed fault) :
    (Emission.ofExcept e).StopsBy allowed := by
  cases e with
  | ok a => exact StopsBy.ofList [a]
  | error fault =>
    intro other same
    simp only [Emission.ofExcept, Emission.fail, Option.some.injEq] at same
    exact same ▸ h fault rfl

/-- One emission after the other. -/
theorem append {first second : Emission α} (h : first.StopsBy allowed)
    (k : second.StopsBy allowed) : (first.append second).StopsBy allowed := by
  cases hf : first.fault with
  | some fault => rwa [Emission.append_of_fault hf]
  | none =>
    rw [Emission.append_of_none hf]
    exact k

/-- A pass over the members of a list. -/
theorem ofEach {produce : β → Emission α} {xs : List β}
    (h : ∀ x ∈ xs, (produce x).StopsBy allowed) : (Emission.ofEach produce xs).StopsBy allowed := by
  induction xs with
  | nil => exact StopsBy.ofList []
  | cons x rest ih =>
    exact (h x List.mem_cons_self).append (ih fun y hy => h y (List.mem_cons_of_mem x hy))

/-- A pass over the items of an emission. -/
theorem flatMap {e : Emission β} {produce : β → Emission α} (h : e.StopsBy allowed)
    (k : ∀ x ∈ e.items, (produce x).StopsBy allowed) : (e.flatMap produce).StopsBy allowed :=
  (StopsBy.ofEach k).append h

end Emission.StopsBy

/-- An emission that is not stopped by a violation. -/
def Emission.NeverBreaks {α : Type} (e : Emission α) : Prop :=
  ∀ fault, e.fault = some fault → ¬ fault.IsViolation

namespace Emission.NeverBreaks

variable {α β : Type}

/-- A list is never stopped. -/
theorem ofList (xs : List α) : (Emission.ofList xs).NeverBreaks :=
  StopsBy.ofList xs

/-- A single value is stopped by a violation only when its computation is. -/
theorem ofExcept {e : Except Fault α} (h : Except.NeverBreaks e) :
    (Emission.ofExcept e).NeverBreaks :=
  StopsBy.ofExcept h

/-- One emission after the other. -/
theorem append {first second : Emission α} (h : first.NeverBreaks) (k : second.NeverBreaks) :
    (first.append second).NeverBreaks :=
  StopsBy.append h k

/-- A pass over the members of a list. -/
theorem ofEach {produce : β → Emission α} {xs : List β}
    (h : ∀ x ∈ xs, (produce x).NeverBreaks) : (Emission.ofEach produce xs).NeverBreaks :=
  StopsBy.ofEach h

/-- A pass over the items of an emission. -/
theorem flatMap {e : Emission β} {produce : β → Emission α} (h : e.NeverBreaks)
    (k : ∀ x ∈ e.items, (produce x).NeverBreaks) : (e.flatMap produce).NeverBreaks :=
  StopsBy.flatMap h k

end Emission.NeverBreaks

end GrammarChart
