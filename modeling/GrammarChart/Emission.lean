import GrammarChart.Fault

/-!
# Emissions

An emission is what a pass produces, in order, up to the fault that stopped it, if one did. Two
emissions run one after the other, and a fault in the first keeps the second from starting
(`append_of_fault`); `flatMap` runs a further pass over the items of an emission and, when it gets
through, ends as that emission ended.
-/

set_option autoImplicit false

namespace GrammarChart

/-- Items in order, up to a fault. -/
structure Emission (α : Type) where
  items : List α
  fault : Option Fault

namespace Emission

variable {α β : Type}

/-- Nothing is produced. -/
def nothing : Emission α := ⟨[], none⟩

/-- The given items are produced. -/
def ofList (items : List α) : Emission α := ⟨items, none⟩

/-- A fault before anything is produced. -/
def fail (fault : Fault) : Emission α := ⟨[], some fault⟩

/-- One item, or the fault of computing it. -/
def ofExcept (item : Except Fault α) : Emission α :=
  match item with
  | .ok a => ofList [a]
  | .error fault => fail fault

/-- The first emission and, unless it faults, the second one. -/
def append (first second : Emission α) : Emission α :=
  match first.fault with
  | some fault => ⟨first.items, some fault⟩
  | none => ⟨first.items ++ second.items, second.fault⟩

/-- The emissions of the members of a list, one after the other. -/
def ofEach (produce : β → Emission α) : List β → Emission α
  | [] => nothing
  | b :: rest => (produce b).append (ofEach produce rest)

/-- The emissions for the items of an emission, one after the other, and then its own fault. -/
def flatMap (e : Emission β) (produce : β → Emission α) : Emission α :=
  (ofEach produce e.items).append ⟨[], e.fault⟩

/-- A fault keeps the second emission from starting. -/
theorem append_of_fault {first second : Emission α} {fault : Fault}
    (h : first.fault = some fault) : first.append second = first := by
  obtain ⟨items, f⟩ := first
  simp only at h
  subst h
  rfl

/-- Without a fault the items of the second emission follow. -/
theorem append_of_none {first second : Emission α} (h : first.fault = none) :
    first.append second = ⟨first.items ++ second.items, second.fault⟩ := by
  simp [append, h]

/-- Nothing after an emission changes nothing. -/
@[simp] theorem append_nothing (e : Emission α) : e.append nothing = e := by
  obtain ⟨items, f⟩ := e
  cases f <;> simp [append, nothing]

/-- Nothing before an emission changes nothing. -/
@[simp] theorem nothing_append (e : Emission α) : nothing.append e = e := by
  simp [append, nothing]

/-- The order of running is all that matters, not the grouping. -/
theorem append_assoc (a b c : Emission α) : (a.append b).append c = a.append (b.append c) := by
  obtain ⟨xs, f⟩ := a
  obtain ⟨ys, g⟩ := b
  cases f <;> cases g <;> simp [append]

/-- The emissions of two lists in a row. -/
theorem ofEach_append (produce : β → Emission α) (xs ys : List β) :
    ofEach produce (xs ++ ys) = (ofEach produce xs).append (ofEach produce ys) := by
  induction xs with
  | nil => simp [ofEach]
  | cons x rest ih => simp [ofEach, ih, append_assoc]

end Emission
end GrammarChart
