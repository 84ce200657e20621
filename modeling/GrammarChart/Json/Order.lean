import GrammarChart.Json.Value

/-!
# Order of document values

Numbers are ordered by value, texts by their characters, and lists by their first items that
differ. Values of different kinds, objects and null have no order. `sortBy?` sorts by keys and
keeps the order of values with the same key; which keys it compares is part of what it does, because
a number that is undefined comes before no other and behind none.
-/

set_option autoImplicit false

namespace GrammarChart.Json

mutual

/-- Equality of values. The order of the fields of an object does not count. -/
def same : Json → Json → Bool
  | .arr items, .arr others => sameItems items others
  | .obj fields, .obj others => fields.length == others.length && sameFields fields others
  | a, b => sameAtom a b

/-- Equality of lists, item by item. -/
def sameItems : List Json → List Json → Bool
  | [], [] => true
  | a :: rest, b :: others => a.same b && sameItems rest others
  | _, _ => false

/-- Every field is found with the same value among the others. -/
def sameFields : List (String × Json) → Fields → Bool
  | [], _ => true
  | (key, a) :: rest, others =>
    (match others.get? key with
      | some b => a.same b
      | none => false) && sameFields rest others

end

/-- Where a number or a truth value lies on the line. -/
def place? : Json → Option Binary64.Place
  | .real x => some x.place
  | value => value.wholeNumber?.map Binary64.Place.ofInt

mutual

/-- Whether the first value comes before the second; nothing if the two have no order. -/
def before? : Json → Json → Option Bool
  | .str s, .str t => some (s < t)
  | .arr items, .arr others => itemsBefore? items others
  | a, b => match a.place?, b.place? with
    | some x, some y => some (x.below y)
    | _, _ => none

/-- Whether the first list comes before the second. -/
def itemsBefore? : List Json → List Json → Option Bool
  | _, [] => some false
  | [], _ :: _ => some true
  | a :: rest, b :: others => if a.same b then itemsBefore? rest others else a.before? b

end

/-- Where a value belongs in a sorted list: the range of possible places is halved, at most the
given number of times, by comparing the value with the one in the middle. -/
def placeBetween? {α : Type} (key : α → Json) (value : α) (sorted : List α) :
    Nat → Nat → Nat → Option Nat
  | 0, low, _ => some low
  | steps + 1, low, high =>
    let middle := low + (high - low) / 2
    if low < high then
      match sorted[middle]? with
      | none => some low
      | some other => do
        if ← (key value).before? (key other) then placeBetween? key value sorted steps low middle
        else placeBetween? key value sorted steps (middle + 1) high
    else some low

/-- Puts a value into a sorted list, behind the values that do not come after it. -/
def insertBy? {α : Type} (key : α → Json) (sorted : List α) (value : α) : Option (List α) := do
  let place ← placeBetween? key value sorted (sorted.length + 1) 0 sorted.length
  return sorted.take place ++ value :: sorted.drop place

/-- Splits off the values that continue a run behind the last one: in a falling run each comes
before the one ahead of it, and in a rising one none does. -/
def splitRun? {α : Type} (key : α → Json) (falling : Bool) (last : α) :
    List α → Option (List α × List α)
  | [] => some ([], [])
  | value :: rest => do
    if (← (key value).before? (key last)) == falling then
      let (run, others) ← splitRun? key falling value rest
      return (value :: run, others)
    else return ([], value :: rest)

/-- Sorts values by their keys; nothing if two keys that are compared have no order. The run at the
start is kept, or turned around when it falls, and the other values are put in one by one. -/
def sortBy? {α : Type} (key : α → Json) (values : List α) : Option (List α) :=
  match values with
  | first :: second :: rest => do
    let falling ← (key second).before? (key first)
    let (run, others) ← splitRun? key falling second rest
    let start := first :: second :: run
    others.foldlM (insertBy? key) (if falling then start.reverse else start)
  | values => some values

end GrammarChart.Json
