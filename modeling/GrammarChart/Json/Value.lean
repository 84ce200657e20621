import GrammarChart.Decimal.Binary64

/-!
# Document values

A value of the data format in which documents, stored entries and requests are written. The fields
of an object keep the order in which they were first written; a field written again keeps its place
and takes the new value. `get?_insert` and `keys_insert` state that rule.
-/

set_option autoImplicit false

namespace GrammarChart

/-- A value of a document. Whole numbers are exact; numerals with a fraction or an exponent are
numbers of the format binary64. -/
inductive Json where
  | null
  | bool (value : Bool)
  | int (value : Int)
  | real (value : Binary64)
  | str (value : String)
  | arr (items : List Json)
  | obj (fields : List (String × Json))
  deriving Repr, Inhabited

/-- The fields of an object in order. -/
abbrev Fields := List (String × Json)

namespace Fields

/-- The value of a field. -/
def get? : Fields → String → Option Json
  | [], _ => none
  | (k, v) :: rest, key => if k = key then some v else get? rest key

/-- Writes a field: in its place if it is there, at the end otherwise. -/
def insert : Fields → String → Json → Fields
  | [], key, value => [(key, value)]
  | (k, v) :: rest, key, value =>
    if k = key then (k, value) :: rest else (k, v) :: insert rest key value

/-- The names of the fields in order. -/
def keys (fields : Fields) : List String :=
  fields.map (·.1)

/-- A field that was written has the new value, and every other field the one it had. -/
theorem get?_insert (fields : Fields) (key other : String) (value : Json) :
    (fields.insert key value).get? other =
      if key = other then some value else fields.get? other := by
  induction fields with
  | nil => simp [insert, get?]
  | cons field rest ih =>
    obtain ⟨k, v⟩ := field
    by_cases h : k = key
    · subst h; by_cases h' : k = other <;> simp [insert, get?, h']
    · by_cases h' : k = other
      · subst h'; simp [insert, get?, h, Ne.symm h]
      · simp [insert, get?, h, h', ih]

/-- Writing a field adds its name at the end unless it is there. -/
theorem keys_insert (fields : Fields) (key : String) (value : Json) :
    (fields.insert key value).keys =
      if key ∈ fields.keys then fields.keys else fields.keys ++ [key] := by
  induction fields with
  | nil => simp [insert, keys]
  | cons field rest ih =>
    obtain ⟨k, v⟩ := field
    by_cases h : k = key
    · subst h; simp [insert, keys]
    · have hk : ¬ key = k := fun e => h e.symm
      simp only [insert, h, if_false, keys, List.map_cons, List.mem_cons, hk, false_or]
      have := ih
      simp only [keys] at this
      rw [this]
      split <;> simp_all

/-- A value that is found is smaller than the fields that hold it. -/
theorem sizeOf_get? {fields : Fields} {key : String} {value : Json}
    (h : fields.get? key = some value) : sizeOf value < sizeOf fields := by
  induction fields with
  | nil => simp [get?] at h
  | cons field rest ih =>
    obtain ⟨k, v⟩ := field
    by_cases hk : k = key
    · simp only [get?, hk, if_true, Option.some.injEq] at h
      subst h
      simp only [List.cons.sizeOf_spec, Prod.mk.sizeOf_spec]
      omega
    · simp only [get?, hk, if_false] at h
      have := ih h
      simp only [List.cons.sizeOf_spec]
      omega

end Fields

namespace Json

/-- A value is present unless it is null, false, a zero, or an empty text, list or object. -/
def isPresent : Json → Bool
  | .null => false
  | .bool b => b
  | .int n => n != 0
  | .real x => x.isNonzero
  | .str s => s != ""
  | .arr items => !items.isEmpty
  | .obj fields => !fields.isEmpty

/-- The value, or the replacement when it is not present. -/
def orElse (value replacement : Json) : Json :=
  if value.isPresent then value else replacement

/-- The value is the given text. -/
def isText (value : Json) (text : String) : Bool :=
  match value with
  | .str s => s == text
  | _ => false

/-- Texts, numbers, truth values and null can be members of a set; lists and objects cannot. -/
def isAtom : Json → Bool
  | .arr _ => false
  | .obj _ => false
  | _ => true

/-- The whole number that a truth value or a whole number stands for. -/
def wholeNumber? : Json → Option Int
  | .bool b => some (if b then 1 else 0)
  | .int n => some n
  | _ => none

/-- Equality of atoms. Numbers are compared by value, and the truth values are the numbers one and
zero. -/
def sameAtom (a b : Json) : Bool :=
  match a, b with
  | .null, .null => true
  | .str s, .str t => s == t
  | .real x, .real y => x.same y
  | .real x, b => match b.wholeNumber? with
    | some n => x.equalsInt n
    | none => false
  | a, .real y => match a.wholeNumber? with
    | some n => y.equalsInt n
    | none => false
  | a, b => match a.wholeNumber?, b.wholeNumber? with
    | some m, some n => m == n
    | _, _ => false

/-- Two texts are the same atom exactly when they are equal. -/
@[simp] theorem sameAtom_str (s t : String) : sameAtom (.str s) (.str t) = (s == t) := rfl

/-- The value is a text. -/
def text? : Json → Option String
  | .str s => some s
  | _ => none

/-- Some number in the value is infinite or undefined, so that it has no standard numeral. -/
def hasUnboundedNumber : Json → Bool
  | .real x => !x.isFinite
  | .arr items => anyItem items
  | .obj fields => anyField fields
  | _ => false
where
  /-- Some item holds such a number. -/
  anyItem : List Json → Bool
    | [] => false
    | v :: rest => v.hasUnboundedNumber || anyItem rest
  /-- Some field holds such a number. -/
  anyField : List (String × Json) → Bool
    | [] => false
    | (_, v) :: rest => v.hasUnboundedNumber || anyField rest

end Json
end GrammarChart
