/-!
# Patterns

A pattern describes texts: a star stands for any characters, a question mark for one, and square
brackets for one of a set. Characters that are quoted stand for themselves. `accepts` decides
whether a text is described as a whole; shortest and longest parts of a text are found by trying
its parts in order.
-/

set_option autoImplicit false

namespace GrammarChart.Tool.Shell

/-- Some characters of a set: those between two bounds, or those of a class. -/
inductive Member where
  | range (first last : Char)
  | named (name : String)
  deriving DecidableEq, Repr

/-- An element of a pattern. -/
inductive Element where
  | anything
  | one
  | set (negated : Bool) (members : List Member)
  | letter (c : Char)
  deriving DecidableEq, Repr

/-- The classes of characters by their names. -/
def characterClasses : List (String × (Char → Bool)) :=
  [("alpha", Char.isAlpha), ("digit", Char.isDigit), ("alnum", Char.isAlphanum),
    ("upper", Char.isUpper), ("lower", Char.isLower),
    ("space", fun c => " \t\n\x0b\x0c\x0d".toList.contains c),
    ("blank", fun c => c == ' ' || c == '\t'),
    ("punct", fun c => '!' ≤ c && c ≤ '~' && !c.isAlphanum),
    ("xdigit", fun c => c.isDigit || ('a' ≤ c && c ≤ 'f') || ('A' ≤ c && c ≤ 'F')),
    ("print", fun c => ' ' ≤ c && c ≤ '~'), ("graph", fun c => '!' ≤ c && c ≤ '~'),
    ("cntrl", fun c => c < ' ' || c == '\x7f')]

/-- The character is among the members. -/
def Member.contains (member : Member) (c : Char) : Bool :=
  match member with
  | .range first last => first ≤ c && c ≤ last
  | .named name => ((characterClasses.lookup name).map fun test => test c).getD false

/-- The element stands for the character. -/
def Element.accepts (element : Element) (c : Char) : Bool :=
  match element with
  | .anything => true
  | .one => true
  | .set negated members => members.any (fun (member : Member) => member.contains c) != negated
  | .letter l => l == c

/-- A character of a pattern, and whether it is quoted. -/
abbrev PatternLetter := Char × Bool

/-- Reads the members of a set up to its closing bracket, at most as many as the given number of
steps. A closing bracket that comes first is a member. -/
def readMembers : Nat → Bool → List PatternLetter → Option (List Member × List PatternLetter)
  | _ + 1, false, (']', false) :: rest => some ([], rest)
  | n + 1, _, (first, quoted) :: rest => do
    let single : Option (List Member × List PatternLetter) := do
      let (members, after) ← readMembers n false rest
      return (.range first first :: members, after)
    match rest with
    | (':', false) :: inside =>
      let name := inside.takeWhile fun (c, _) => c != ':'
      match inside.drop name.length with
      | (':', false) :: (']', false) :: after =>
        if first != '[' || quoted then single
        else
          let (members, after) ← readMembers n false after
          return (.named (String.ofList (name.map Prod.fst)) :: members, after)
      | _ => single
    | ('-', false) :: (last, quoted) :: after =>
      if last == ']' && !quoted then single
      else
        let (members, after) ← readMembers n false after
        return (.range first last :: members, after)
    | _ => single
  | _, _, _ => none

/-- The elements that letters stand for, at most as many as the given number of steps. -/
def elements : Nat → List PatternLetter → List Element
  | n + 1, (c, quoted) :: rest =>
    let letter := .letter c :: elements n rest
    if quoted then letter
    else if c == '*' then .anything :: elements n rest
    else if c == '?' then .one :: elements n rest
    else if c == '[' then
      let (negated, inside) := match rest with
        | ('!', false) :: after => (true, after)
        | rest => (false, rest)
      match readMembers (inside.length + 1) true inside with
      | some (members, after) => .set negated members :: elements n after
      | none => letter
    else letter
  | _, _ => []

/-- The elements of a pattern. -/
def patternOf (letters : List PatternLetter) : List Element :=
  elements letters.length letters

/-- A pattern describes a text. -/
def accepts : List Element → List Char → Bool
  | [], text => text.isEmpty
  | .anything :: rest, [] => accepts rest []
  | .anything :: rest, c :: text => accepts rest (c :: text) || accepts (.anything :: rest) text
  | _ :: _, [] => false
  | element :: rest, c :: text => element.accepts c && accepts rest text
termination_by pattern text => pattern.length + text.length

/-- A pattern of letters only describes the text of these letters and no other. -/
theorem accepts_letters (letters text : List Char) :
    accepts (letters.map .letter) text = (letters == text) := by
  induction letters generalizing text with
  | nil => cases text <;> simp [accepts]
  | cons c rest ih => cases text <;> simp [accepts, Element.accepts, ih]

/-- A star describes every text. -/
theorem accepts_anything (text : List Char) : accepts [.anything] text = true := by
  induction text with
  | nil => simp [accepts]
  | cons c rest ih => simp [accepts, ih]

/-- The numbers of characters at the start of a text of the given length, in the order in which
they are tried. -/
def lengths (longest : Bool) (length : Nat) : List Nat :=
  if longest then (List.range (length + 1)).reverse else List.range (length + 1)

/-- A text without the part at one of its ends that a pattern describes. -/
def without (atEnd longest : Bool) (pattern : List Element) (text : List Char) : List Char :=
  let fits (count : Nat) : Bool :=
    if atEnd then accepts pattern (text.drop (text.length - count))
    else accepts pattern (text.take count)
  match (lengths longest text.length).find? fits with
  | some count => if atEnd then text.take (text.length - count) else text.drop count
  | none => text

end GrammarChart.Tool.Shell
