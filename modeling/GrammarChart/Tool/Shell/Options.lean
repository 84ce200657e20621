import GrammarChart.Tool.Shell.Machine

/-!
# Options of a script

A script can read the options among its words one after the other. An option is a letter behind a
hyphen, several letters can share a hyphen, and an option may take a value, which is the rest of its
word or the next word. The state remembers how far the options have been read.
-/

set_option autoImplicit false

namespace GrammarChart.Tool.Shell

/-- Whether the option of a letter takes a value, if there is such an option. A colon behind the
letter of an option says that it does. -/
def takesValue? : List Char → Char → Option Bool
  | [], _ => none
  | known :: ':' :: rest, letter => if known == letter then some true else takesValue? rest letter
  | known :: rest, letter => if known == letter then some false else takesValue? rest letter

/-- What reading an option leads to. -/
structure OptionReading where
  /-- The letter of the option, or a mark that there is none. -/
  letter : Char
  /-- The value of the option, or what is told in its place. -/
  value : Option String
  /-- The complaint about the option. -/
  complaint : Option String
  place : OptionPlace
  isDone : Bool

/-- The reading that ends the options. -/
def optionsEnd (next : Nat) : OptionReading :=
  ⟨'?', none, none, ⟨next + 1, none⟩, true⟩

/-- Reads the option of the first letter of a text. The number counts the words before the one that
is read next. -/
def readLetter (known : List Char) (words : List String) (next : Nat) (letter : Char)
    (rest : List Char) : OptionReading :=
  let isQuiet := known.head? = some ':'
  let told := letter.toString
  let offset := ((words[next - 1]?).getD "").length - rest.length
  match takesValue? known letter with
  | none =>
    let complaint := if isQuiet then none else some ("Illegal option -" ++ told)
    ⟨'?', if isQuiet then some told else none, complaint, ⟨next + 1, some offset⟩, false⟩
  | some false => ⟨letter, some "", none, ⟨next + 1, some offset⟩, false⟩
  | some true =>
    if !rest.isEmpty then ⟨letter, some (String.ofList rest), none, ⟨next + 1, none⟩, false⟩
    else match words[next]? with
      | some value => ⟨letter, some value, none, ⟨next + 2, none⟩, false⟩
      | none =>
        if isQuiet then ⟨':', some told, none, ⟨next + 1, none⟩, false⟩
        else ⟨'?', none, some ("No arg for -" ++ told ++ " option"), ⟨next + 1, none⟩, false⟩

/-- Reads the next option among words. -/
def readOption (known : List Char) (words : List String) (place : OptionPlace) : OptionReading :=
  let begun : List Char := match place.offset with
    | some offset => ((words[place.index - 2]?).getD "").toList.drop offset
    | none => []
  match begun with
  | letter :: rest => readLetter known words (place.index - 1) letter rest
  | [] =>
    match ((words[place.index - 1]?).getD "").toList with
    | '-' :: '-' :: [] => optionsEnd place.index
    | '-' :: letter :: rest => readLetter known words place.index letter rest
    | _ => optionsEnd (place.index - 1)

/-- Reads the next option into variables. -/
def getOption (arguments : List String) : Eval Nat := do
  match arguments with
  | known :: name :: words =>
    let scope ← scope
    let words := if words.isEmpty then scope.arguments else words
    let place := if words.length + 1 < scope.place.index then OptionPlace.start else scope.place
    let reading := readOption known.toList words place
    match reading.complaint with
    | some message => write 2 (message ++ "\n")
    | none => pure ()
    if !reading.isDone then
      match reading.value with
      | some value => setVariable "OPTARG" value
      | none => unsetVariable "OPTARG"
    assignVariable "OPTIND" (toString reading.place.index)
    if !isName name then fail (name ++ ": bad variable name")
    setVariable name reading.letter.toString
    modifyScope fun scope => { scope with place := reading.place }
    return if reading.isDone then 1 else 0
  | _ => fail "Usage: getopts optstring var [arg...]"

end GrammarChart.Tool.Shell
