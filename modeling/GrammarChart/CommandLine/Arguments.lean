import GrammarChart.Text.Numeral
import GrammarChart.Text.Quoted

/-!
# Command arguments

The arguments of a command are words. A word is a switch, which may take a value, or a plain word,
which fills a place. Switches may be shortened as long as they stay unique, short ones may be joined
into one word, and a value may be joined to its switch. After a double dash all words are plain.
Words that fit nowhere are left over. Asking for help stops the reading where the request stands.
-/

set_option autoImplicit false

namespace GrammarChart.CommandLine

/-- What a switch does: it asks for help, is on when it is given, or takes a value, which has to
be one of the choices if there are any. -/
inductive SwitchKind where
  | help
  | flag
  | value (choices : List String)
  deriving DecidableEq, Repr

/-- A switch under its names. -/
structure Switch where
  names : List String
  kind : SwitchKind
  deriving DecidableEq, Repr

/-- A switch in complaints. -/
def Switch.title (switch : Switch) : String :=
  "/".intercalate switch.names

/-- The place that plain words fill: one word, or a word and everything after it. -/
inductive Place where
  | one
  | rest
  deriving DecidableEq, Repr

/-- Why reading stopped: help was asked for, or something is wrong with the arguments. -/
inductive Stop where
  | help
  | complaint (text : String)
  deriving DecidableEq, Repr

/-- What a word is. A switch without an entry in the table is unknown. -/
inductive Word where
  | dashes
  | plain (text : String)
  | unknown (text : String)
  | switch (switch : Switch) (isShort : Bool) (joined : Option (List Char))

/-- The word is a switch, known or not. -/
def Word.isSwitch : Word → Bool
  | .dashes | .plain _ => false
  | .unknown _ | .switch .. => true

/-- Switches in order, each with its value if it has one. -/
abbrev Given := List (Switch × Option String)

/-- What was read: the switches that were given, the words that fill the place, and the words that
are left over. -/
structure Reading where
  given : Given
  placed : List String
  left : List String

/-- The switches of a command. -/
abbrev Table := List Switch

namespace Table

/-- The names of all switches, each with its switch. -/
def entries (table : Table) : List (String × Switch) :=
  table.flatMap fun switch => switch.names.map fun name => (name, switch)

/-- The switch of a name. -/
def find? (table : Table) (name : String) : Option Switch :=
  table.entries.lookup name

end Table

/-- The complaint about the use of a switch. -/
def misuse (switch : Switch) (reason : String) : Stop :=
  .complaint ("argument " ++ switch.title ++ ": " ++ reason)

/-- The complaint about a value that is no choice. -/
def wrongChoice (title value : String) (choices : List String) : String :=
  "argument " ++ title ++ ": invalid choice: " ++ Text.quoted value ++
    " (choose from " ++ ", ".intercalate (choices.map Text.quoted) ++ ")"

/-- Splits a word at its first equal sign. -/
def splitEqual (word : List Char) : Option (List Char × List Char) :=
  match word.dropWhile (· != '=') with
  | _ :: after => some (word.takeWhile (· != '='), after)
  | [] => none

/-- The readings of a word that is no name: a long switch by the start of its name, or a short
switch with a text joined to it. -/
def readings (table : Table) (word : List Char) : List (String × Word) :=
  match word with
  | '-' :: '-' :: _ =>
    let (start, joined) : List Char × Option (List Char) := match splitEqual word with
      | some (start, text) => (start, some text)
      | none => (word, none)
    (table.entries.filter fun (name, _) => start.isPrefixOf name.toList).map
      fun (name, switch) => (name, .switch switch false joined)
  | '-' :: c :: text =>
    (table.entries.filter fun (name, _) => name.toList = ['-', c]).map
      fun (name, switch) => (name, .switch switch true (some text))
  | _ => []

/-- The word is a negative number. A line end after it does not count. -/
def isNegativeNumber (word : List Char) : Bool :=
  let digits (text : List Char) : Bool := text.all fun c => (Text.digitValue? c).isSome
  let word := if word.getLast? = some '\n' then word.dropLast else word
  match word with
  | '-' :: text =>
    let fraction := text.dropWhile (· != '.')
    match fraction with
    | [] => !text.isEmpty && digits text
    | _ :: fraction => !fraction.isEmpty && digits fraction && digits (text.takeWhile (· != '.'))
  | _ => false

/-- What a word is, before any double dash. -/
def classify (table : Table) (text : String) : Except Stop Word :=
  let word := text.toList
  let isShort (name : List Char) : Bool := name[1]? != some '-'
  if word.head? ≠ some '-' then .ok (.plain text)
  else match table.find? text with
    | some switch => .ok (.switch switch (isShort word) none)
    | none =>
      if word.length = 1 then .ok (.plain text)
      else
        let direct := do
          let (name, value) ← splitEqual word
          let switch ← table.find? (String.ofList name)
          return Word.switch switch (isShort name) (some value)
        match direct, readings table word with
        | some found, _ => .ok found
        | none, [(_, found)] => .ok found
        | none, [] =>
          if isNegativeNumber word || word.contains ' ' then .ok (.plain text)
          else .ok (.unknown text)
        | none, several =>
          .error (.complaint ("ambiguous option: " ++ text ++ " could match " ++
            ", ".intercalate (several.map Prod.fst)))

/-- What the words are. -/
def classifyAll (table : Table) : List String → Except Stop (List (Word × String))
  | [] => .ok []
  | text :: rest =>
    if text = "--" then .ok ((.dashes, text) :: rest.map fun text => (.plain text, text))
    else do
      let word ← classify table text
      return (word, text) :: (← classifyAll table rest)

/-- What a word with a switch gives: the switches in it, and whether it takes the next word. -/
structure Cluster where
  given : Given
  takesNext : Bool

/-- Reads a switch to which no text is joined. The next word is given if it is plain. -/
def readAlone (next : Option String) (switch : Switch) : Except Stop Cluster :=
  match switch.kind, next with
  | .value _, some value => .ok ⟨[(switch, some value)], true⟩
  | .value _, none => .error (misuse switch "expected one argument")
  | _, _ => .ok ⟨[(switch, none)], false⟩

/-- The value that a joined text is. A double dash is no value. -/
def joinedValue (text : List Char) : Option String :=
  if text = ['-', '-'] then none else some (String.ofList text)

/-- Reads a switch and the text joined to it, which is its value, or else starts with the letter of
a further short switch. -/
def readJoined (table : Table) (next : Option String) (switch : Switch) (isShort : Bool)
    (text : List Char) : Except Stop Cluster :=
  let ignored : Stop :=
    misuse switch ("ignored explicit argument " ++ Text.quoted (String.ofList text))
  match switch.kind, text with
  | .value _, text => .ok ⟨[(switch, joinedValue text)], false⟩
  | _, [] => .error ignored
  | _, c :: more =>
    if !isShort then .error ignored
    else match table.find? (String.ofList ['-', c]) with
      | none => .error ignored
      | some other =>
        let cluster := match more with
          | [] => readAlone next other
          | d :: others => readJoined table next other true (d :: others)
        cluster.map fun cluster => { cluster with given := (switch, none) :: cluster.given }
termination_by text.length
decreasing_by simp only [wfParam, List.length_cons]; omega

/-- Takes switches in order: help stops the reading, and values have to be among the choices. -/
def take : Given → Except Stop Unit
  | [] => .ok ()
  | (switch, value) :: rest =>
    match switch.kind, value with
    | .help, _ => .error .help
    | .value choices, some value =>
      if choices = [] ∨ value ∈ choices then take rest
      else .error (.complaint (wrongChoice switch.title value choices))
    | _, _ => take rest

/-- The number of words at the start that fill the place. -/
def filled (place : Place) (words : List (Word × String)) : Nat :=
  let isDashes (word : Word × String) : Bool := match word.1 with
    | .dashes => true
    | _ => false
  let dashes := (words.takeWhile isDashes).length
  match words.drop dashes, place with
  | (.plain _, _) :: _, .rest => words.length
  | (.plain _, _) :: rest, .one => dashes + 1 + (rest.takeWhile isDashes).length
  | _, _ => 0

/-- The words that fill the place, without the double dash that only marks one word as plain. -/
def fill (place : Place) (words : List String) : List String :=
  match place with
  | .one => words.erase "--"
  | .rest => words

/-- Reads the words from left to right. -/
def readWords (table : Table) (place : Option Place) :
    List (Word × String) → Except Stop Reading
  | [] => .ok ⟨[], [], []⟩
  | (.switch switch isShort joined, _) :: rest => do
    let next : Option String := match rest with
      | (.plain text, _) :: _ => some text
      | _ => none
    let cluster ← match joined with
      | none => readAlone next switch
      | some text => readJoined table next switch isShort text
    take cluster.given
    let reading ← readWords table place (if cluster.takesNext then rest.drop 1 else rest)
    return { reading with given := cluster.given ++ reading.given }
  | (.unknown text, _) :: rest => do
    let reading ← readWords table place rest
    return { reading with left := text :: reading.left }
  | (word, text) :: rest => do
    let count := match place with
      | some place => filled place ((word, text) :: rest)
      | none => 0
    match place, count with
    | some place, count + 1 =>
      let reading ← readWords table none (rest.drop count)
      return { reading with
        placed := fill place (text :: (rest.take count).map Prod.snd) ++ reading.placed }
    | _, _ =>
      let passed := rest.takeWhile (!·.1.isSwitch)
      let reading ← readWords table place (rest.drop passed.length)
      return { reading with left := text :: passed.map Prod.snd ++ reading.left }
termination_by words => words.length
decreasing_by
  all_goals simp only [List.length_cons]
  · split
    · simp only [List.length_drop]; omega
    · omega
  · omega
  · simp only [List.length_drop]; omega
  · simp only [List.length_drop]; omega

/-- Reads the arguments of a command. -/
def readArguments (table : Table) (place : Place) (arguments : List String) :
    Except Stop Reading := do
  readWords table (some place) (← classifyAll table arguments)

end GrammarChart.CommandLine
