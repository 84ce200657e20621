/-!
# The words given to a utility

A utility is given options and operands in any order. An option is a letter, alone or together with
others after one hyphen, or a long name after two hyphens; some options take a value. After two
hyphens alone there are no more options.
-/

set_option autoImplicit false

namespace GrammarChart.Tool.Shell

/-- The options that a utility knows: letters without values, letters with values, letters that may
have one joined to them, and the long names of letters. -/
structure Known where
  plain : List Char
  valued : List Char
  joined : List Char
  long : List (String × Char)

/-- Options that have been read, with the values of those that take one, and operands. -/
structure Given where
  options : List (Char × String)
  operands : List String
  deriving Repr

/-- What is wrong with an option. -/
inductive WrongOption where
  | unknown (letter : Char)
  | noValue (letter : Char)
  | unknownName (text : String)
  | ambiguous (text : String) (names : List String)
  | noValueOfName (name : String)
  | valueOfName (name : String)
  deriving DecidableEq, Repr

/-- What is said about a wrong option. -/
def WrongOption.message : WrongOption → String
  | .unknown letter => "invalid option -- \x27" ++ letter.toString ++ "\x27"
  | .noValue letter => "option requires an argument -- \x27" ++ letter.toString ++ "\x27"
  | .unknownName text => "unrecognized option \x27" ++ text ++ "\x27"
  | .ambiguous text names =>
    "option \x27" ++ text ++ "\x27 is ambiguous; possibilities:" ++
      String.join (names.map fun name => " \x27--" ++ name ++ "\x27")
  | .noValueOfName name => "option \x27--" ++ name ++ "\x27 requires an argument"
  | .valueOfName name => "option \x27--" ++ name ++ "\x27 doesn\x27t allow an argument"

namespace Given

/-- Puts an option in front. -/
def withOption (letter : Char) (value : String) (given : Given) : Given :=
  { given with options := (letter, value) :: given.options }

/-- An option is there. -/
def has (given : Given) (letter : Char) : Bool :=
  given.options.any fun option => option.1 == letter

/-- The value of an option that was given last. -/
def value? (given : Given) (letter : Char) : Option String :=
  given.options.reverse.lookup letter

/-- The values of an option. -/
def values (given : Given) (letter : Char) : List String :=
  (given.options.filter fun option => option.1 == letter).map Prod.snd

/-- The last of some letters that was given. -/
def last? (given : Given) (letters : List Char) : Option Char :=
  (given.options.reverse.find? fun option => letters.contains option.1).map Prod.fst

end Given

/-- Reads the letters after a hyphen, with the words that follow for their values. -/
def Known.readLetters (known : Known) :
    List Char → List String → Except WrongOption (List (Char × String) × List String)
  | [], words => .ok ([], words)
  | letter :: letters, words =>
    if known.valued.contains letter then
      match letters, words with
      | [], [] => .error (.noValue letter)
      | [], word :: words => .ok ([(letter, word)], words)
      | letters, words => .ok ([(letter, String.ofList letters)], words)
    else if known.joined.contains letter then .ok ([(letter, String.ofList letters)], words)
    else if known.plain.contains letter then
      (known.readLetters letters words).map fun (options, words) =>
        ((letter, "") :: options, words)
    else .error (.unknown letter)

/-- Reads a long name after two hyphens, with the words that follow for its value. A name may be
cut short where that is clear. -/
def Known.readName (known : Known) (text : String) (words : List String) :
    Except WrongOption ((Char × String) × List String) :=
  let stem := String.ofList (text.toList.takeWhile (· != '='))
  let value := (text.toList.drop (stem.length + 1))
  let hasValue := stem.length < text.length
  let found := known.long.filter fun entry => entry.1.startsWith stem
  let chosen := match known.long.lookup stem, found with
    | some letter, _ => some (stem, letter)
    | none, first :: rest => if rest.all (·.2 == first.2) then some first else none
    | none, [] => none
  match chosen with
  | none =>
    if found.isEmpty then .error (.unknownName ("--" ++ stem))
    else .error (.ambiguous ("--" ++ text)
      ((found.map Prod.fst).mergeSort fun a b => decide (a ≤ b)))
  | some (name, letter) =>
    if known.valued.contains letter then
      if hasValue then .ok ((letter, String.ofList value), words)
      else match words with
        | word :: words => .ok ((letter, word), words)
        | [] => .error (.noValueOfName name)
    else if hasValue && !known.joined.contains letter then .error (.valueOfName name)
    else .ok ((letter, String.ofList value), words)

/-- Reads words, at most as many as the given number. -/
def Known.readWords (known : Known) : Nat → List String → Except WrongOption Given
  | _, [] => .ok ⟨[], []⟩
  | 0, _ => .ok ⟨[], []⟩
  | n + 1, word :: words =>
    match word.toList with
    | ['-', '-'] => .ok ⟨[], words⟩
    | '-' :: '-' :: name =>
      match known.readName (String.ofList name) words with
      | .ok ((letter, value), words) => (known.readWords n words).map (·.withOption letter value)
      | .error wrong => .error wrong
    | '-' :: letter :: letters =>
      match known.readLetters (letter :: letters) words with
      | .ok (options, words) =>
        (known.readWords n words).map fun given =>
          options.foldr (fun option given => given.withOption option.1 option.2) given
      | .error wrong => .error wrong
    | _ =>
      (known.readWords n words).map fun given =>
        { given with operands := word :: given.operands }

/-- The options and the operands among words. -/
def Known.read (known : Known) (words : List String) : Except WrongOption Given :=
  known.readWords words.length words

end GrammarChart.Tool.Shell
