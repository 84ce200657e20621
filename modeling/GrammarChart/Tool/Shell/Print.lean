import GrammarChart.Tool.Shell.Real

/-!
# Printing by a format

The escapes that stand for octets, and formats whose directives take in arguments one after the
other. A format is used again while arguments are left.
-/

set_option autoImplicit false

namespace GrammarChart.Tool.Shell

/-- The octet that a one-letter escape stands for. -/
def escapedLetter? (c : Char) : Option Char :=
  [('a', '\x07'), ('b', '\x08'), ('e', '\x1b'), ('f', '\x0c'), ('n', '\n'), ('r', '\x0d'),
    ('t', '\t'), ('v', '\x0b'), ('\\', '\\'), ('\x22', '\x22')].lookup c

/-- Reads at most a number of octal digits. -/
def readOctal : Nat → Nat → List Char → Nat × List Char
  | count + 1, value, c :: rest =>
    match Sum.digit? 8 c with
    | some d => readOctal count (value * 8 + d) rest
    | none => (value, c :: rest)
  | _, value, text => (value, text)

/-- Reads an escape after its backslash. -/
def readEscape (text : List Char) : List Char × List Char :=
  match text with
  | c :: rest =>
    if (Sum.digit? 8 c).isSome then
      let (value, rest) := readOctal 3 0 text
      ([Char.ofNat (value % 256)], rest)
    else match escapedLetter? c with
      | some letter => ([letter], rest)
      | none => (['\\'], text)
  | [] => (['\\'], [])

/-- A text with its escapes replaced, and whether it went on to its end: an escape can end it. In
such a text an octal number may start with one more zero. -/
def unescape : Nat → List Char → List Char × Bool
  | n + 1, '\\' :: rest =>
    match rest with
    | 'c' :: _ => ([], false)
    | _ =>
      let digits := match rest with
        | '0' :: d :: more => if (Sum.digit? 8 d).isSome then d :: more else rest
        | rest => rest
      let (letters, rest) := readEscape digits
      let (more, isWhole) := unescape n rest
      (letters ++ more, isWhole)
  | n + 1, c :: rest =>
    let (more, isWhole) := unescape n rest
    (c :: more, isWhole)
  | _, _ => ([], true)

/-- The text of an argument with its escapes replaced, and whether it went on to its end. -/
def unescaped (text : String) : List Char × Bool :=
  unescape (text.length + 1) text.toList

/-- What printing leaves: the text, the arguments that are left, the complaints about arguments,
whether it ended early, and the reason when the format is refused. -/
structure Printed where
  text : List Char
  left : List String
  complaints : List String
  stopped : Bool
  refusal : Option String

/-- The number of an argument, and the complaints about it. -/
def argumentNumber (argument : String) : Int × List String :=
  match argument.toList with
  | '\x27' :: c :: _ => (c.toNat, [])
  | '\x22' :: c :: _ => (c.toNat, [])
  | letters =>
    let unsigned := letters.dropWhile (· == ' ')
    let (negated, digits) := match unsigned with
      | '-' :: rest => (true, rest)
      | '+' :: rest => (false, rest)
      | rest => (false, rest)
    if (digits.head?.map Char.isDigit).getD false then
      let (value, rest) := Sum.readNumber digits
      (if negated then -(value : Int) else value, numberComplaint argument rest true)
    else (0, numberComplaint argument letters false)

/-- Reads a number of a layout, which may be an argument. -/
def readCount (text : List Char) (arguments : List String) :
    Option Int × List Char × List String :=
  match text with
  | '*' :: rest => (some (argumentNumber (arguments.headD "")).1, rest, arguments.drop 1)
  | text =>
    let digits := text.takeWhile Char.isDigit
    (if digits.isEmpty then none else some (Sum.numberOf 10 digits), text.drop digits.length,
      arguments)

/-- Reads a layout. -/
def readLayout (text : List Char) (arguments : List String) :
    Layout × List Char × List String :=
  let isFlag (c : Char) : Bool := "#-+ 0".toList.contains c
  let flags := text.takeWhile isFlag
  let (width, text, arguments) := readCount (text.dropWhile isFlag) arguments
  let width := width.getD 0
  let flags := if width < 0 then '-' :: flags else flags
  match text with
  | '.' :: rest =>
    let (places, rest, arguments) := readCount rest arguments
    let places := places.getD 0
    (⟨flags, width.natAbs, if places < 0 then none else some places.toNat⟩, rest, arguments)
  | text => (⟨flags, width.natAbs, none⟩, text, arguments)

/-- What a directive prints for an argument: the text, the complaints, and whether printing goes
on; nothing when there is no such directive. -/
def directive (layout : Layout) (letter : Char) (argument : String) :
    Option (List Char × List String × Bool) :=
  let (number, complaints) := argumentNumber argument
  if letter == 's' then some (layout.placeText argument.toList, [], true)
  else if letter == 'b' then
    let (text, isWhole) := unescaped argument
    some (layout.placeText text, [], isWhole)
  else if letter == 'c' then some (layout.pad [argument.toList.headD '\x00'], [], true)
  else if letter == 'd' || letter == 'i' then
    some (layout.placeInt (max (min number 9223372036854775807) (-9223372036854775808)),
      complaints, true)
  else if letter == 'o' || letter == 'u' || letter == 'x' || letter == 'X' then
    let value := (number % 18446744073709551616).toNat
    some (layout.placeNat letter value, complaints, true)
  else if "aAeEfFgG".toList.contains letter then
    let (real, complaints) := argumentReal argument
    some (layout.placeReal letter real, complaints, true)
  else none

/-- Prints arguments by a format once. -/
def printOnce : Nat → List Char → List String → Printed
  | n + 1, '\\' :: rest, arguments =>
    let (letters, rest) := readEscape rest
    let more := printOnce n rest arguments
    { more with text := letters ++ more.text }
  | n + 1, '%' :: '%' :: rest, arguments =>
    let more := printOnce n rest arguments
    { more with text := '%' :: more.text }
  | n + 1, '%' :: rest, arguments =>
    let (layout, after, arguments) := readLayout rest arguments
    match after with
    | [] => ⟨[], arguments, [], true, some "missing format character"⟩
    | letter :: after =>
      match directive layout letter (arguments.headD "") with
      | none =>
        let shown := ('%' :: rest).take (rest.length + 1 - after.length)
        ⟨[], arguments, [], true, some (String.ofList shown ++ ": invalid directive")⟩
      | some (text, complaints, goesOn) =>
        if goesOn then
          let more := printOnce n after (arguments.drop 1)
          { more with text := text ++ more.text, complaints := complaints ++ more.complaints }
        else ⟨text, arguments.drop 1, complaints, true, none⟩
  | n + 1, c :: rest, arguments =>
    let more := printOnce n rest arguments
    { more with text := c :: more.text }
  | _, _, arguments => ⟨[], arguments, [], false, none⟩

/-- Prints arguments by a format, which is used again while it takes in arguments. -/
def print (format : List Char) : Nat → List String → Printed
  | 0, arguments => ⟨[], arguments, [], false, none⟩
  | rounds + 1, arguments =>
    let printed := printOnce (format.length + 1) format arguments
    if printed.stopped || printed.left.isEmpty || printed.left.length = arguments.length then
      printed
    else
      let more := print format rounds printed.left
      { more with
        text := printed.text ++ more.text
        complaints := printed.complaints ++ more.complaints }

end GrammarChart.Tool.Shell
