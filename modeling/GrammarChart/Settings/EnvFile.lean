import GrammarChart.Text.Blank

/-!
# Environment files

An environment file gives names and values, one binding to a statement:

* a name is a run of characters without blanks, equal signs and hash marks, or stands between
  single quotation marks, and may follow the word `export`;
* a value stands between quotation marks and may then go over several lines, or it is the rest of
  the line up to a comment; a name alone has no value;
* a statement that follows none of these forms is passed over up to the end of its line, and the
  line in which it starts is told.

Values may use other bindings, as in a name in braces after a dollar sign, with an optional
default.
-/

set_option autoImplicit false

namespace GrammarChart.EnvFile

open GrammarChart.Text

/-- A blank within a line. -/
def isLineBlank (c : Char) : Bool :=
  isBlank c && c != '\n' && c != '\r'

/-- The text without its leading blanks within the line. -/
def skipBlanks (text : List Char) : List Char :=
  text.dropWhile isLineBlank

/-- The characters up to the end of the line. -/
def lineRest (text : List Char) : List Char :=
  text.takeWhile fun c => c != '\n' && c != '\r'

/-- The text from the end of the line on. -/
def afterLine (text : List Char) : List Char :=
  text.dropWhile fun c => c != '\n' && c != '\r'

/-- Splits a text at the quotation mark that closes it, which is the first one that no backslash
escapes. -/
def splitQuotation (mark : Char) : List Char → Option (List Char × List Char)
  | [] => none
  | '\\' :: c :: rest =>
    (splitQuotation mark rest).map fun (body, after) => ('\\' :: c :: body, after)
  | c :: rest =>
    if c == mark then some ([], rest)
    else if c == '\\' then none
    else (splitQuotation mark rest).map fun (body, after) => (c :: body, after)

/-- The character that an escape in a quoted value stands for, by its letter. -/
def escapes (mark : Char) : List (Char × Char) :=
  let always := [('\\', '\\'), ('\x27', '\x27')]
  if mark == '\x22' then
    always ++ [('\x22', '\x22'), ('a', '\x07'), ('b', '\x08'), ('f', '\x0c'), ('n', '\n'),
      ('r', '\r'), ('t', '\t'), ('v', '\x0b')]
  else always

/-- Replaces the escapes of a quoted value; other backslashes stay. -/
def unescape (table : List (Char × Char)) : List Char → List Char
  | '\\' :: c :: rest =>
    match table.lookup c with
    | some d => d :: unescape table rest
    | none => '\\' :: unescape table (c :: rest)
  | c :: rest => c :: unescape table rest
  | [] => []

/-- A value without quotation marks, up to the comment that follows a blank. -/
def cutComment : List Char → List Char
  | [] => []
  | c :: rest =>
    if isBlank c && (rest.dropWhile isBlank).head? == some '#' then []
    else c :: cutComment rest

/-- The text without its blanks at the end. -/
def trimEnd (text : List Char) : List Char :=
  (text.reverse.dropWhile isBlank).reverse

/-- Reads a value, in front of which blanks may have been passed, and gives the text after it. A
hash mark after a blank starts a comment, and the value is empty then. -/
def readValue (afterBlank : Bool) (text : List Char) : Option (List Char × List Char) :=
  match text with
  | [] => some ([], text)
  | c :: rest =>
    if c == '\x27' || c == '\x22' then
      (splitQuotation c rest).map fun (body, after) => (unescape (escapes c) body, after)
    else if c == '\n' || c == '\r' || afterBlank && c == '#' then some ([], text)
    else some (trimEnd (cutComment (lineRest text)), afterLine text)

/-- Reads a name and gives the text after it. -/
def readName (text : List Char) : Option (List Char × List Char) :=
  match text with
  | '\x27' :: rest =>
    let name := rest.takeWhile (· != '\x27')
    match name, rest.dropWhile (· != '\x27') with
    | _ :: _, _ :: after => some (name, after)
    | _, _ => none
  | _ =>
    let inName (c : Char) : Bool := c != '=' && c != '#' && !isBlank c
    let name := text.takeWhile inName
    if name.isEmpty then none else some (name, text.dropWhile inName)

/-- The text without the word `export` before a name. -/
def skipExport (text : List Char) : List Char :=
  let word := "export".toList
  if word.isPrefixOf text then
    let rest := text.drop word.length
    if (rest.head?).any isLineBlank then skipBlanks rest else text
  else text

/-- The text after an optional comment and the end of its line, when nothing else comes before. -/
def endStatement (text : List Char) : Option (List Char) :=
  let rest := skipBlanks text
  let rest := if rest.head? == some '#' then afterLine rest else rest
  match rest with
  | [] => some []
  | '\r' :: '\n' :: after => some after
  | '\n' :: after => some after
  | '\r' :: after => some after
  | _ => none

/-- Names with the values that are bound to them, if any, in order. -/
abbrev Bindings := List (String × Option String)

/-- What a statement does: it binds a name to a value, if it has one, it is empty or a comment, or
it follows no form. -/
inductive Statement where
  | binds (name : String) (value : Option String)
  | empty
  | malformed
  deriving DecidableEq, Repr

/-- The text after a statement that could not be read, from where reading it stopped. -/
def passOver (text : List Char) : List Char :=
  (afterLine text).drop 1

/-- Ends a statement, and gives the text after it. -/
def finish (statement : Statement) (text : List Char) : Statement × List Char :=
  match endStatement text with
  | some after => (statement, after)
  | none => (.malformed, passOver text)

/-- Reads one statement and gives the text after it. -/
def readStatement (text : List Char) : Statement × List Char :=
  let start := text.dropWhile isBlank
  let named := skipExport start
  if start.isEmpty then (.empty, [])
  else if named.head? == some '#' then finish .empty named
  else match readName named with
    | none => (.malformed, passOver named)
    | some (name, rest) =>
      let key := String.ofList name
      match skipBlanks rest with
      | '=' :: rest =>
        let start := skipBlanks rest
        match readValue ((rest.head?).any isLineBlank) start with
        | some (value, after) => finish (.binds key (some (String.ofList value))) after
        | none => (.malformed, passOver start)
      | rest => finish (.binds key none) rest

/-- The number of line ends in a text. -/
def lineEnds : List Char → Nat
  | '\r' :: '\n' :: rest => lineEnds rest + 1
  | c :: rest => lineEnds rest + if c == '\n' || c == '\r' then 1 else 0
  | [] => 0

/-- The statements of a text that starts in the given line, at most the given number of them, each
with the line in which it starts. -/
def readStatements : Nat → Nat → List Char → List (Nat × Statement)
  | count + 1, line, c :: text =>
    let (statement, rest) := readStatement (c :: text)
    let taken := (c :: text).take ((c :: text).length - rest.length)
    (line, statement) :: readStatements count (line + lineEnds taken) rest
  | _, _, _ => []

/-- The statements of an environment file in order, without a mark of byte order at its start.
Every statement takes a character. -/
def statements (text : String) : List (Nat × Statement) :=
  let characters := match text.toList with
    | '\uFEFF' :: rest => rest
    | all => all
  readStatements characters.length 1 characters

/-- The bindings of an environment file in order. -/
def bindings (text : String) : Bindings :=
  (statements text).filterMap fun (_, statement) =>
    match statement with
    | .binds name value => some (name, value)
    | _ => none

/-- What is told about the statements of an environment file that follow no form. -/
def warnings (text : String) : List String :=
  (statements text).filterMap fun (line, statement) =>
    if statement = .malformed then
      some ("python-dotenv could not parse statement starting at line " ++ toString line)
    else none

/-- A part of a value: characters as they are, or a use of another binding with its default. -/
inductive Atom where
  | literal (c : Char)
  | variable (name : List Char) (default : List Char)

/-- The use of a binding at the start of a text that follows a dollar sign, and the text after
it. -/
def readUse (text : List Char) : Option (Atom × List Char) :=
  match text with
  | '\x7b' :: rest =>
    let inName (c : Char) : Bool := c != '\x7d' && c != ':'
    let name := rest.takeWhile inName
    match rest.dropWhile inName with
    | '\x7d' :: after => some (.variable name [], after)
    | ':' :: '-' :: rest =>
      match rest.dropWhile (· != '\x7d') with
      | _ :: after => some (.variable name (rest.takeWhile (· != '\x7d')), after)
      | [] => none
    | _ => none
  | _ => none

/-- The parts of a value, at most the given number of them. -/
def atoms : Nat → List Char → List Atom
  | count + 1, c :: rest =>
    if c == '$' then
      match readUse rest with
      | some (use, after) => use :: atoms count after
      | none => .literal c :: atoms count rest
    else .literal c :: atoms count rest
  | _, _ => []

/-- The names that a value uses. -/
def uses (value : String) : List String :=
  (atoms value.length value.toList).filterMap fun atom =>
    match atom with
    | .literal _ => none
    | .variable name _ => some (String.ofList name)

/-- The names that an environment file binds or uses. -/
def names (text : String) : List String :=
  (bindings text).flatMap fun (name, value) => name :: ((value.map uses).getD [])

/-- A value with every use of a binding replaced. -/
def expand (lookup : String → Option String) (value : String) : String :=
  String.join ((atoms value.length value.toList).map fun atom =>
    match atom with
    | .literal c => c.toString
    | .variable name default => (lookup (String.ofList name)).getD (String.ofList default))

end GrammarChart.EnvFile
