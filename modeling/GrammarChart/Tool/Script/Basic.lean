/-!
# Scripts

The commands of a script and the words they are made of. A word consists of texts, parameters,
outputs of commands and sums; each part knows whether quotation marks stand around it, because a
quoted part is neither split nor taken as a pattern.
-/

set_option autoImplicit false

namespace GrammarChart.Tool

/-- What is taken when a parameter is unset. -/
inductive Resort where
  /-- A word in its place. -/
  | word
  /-- A word, which the parameter is set to. -/
  | assign
  /-- The end of the script with a message. -/
  | stop
  /-- Nothing; a word stands for a parameter that is set. -/
  | nothing
  deriving DecidableEq, Repr

/-- How a file is opened. -/
inductive Access where
  | input
  | output
  | append
  deriving DecidableEq, Repr

mutual

/-- A part of a word. -/
inductive Part where
  | text (text : List Char) (quoted : Bool)
  | parameter (name : String) (use : Use) (quoted : Bool)
  | output (body : Command) (quoted : Bool)
  | sum (expression : List Part) (quoted : Bool)

/-- What is made of the value of a parameter. -/
inductive Use where
  | value
  | length
  | resort (resort : Resort) (orEmpty : Bool) (word : List Part)
  | without (atEnd longest : Bool) (pattern : List Part)
  | bad

/-- What a descriptor is redirected to: a file, another descriptor, or a text. -/
inductive Target where
  | file (access : Access) (name : List Part)
  | copy (source : List Part)
  | document (text : List Part)

/-- A redirection of a descriptor. -/
inductive Redirection where
  | mk (descriptor : Nat) (target : Target)

/-- A command of a script. -/
inductive Command where
  | empty
  | simple (line : Nat) (assignments : List (String × List Part)) (words : List (List Part))
      (redirections : List Redirection)
  | negation (body : Command)
  | pipeline (stages : List Command)
  | both (first second : Command)
  | either (first second : Command)
  | sequence (first second : Command)
  | background (body : Command)
  | redirected (body : Command) (redirections : List Redirection)
  | group (body : Command)
  | subshell (body : Command)
  | choice (condition body otherwise : Command)
  | loop (isUntil : Bool) (condition body : Command)
  | iteration (name : String) (words : Option (List (List Part))) (body : Command)
  | selection (subject : List Part) (branches : List (List (List Part) × Command))
  | definition (name : String) (body : Command)

end

/-- A word of a script. -/
abbrev Word := List Part

/-- A character that starts a name. -/
def startsName (c : Char) : Bool :=
  c.isAlpha || c == '_'

/-- A character of a name. -/
def inName (c : Char) : Bool :=
  c.isAlphanum || c == '_'

/-- The text is a name of a variable. -/
def isName (text : String) : Bool :=
  text.toList.all inName && (text.toList.head?.map startsName).getD false

/-- The character is a parameter by itself. -/
def isSpecialParameter (c : Char) : Bool :=
  "!#$*-?@".toList.contains c

/-- The words that have a meaning where a command starts. -/
def reservedWords : List String :=
  ["!", "case", "do", "done", "elif", "else", "esac", "fi", "for", "if", "in", "then", "until",
    "while", "\x7b", "\x7d"]

/-- The commands that belong to the language itself. -/
def specialCommands : List String :=
  [".", ":", "break", "continue", "eval", "exec", "exit", "export", "local", "readonly", "return",
    "set", "shift", "times", "trap", "unset"]

/-- The text of a part without quotation marks and without anything to replace. -/
def Part.plainText? : Part → Option (List Char)
  | .text letters false => some letters
  | _ => none

/-- The text of a word without quotation marks and without anything to replace. -/
def plainText? (word : Word) : Option String :=
  (word.mapM Part.plainText?).map fun texts => String.ofList texts.flatten

/-- Quotation marks stand around the part. -/
def Part.isQuoted : Part → Bool
  | .text _ quoted => quoted
  | .parameter _ _ quoted => quoted
  | .output _ quoted => quoted
  | .sum _ quoted => quoted

/-- A part of the word has quotation marks around it. -/
def hasQuotation (word : Word) : Bool :=
  word.any Part.isQuoted

end GrammarChart.Tool
