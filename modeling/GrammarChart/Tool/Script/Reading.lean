import GrammarChart.Tool.Script.Basic

/-!
# Reading of scripts

A script is read line by line, because what a line does can come before a later line is found to
be wrong. A reader takes characters off the text that is left; words are read part by part, and
commands token by token with one token of foresight. Every reading function is given the number of
steps that it may take, which the length of the text bounds.
-/

set_option autoImplicit false

namespace GrammarChart.Tool

/-- The smallest piece that commands are read from. -/
inductive Token where
  | finish
  | newline
  | operator (text : String)
  | redirection (redirection : Redirection)
  | word (word : Word)

/-- Why a script is not understood, and the line where this was found. -/
structure Refusal where
  line : Nat
  message : String
  deriving Repr

/-- What is left of a script: its text, the number of the line where that starts, the token that
was looked at but not taken, the texts that stand for other commands, which of them are being
read, each with the length of the text behind it, and the length of the text that is left when the
next word may be one of them although no command starts there. -/
structure Source where
  rest : List Char
  line : Nat
  held : Option Token
  aliases : List (String × String)
  opened : List (String × Nat)
  reach : Option Nat

/-- A function that takes something off a script. -/
abbrev Reader := StateT Source (Except Refusal)

namespace Token

/-- The reserved word that a token is. -/
def reserved? : Token → Option String
  | .word parts => (plainText? parts).filter reservedWords.contains
  | _ => none

/-- A text between double quotation marks. -/
def inMarks (text : String) : String := "\x22" ++ text ++ "\x22"

/-- How a token is called in a refusal. -/
def description (token : Token) : String :=
  match token with
  | .finish => "end of file"
  | .newline => "newline"
  | .operator text => inMarks text
  | .redirection _ => "redirection"
  | .word _ => (token.reserved?.map inMarks).getD "word"

/-- The token is the given operator or reserved word. -/
def means (token : Token) (text : String) : Bool :=
  match token with
  | .operator sign => sign == text
  | token => token.reserved? == some text

/-- The token is a word. -/
def isWord : Token → Bool
  | .word _ => true
  | _ => false

/-- The token can only come after a list of commands. -/
def endsList (token : Token) : Bool :=
  match token with
  | .finish => true
  | token =>
    [";;", ")", "do", "done", "elif", "else", "esac", "fi", "then", "\x7d"].any token.means

end Token

namespace Script

/-- Refuses the script. -/
def refuse {α : Type} (message : String) : Reader α := do
  throw ⟨(← get).line, message⟩

/-- Refuses a token, where another one may have been expected. -/
def unexpected {α : Type} (token : Token) (wanted : Option String) : Reader α :=
  let expectation := match wanted with
    | some text => " (expecting " ++ text ++ ")"
    | none => ""
  refuse (token.description ++ " unexpected" ++ expectation)

/-- What is refused when the number of steps does not suffice. -/
def endless {α : Type} : Reader α := refuse "too deep"

/-- Takes the next character. -/
def next? : Reader (Option Char) :=
  modifyGet fun source =>
    match source.rest with
    | [] => (none, source)
    | '\n' :: rest => (some '\n', { source with rest := rest, line := source.line + 1 })
    | c :: rest => (some c, { source with rest := rest })

/-- Looks at the next character. -/
def peek? : Reader (Option Char) := do
  return (← get).rest.head?

/-- Takes the characters that pass a test. -/
def takeWhile (test : Char → Bool) : Reader (List Char) :=
  modifyGet fun source =>
    (source.rest.takeWhile test, { source with rest := source.rest.dropWhile test })

/-- Takes a text if it comes next. -/
def take? (text : String) : Reader Bool :=
  modifyGet fun source =>
    if text.toList.isPrefixOf source.rest then
      (true, { source with rest := source.rest.drop text.toList.length })
    else (false, source)

/-- Takes the first of some texts that comes next. -/
def takeFirst? : List String → Reader (Option String)
  | [] => return none
  | text :: rest => do if ← take? text then return some text else takeFirst? rest

/-- Skips what stands between two tokens: blanks, joined lines and a comment. -/
def skipBlanks : List Char → Nat → List Char × Nat
  | ' ' :: rest, line => skipBlanks rest line
  | '\t' :: rest, line => skipBlanks rest line
  | '\\' :: '\n' :: rest, line => skipBlanks rest (line + 1)
  | '#' :: rest, line => (rest.dropWhile (· != '\n'), line)
  | rest, line => (rest, line)

/-- Where the parts of a word stand, which decides what they end at and what is special. -/
inductive Setting where
  /-- Outside quotation marks. -/
  | bare
  /-- Between double quotation marks. -/
  | quoted
  /-- In the braces of a parameter. -/
  | braced (quoted : Bool)
  /-- In a sum, inside a number of its brackets. -/
  | sum (depth : Nat)
  /-- In a text that stands in the script. -/
  | document

namespace Setting

/-- Texts here count as quoted. -/
def isQuoted : Setting → Bool
  | .bare => false
  | .braced inMarks => inMarks
  | _ => true

/-- A backslash protects the character here. -/
def protects (setting : Setting) (c : Char) : Bool :=
  c == '$' || c == '\\' || c == '\x60' ||
    match setting with
    | .document => false
    | .braced _ => c == '\x22' || c == '\x7d'
    | _ => c == '\x22'

/-- The refusal of a script that ends here. -/
def refusal? : Setting → Option String
  | .bare => none
  | .document => none
  | .quoted => some "Unterminated quoted string"
  | .braced _ => some "Missing \x27\x7d\x27"
  | .sum _ => some "Missing \x27))\x27"

end Setting

/-- A character that ends a word. -/
def endsWord (c : Char) : Bool :=
  " \t\n;&|<>()".toList.contains c

/-- A word between double quotation marks is there even when it is empty, unless it stands for the
arguments. -/
def markQuoted (word : Word) : Word :=
  let isArguments : Part → Bool
    | .parameter "@" _ _ => true
    | _ => false
  if word.any isArguments then word else .text [] true :: word

/-- Takes the text up to the end of backquotes. -/
def readBackquoted (quoted : Bool) : Nat → Reader (List Char)
  | 0 => endless
  | n + 1 => do
    match ← next? with
    | none => refuse "EOF in backquote substitution"
    | some '\x60' => return []
    | some '\\' =>
      match ← next? with
      | none => return ['\\']
      | some c =>
        let rest ← readBackquoted quoted n
        if c == '\x60' || c == '\\' || c == '$' || (quoted && c == '\x22') then return c :: rest
        else return '\\' :: c :: rest
    | some c => return c :: (← readBackquoted quoted n)

/-- Takes the name of a parameter between braces. -/
def readName : Reader String := do
  match ← peek? with
  | none => return ""
  | some c =>
    if startsName c then return String.ofList (← takeWhile inName)
    else if c.isDigit then return String.ofList (← takeWhile Char.isDigit)
    else if isSpecialParameter c then
      discard next?
      return c.toString
    else return ""

/-- Lines up to the one that is the given end, and what comes after it. -/
def cutDocument (ending : List Char) (indented : Bool) : List (List Char) →
    List Char × List (List Char)
  | [] => ([], [])
  | line :: rest =>
    let line := if indented then line.dropWhile (· == '\t') else line
    if line = ending then ([], rest)
    else if rest.isEmpty then (line, [])
    else
      let (text, rest) := cutDocument ending indented rest
      (line ++ '\n' :: text, rest)

/-- The text of a word that ends a document. -/
def endingText (word : Word) : List Char :=
  word.flatMap fun
    | .text text _ => text
    | .parameter name _ _ => '$' :: name.toList
    | _ => []

/-- Takes the lines of a document, which follow the line that is being read. -/
def takeDocument (ending : List Char) (indented : Bool) : Reader (List Char) :=
  modifyGet fun source =>
    let line := source.rest.takeWhile (· != '\n')
    let lines := (source.rest.drop (line.length + 1)).splitOn '\n'
    let (text, after) := cutDocument ending indented lines
    (text, { source with rest := line ++ '\n' :: ['\n'].intercalate after })

/-- A word that assigns a value to a variable. -/
def assignment? (word : Word) : Option (String × Word) :=
  let letters := word.takeWhile fun
    | .text [c] false => inName c
    | _ => false
  let name := String.ofList (letters.flatMap fun part => (part.plainText?).getD [])
  match word.drop letters.length with
  | .text ['='] false :: value => if isName name then some (name, value) else none
  | _ => none

/-- Two commands one after the other. -/
def sequenced : Command → Command → Command
  | .empty, second => second
  | first, second => .sequence first second

/-- A command with redirections. -/
def redirectedBy (body : Command) (redirections : List Redirection) : Command :=
  if redirections.isEmpty then body else .redirected body redirections

/-- Where a list of commands stands, which decides what it ends at. -/
inductive Place where
  /-- On a line of its own. -/
  | line
  /-- In a command, where it is not empty. -/
  | body
  /-- In a command. -/
  | block

mutual

/-- Reads the parts of a word. -/
def readParts : Nat → Setting → Reader Word
  | 0, _ => endless
  | n + 1, setting => do
    let followed (parts : Word) : Reader Word := return parts ++ (← readParts n setting)
    let letter (c : Char) : Reader Word := followed [.text [c] setting.isQuoted]
    let isOpen := match setting with
      | .bare => true
      | .braced quoted => !quoted
      | _ => false
    match ← peek? with
    | none =>
      match setting.refusal? with
      | some message => refuse message
      | none => return []
    | some c =>
      if isOpen && (match setting with | .bare => endsWord c | _ => false) then return []
      discard next?
      match setting, c with
      | .quoted, '\x22' => return []
      | .braced _, '\x7d' => return []
      -- Brackets are counted within a sum, and two of them end it where none is open.
      | .sum 0, ')' => if ← take? ")" then return [] else letter c
      | .sum (depth + 1), ')' =>
        return .text [c] true :: (← readParts n (.sum depth))
      | .sum depth, '(' => return .text [c] true :: (← readParts n (.sum (depth + 1)))
      | _, '\\' =>
        match ← peek? with
        | none => return [.text ['\\'] true]
        -- A backslash at the end of a line joins the next one to it.
        | some '\n' =>
          discard next?
          readParts n setting
        | some escaped =>
          if isOpen || setting.protects escaped then
            discard next?
            followed [.text [escaped] true]
          else letter '\\'
      | _, '$' =>
        let part ← readDollar n setting.isQuoted
        followed [part]
      | _, '\x60' =>
        let text ← readBackquoted setting.isQuoted n
        let body ← readWhole n text
        followed [.output body setting.isQuoted]
      | _, '\x27' =>
        if !isOpen then letter c
        else
          let text ← takeWhile (· != '\x27')
          modify fun source => { source with line := source.line + text.count '\n' }
          if (← next?).isNone then refuse "Unterminated quoted string"
          followed [.text text true]
      | _, '\x22' =>
        if isOpen then
          let word ← readParts n .quoted
          followed (markQuoted word)
        else match setting with
          | .braced _ => readParts n setting
          | _ => letter c
      | _, _ => letter c

/-- Reads the part after a dollar sign. -/
def readDollar : Nat → Bool → Reader Part
  | 0, _ => endless
  | n + 1, quoted => do
    match ← peek? with
    | some '(' =>
      discard next?
      if ← take? "(" then return .sum (← readParts n (.sum 0)) quoted
      else
        let body ← readList n .block
        expect n ")"
        return .output body quoted
    | some '\x7b' =>
      discard next?
      readBraced n quoted
    | some c =>
      if startsName c then return .parameter (String.ofList (← takeWhile inName)) .value quoted
      else if c.isDigit || isSpecialParameter c then
        discard next?
        return .parameter c.toString .value quoted
      else return .text ['$'] quoted
    | none => return .text ['$'] quoted

/-- Reads a parameter between braces. -/
def readBraced : Nat → Bool → Reader Part
  | 0, _ => endless
  | n + 1, quoted => do
    let isLength := match (← get).rest with
      | '#' :: c :: rest =>
        inName c || (isSpecialParameter c && rest.head? == some '\x7d')
      | _ => false
    if isLength then
      discard next?
      let name ← readName
      if ← take? "\x7d" then return .parameter name .length quoted
      discard (readParts n (.braced quoted))
      return .parameter name .bad quoted
    let name ← readName
    if name = "" then
      discard (readParts n (.braced quoted))
      return .parameter name .bad quoted
    match ← takeFirst? ["\x7d", ":-", ":=", ":?", ":+", "-", "=", "?", "+", "%%", "%", "##",
        "#"] with
    | some "\x7d" => return .parameter name .value quoted
    | some sign =>
      let resort (resort : Resort) : Reader Part := do
        let word ← readParts n (.braced quoted)
        return .parameter name (.resort resort (sign.length == 2) word) quoted
      let without (atEnd : Bool) : Reader Part := do
        let pattern ← readParts n (.braced false)
        return .parameter name (.without atEnd (sign.length == 2) pattern) quoted
      match sign.toList.getLast? with
      | some '-' => resort .word
      | some '=' => resort .assign
      | some '?' => resort .stop
      | some '+' => resort .nothing
      | some '%' => without true
      | _ => without false
    | none =>
      discard (readParts n (.braced quoted))
      return .parameter name .bad quoted

/-- Reads a text that is a script of its own. -/
def readWhole : Nat → List Char → Reader Command
  | 0, _ => endless
  | n + 1, text => do
    let outer ← get
    set { outer with rest := text, held := none }
    let body ← readList n .block
    expectFinish n
    set outer
    return body

/-- Looks at the next token. -/
def peekToken : Nat → Reader Token
  | 0 => endless
  | n + 1 => do
    match (← get).held with
    | some token => return token
    | none =>
      let token ← readToken n
      modify fun source => { source with held := some token }
      return token

/-- Takes the next token. -/
def takeToken : Nat → Reader Token
  | 0 => endless
  | n + 1 => do
    let token ← peekToken n
    modify fun source => { source with held := none }
    return token

/-- Takes a token that has to come next. -/
def expect : Nat → String → Reader Unit
  | 0, _ => endless
  | n + 1, text => do
    let token ← peekToken n
    if token.means text then discard (takeToken n)
    else unexpected token (some (Token.inMarks text))

/-- Takes a closing bracket that has to come next, where no reserved words are known. -/
def expectClosing : Nat → Reader Unit
  | 0 => endless
  | n + 1 => do
    let token ← peekToken n
    if token.means ")" then discard (takeToken n)
    else if token.isWord then refuse "word unexpected (expecting \x22)\x22)"
    else unexpected token (some (Token.inMarks ")"))

/-- Refuses anything but the end. -/
def expectFinish : Nat → Reader Unit
  | 0 => endless
  | n + 1 => do
    match ← peekToken n with
    | .finish => return ()
    | token => unexpected token none

/-- Takes a token if it comes next. -/
def accept : Nat → String → Reader Bool
  | 0, _ => endless
  | n + 1, text => do
    if (← peekToken n).means text then
      discard (takeToken n)
      return true
    else return false

/-- Skips line ends. -/
def skipLines : Nat → Reader Unit
  | 0 => endless
  | n + 1 => do
    match ← peekToken n with
    | .newline =>
      discard (takeToken n)
      skipLines n
    | _ => return ()

/-- Reads a token. -/
def readToken : Nat → Reader Token
  | 0 => endless
  | n + 1 => do
    modify fun source =>
      let (rest, line) := skipBlanks source.rest source.line
      { source with rest := rest, line := line }
    match (← get).rest with
    | [] => return .finish
    | '\n' :: _ =>
      discard next?
      return .newline
    | c :: rest =>
      let next := rest.head?
      if c.isDigit && (next == some '<' || next == some '>') then
        discard next?
        return .redirection (← readRedirection n (some (c.toNat - 48)))
      else if c == '<' || c == '>' then return .redirection (← readRedirection n none)
      else match ← takeFirst? ["&&", "||", ";;", ";", "&", "|", "(", ")"] with
        | some operator => return .operator operator
        | none => return .word (← readParts n .bare)

/-- Reads a redirection of a descriptor, or of the usual one. -/
def readRedirection : Nat → Option Nat → Reader Redirection
  | 0, _ => endless
  | n + 1, descriptor => do
    let sign ← takeFirst? [">>", ">&", ">|", ">", "<<-", "<<", "<&", "<>", "<"]
    let sign := sign.getD ""
    let descriptor := descriptor.getD (if sign.startsWith "<" then 0 else 1)
    match ← readToken n with
    | .word word =>
      if sign = "<<" ∨ sign = "<<-" then
        let text ← takeDocument (endingText word) (sign = "<<-")
        if hasQuotation word then return .mk descriptor (.document [.text text true])
        let outer ← get
        set { outer with rest := text, held := none }
        let parts ← readParts n .document
        set outer
        return .mk descriptor (.document parts)
      else if sign = ">&" ∨ sign = "<&" then
        match plainText? word with
        | some text =>
          if text = "-" ∨ (text.length = 1 ∧ text.toList.all Char.isDigit) then
            return .mk descriptor (.copy word)
          else refuse "Bad fd number"
        | none => return .mk descriptor (.copy word)
      else
        let access : Access :=
          if sign.startsWith "<" then .input else if sign = ">>" then .append else .output
        return .mk descriptor (.file access word)
    | token => unexpected token none

/-- Reads redirections. -/
def readRedirections : Nat → Reader (List Redirection)
  | 0 => endless
  | n + 1 => do
    match ← peekToken n with
    | .redirection redirection =>
      discard (takeToken n)
      return redirection :: (← readRedirections n)
    | _ => return []

/-- Reads a list of commands. -/
def readList : Nat → Place → Reader Command
  | 0, _ => endless
  | n + 1, .block => do
    skipLines n
    if (← peekToken n).endsList then return .empty else readMore n .block .empty
  | n + 1, .body => do
    skipLines n
    match ← peekToken n with
    | .finish => return .empty
    | _ => readMore n .body .empty
  | n + 1, .line => readMore n .line .empty

/-- Reads one more command of a list, and the ones after it. -/
def readMore : Nat → Place → Command → Reader Command
  | 0, _, _ => endless
  | n + 1, place, before => do
    let command ← readAlternatives n
    let token ← peekToken n
    if token.means "&" || token.means ";" then
      discard (takeToken n)
      let command := if token.means "&" then .background command else command
      readRest n place (sequenced before command)
    else match token, place with
      | .finish, _ => return sequenced before command
      | .newline, _ => readRest n place (sequenced before command)
      | token, .line => unexpected token none
      | _, _ => return sequenced before command

/-- Reads what may follow in a list of commands. -/
def readRest : Nat → Place → Command → Reader Command
  | 0, _, _ => endless
  | n + 1, .line, before => do
    match ← peekToken n with
    | .newline =>
      discard (takeToken n)
      return before
    | .finish => return before
    | _ => readMore n .line before
  | n + 1, place, before => do
    skipLines n
    if (← peekToken n).endsList then return before else readMore n place before

/-- Reads pipelines of which each depends on the one before it. -/
def readAlternatives : Nat → Reader Command
  | 0 => endless
  | n + 1 => do readOthers n (← readPipeline n)

/-- Reads the pipelines that depend on a command. -/
def readOthers : Nat → Command → Reader Command
  | 0, _ => endless
  | n + 1, first => do
    if ← accept n "&&" then
      skipLines n
      readOthers n (.both first (← readPipeline n))
    else if ← accept n "||" then
      skipLines n
      readOthers n (.either first (← readPipeline n))
    else return first

/-- Reads a pipeline. -/
def readPipeline : Nat → Reader Command
  | 0 => endless
  | n + 1 => do
    let isNegated ← accept n "!"
    let first ← readCommand n
    let others ← readStages n
    let body := if others.isEmpty then first else .pipeline (first :: others)
    return if isNegated then .negation body else body

/-- Reads the commands that a pipeline goes on with. -/
def readStages : Nat → Reader (List Command)
  | 0 => endless
  | n + 1 => do
    if ← accept n "|" then
      skipLines n
      let stage ← readCommand n
      return stage :: (← readStages n)
    else return []

/-- Puts the text that a word stands for in the place of that word, where a command starts. Within
that text the word stands for itself. -/
def replaceAlias : Nat → Reader Unit
  | 0 => endless
  | n + 1 => do
    let token ← peekToken n
    let source ← get
    let name := match token with
      | .word word => (plainText? word).getD ""
      | _ => ""
    let left := source.rest.length
    let opened := source.opened.filter fun entry => entry.2 ≤ left
    match source.aliases.lookup name with
    | some text =>
      if opened.any (·.1 == name) then return ()
      let ending := (text.toList.reverse.takeWhile fun c => c == ' ' || c == '\t').length
      set { source with
        rest := text.toList ++ source.rest, held := none, opened := (name, left) :: opened
        reach := if ending = 0 then source.reach else some (left + ending) }
      replaceAlias n
    | none => return ()

/-- Reads a command. -/
def readCommand : Nat → Reader Command
  | 0 => endless
  | n + 1 => do
    replaceAlias n
    let token ← peekToken n
    let line := (← get).line
    let closed (body : Command) (ending : String) : Reader Command := do
      expect n ending
      return redirectedBy body (← readRedirections n)
    let opened : Reader Unit := discard (takeToken n)
    match token.reserved?, token with
    | some "if", _ =>
      opened
      closed (← readChoice n) "fi"
    | some "while", _ =>
      opened
      closed (← readLoop n false) "done"
    | some "until", _ =>
      opened
      closed (← readLoop n true) "done"
    | some "for", _ =>
      opened
      closed (← readIteration n) "done"
    | some "case", _ =>
      opened
      let body ← readSelection n
      return redirectedBy body (← readRedirections n)
    | some "\x7b", _ =>
      opened
      closed (.group (← readList n .body)) "\x7d"
    | some _, _ => unexpected token none
    | none, .operator "(" =>
      opened
      closed (.subshell (← readList n .body)) ")"
    | none, .word _ => readSimple n line [] [] []
    | none, .redirection _ => readSimple n line [] [] []
    | none, _ => unexpected token none

/-- Reads a choice after its first word. -/
def readChoice : Nat → Reader Command
  | 0 => endless
  | n + 1 => do
    let condition ← readList n .body
    expect n "then"
    let body ← readList n .body
    if ← accept n "elif" then return .choice condition body (← readChoice n)
    else if ← accept n "else" then return .choice condition body (← readList n .body)
    else return .choice condition body .empty

/-- Reads a loop after its first word. -/
def readLoop : Nat → Bool → Reader Command
  | 0, _ => endless
  | n + 1, isUntil => do
    let condition ← readList n .body
    expect n "do"
    return .loop isUntil condition (← readList n .body)

/-- Reads an iteration after its first word. -/
def readIteration : Nat → Reader Command
  | 0 => endless
  | n + 1 => do
    let name ← match ← takeToken n with
      | .word word => pure ((plainText? word).filter isName)
      | _ => pure none
    match name with
    | none => refuse "Bad for loop variable"
    | some name =>
      skipLines n
      let words ← if ← accept n "in" then do
          let words ← readWords n
          match ← takeToken n with
          | .newline => pure ()
          | .operator ";" => pure ()
          | token => unexpected token none
          pure (some words)
        else do
          discard (accept n ";")
          pure none
      skipLines n
      expect n "do"
      return .iteration name words (← readList n .body)

/-- Reads words. -/
def readWords : Nat → Reader (List Word)
  | 0 => endless
  | n + 1 => do
    match ← peekToken n with
    | .word word =>
      discard (takeToken n)
      return word :: (← readWords n)
    | _ => return []

/-- Reads a selection after its first word. -/
def readSelection : Nat → Reader Command
  | 0 => endless
  | n + 1 => do
    match ← takeToken n with
    | .word subject =>
      skipLines n
      expect n "in"
      return .selection subject (← readBranches n)
    | token => unexpected token (some "word")

/-- Reads the branches of a selection. -/
def readBranches : Nat → Reader (List (List Word × Command))
  | 0 => endless
  | n + 1 => do
    skipLines n
    if ← accept n "esac" then return []
    discard (accept n "(")
    let patterns ← readPatterns n
    expectClosing n
    let body ← readList n .block
    skipLines n
    if ← accept n ";;" then return (patterns, body) :: (← readBranches n)
    else if ← accept n "esac" then return [(patterns, body)]
    else unexpected (← peekToken n) (some (Token.inMarks ";;"))

/-- Reads the patterns of a branch. Whatever stands in the place of a pattern is taken for one. -/
def readPatterns : Nat → Reader (List Word)
  | 0 => endless
  | n + 1 => do
    let pattern : Word := match ← takeToken n with
      | .word word => word
      | _ => []
    if ← accept n "|" then return pattern :: (← readPatterns n) else return [pattern]

/-- Reads a simple command, of which the given parts have been read. -/
def readSimple : Nat → Nat → List (String × Word) → List Word → List Redirection →
    Reader Command
  | 0, _, _, _, _ => endless
  | n + 1, line, assignments, words, redirections => do
    let source ← get
    let isReached := source.reach.any fun reach => source.held.isNone && source.rest.length ≤ reach
    if isReached then set { source with reach := none }
    if words.isEmpty || isReached then replaceAlias n
    match ← peekToken n, words with
    | .word word, _ =>
      discard (takeToken n)
      match words.isEmpty, assignment? word with
      | true, some assignment =>
        readSimple n line (assignments ++ [assignment]) words redirections
      | _, _ => readSimple n line assignments (words ++ [word]) redirections
    | .redirection redirection, _ =>
      discard (takeToken n)
      readSimple n line assignments words (redirections ++ [redirection])
    | .operator "(", [name] =>
      if !assignments.isEmpty || !redirections.isEmpty then
        return .simple line assignments words redirections
      discard (takeToken n)
      expectClosing n
      match (plainText? name).filter fun name => isName name && !specialCommands.contains name with
      | none => refuse "Bad function name"
      | some name =>
        skipLines n
        return .definition name (← readCommand n)
    | _, _ => return .simple line assignments words redirections

end

/-- The number of steps that suffice for a text with the given aliases. -/
def steps (text : List Char) (aliases : List (String × String)) : Nat :=
  24 * (text.length + 4) *
    ((aliases.map fun entry => entry.2.length + 1).foldr (· + ·) 0 + 1)

/-- Reads the next line of a script: its commands, or nothing at the end. -/
def readLine : Reader (Option Command) := do
  let source ← get
  let n := steps source.rest source.aliases
  match ← peekToken n with
  | .finish => return none
  | .newline =>
    discard (takeToken n)
    return some .empty
  | _ => return some (← readList n .line)

end Script

/-- A script that starts with the given line. -/
def Source.ofText (text : String) (line : Nat) : Source :=
  ⟨text.toList, line, none, [], [], none⟩

end GrammarChart.Tool
