import GrammarChart.Tool.Edit.Basic

/-!
# Running edit scripts

A script is run line by line. What it writes is kept with the number of the file whose line was
being edited, so that files can be edited one by one. A run ends with a status, or it does not end
in the steps that it is given.
-/

set_option autoImplicit false

namespace GrammarChart.Tool.Edit

/-- A line of the input: its text, whether its end is there, and the number and the name of its
file. -/
structure Line where
  text : List Char
  hasEnd : Bool
  file : Nat
  name : String

/-- How a script is run. -/
structure Manner where
  isQuiet : Bool
  /-- The files are edited one by one. -/
  isSeparate : Bool
  /-- The character between lines. -/
  ending : Char
  /-- The width of listed lines. -/
  width : Nat
  /-- The texts of files. -/
  contents : String → Option (List Char)

/-- Whether a range of lines has started, and where it ends. -/
inductive Range where
  | closed
  | upTo (number : Nat)
  | open
  deriving DecidableEq, Repr

/-- A text that is written before the next line is read. -/
inductive Waiting where
  | text (text : List Char)
  | file (path : String)
  | lineOf (path : String)

/-- The state of a run. -/
structure State where
  rest : List Line
  number : Nat
  line : Line
  space : List Char
  /-- The end of the line in the pattern space is there. -/
  hasEnd : Bool
  held : List Char
  /-- The end of the text that is held is there. -/
  heldEnd : Bool
  isReplaced : Bool
  waiting : List Waiting
  ranges : Array Range
  /-- The expression that was looked for last. -/
  recent : Option Matcher
  /-- What has been written for each file, backwards. -/
  written : List (Nat × List Char)
  /-- The end of the last line that was written is missing. -/
  isOpen : Bool
  /-- What has been written to other files, backwards, with whether its end is there. -/
  targets : List (String × List Char × Bool)
  /-- What has not been read yet of other files. -/
  sources : List (String × List Char)

/-- How a run ends. -/
inductive Outcome where
  | finished (status : Nat) (state : State)
  | noExpression (state : State)
  | endless

namespace State

/-- Writes characters. -/
def emit (state : State) (letters : List Char) : State :=
  { state with written := (state.line.file, letters) :: state.written }

/-- Adds the end of the last line if it is missing. -/
def closeLine (manner : Manner) (state : State) : State :=
  if state.isOpen then { state.emit [manner.ending] with isOpen := false } else state

/-- Writes a text that has its own end. -/
def emitText (manner : Manner) (state : State) (text : List Char) : State :=
  (state.closeLine manner).emit text

/-- Writes a line, with the end that the line in the pattern space has. -/
def emitLine (manner : Manner) (state : State) (text : List Char) : State :=
  let state := state.closeLine manner
  if state.hasEnd then state.emit (text ++ [manner.ending])
  else { state.emit text with isOpen := true }

/-- Writes a line to another file, or to the output. -/
def emitTo (manner : Manner) (state : State) (path : String) (text : List Char) (hasEnd : Bool) :
    State :=
  if path = "/dev/stdout" then state.emitLine manner text
  else
    let isOpen := ((state.targets.find? fun entry => entry.1 == path).map
      fun entry => !entry.2.2).getD false
    let start := if isOpen then [manner.ending] else []
    let ending := if hasEnd then [manner.ending] else []
    { state with targets := (path, start ++ text ++ ending, hasEnd) :: state.targets }

/-- Splits a text into lines. -/
def linesOf (ending : Char) (text : List Char) : List (List Char) :=
  let lines := text.splitOn ending
  if lines.getLast? = some [] then lines.dropLast else lines

/-- Writes one of the texts that wait. -/
def emitWaiting (manner : Manner) (state : State) : Waiting → State
  | .text text => state.emitText manner text
  | .file path =>
    state.emitText manner ((manner.contents path).getD [])
  | .lineOf path =>
    let text := (state.sources.lookup path).getD ((manner.contents path).getD [])
    let line := text.takeWhile (· != manner.ending)
    let line := line ++ (text.drop line.length).take 1
    let others := state.sources.filter fun entry => entry.1 != path
    if line.isEmpty then state
    else { state.emitText manner line with
      sources := (path, text.drop line.length) :: others }

/-- Writes the texts that wait. -/
def flush (manner : Manner) (state : State) : State :=
  { state.waiting.reverse.foldl (emitWaiting manner) state with waiting := [] }

/-- The present line is the last one. -/
def isLast (manner : Manner) (state : State) : Bool :=
  match state.rest with
  | [] => true
  | next :: _ => manner.isSeparate && next.file ≠ state.line.file

/-- The state before the first line of a file. -/
def startFile (script : Script) (state : State) : State :=
  { state with
    number := 0
    ranges := script.instructions.map fun instruction =>
      if let some (.line 0) := instruction.guard.first then .open else .closed }

/-- Goes on to the next line, if there is one. -/
def advance (script : Script) (manner : Manner) (state : State) : Option (Line × State) :=
  match state.rest with
  | [] => none
  | line :: rest =>
    let state := state.flush manner
    let isNew := manner.isSeparate && line.file ≠ state.line.file
    let state := if isNew then { state.startFile script with isOpen := false } else state
    some (line, { state with
      rest := rest, number := state.number + 1, line := line, hasEnd := line.hasEnd
      isReplaced := false })

end State

/-- A place at which a matcher finds something. -/
def Matcher.find? (matcher : Matcher) (text : List Char) (start : Nat) :
    Option (Nat × Found) :=
  matcher.regular.find? ⟨text.toArray, matcher.ignoresCase, matcher.hasLines⟩ start
    fun _ _ => true

/-- The address chooses the present line. Nothing is told when there is no expression to look
for. -/
def Address.chooses (manner : Manner) (state : State) (address : Address) :
    Option (Bool × State) :=
  match address with
  | .line number => some (state.number == number, state)
  | .last => some (state.isLast manner, state)
  | .step first factor =>
    some (first ≤ state.number && (state.number - first) % factor == 0, state)
  | .matching matcher =>
    (matcher.or state.recent).map fun matcher =>
      ((matcher.find? state.space 0).isSome, { state with recent := some matcher })

/-- The range that starts at the present line. -/
def Limit.range (number : Nat) : Limit → Range
  | .there (.line last) => if last ≤ number then .closed else .upTo last
  | .there (.step first factor) =>
    if first ≤ number ∧ (number - first) % factor = 0 then .closed else .open
  | .there _ => .open
  | .after count => if count = 0 then .closed else .upTo (number + count)
  | .multiple factor =>
    if factor = 0 ∨ number % factor = 0 then .closed else .upTo ((number / factor + 1) * factor)

/-- The guard of the instruction with a number chooses the present line. -/
def Guard.chooses (manner : Manner) (index : Nat) (state : State) (guard : Guard) :
    Option (Bool × State) :=
  let setRange (state : State) (range : Range) : State :=
    { state with ranges := state.ranges.modify index fun _ => range }
  let chosen : Option (Bool × State) :=
    match guard.first, guard.limit with
    | none, _ => some (true, state)
    | some first, none => first.chooses manner state
    | some first, some limit =>
      match (state.ranges[index]?).getD .closed with
      | .closed =>
        (first.chooses manner state).map fun (isChosen, state) =>
          (isChosen, if isChosen then setRange state (limit.range state.number) else state)
      | .upTo last =>
        some (state.number ≤ last,
          if last ≤ state.number then setRange state .closed else state)
      | .open =>
        match limit with
        | .there final =>
          (final.chooses manner state).map fun (isLast, state) =>
            (true, if isLast then setRange state .closed else state)
        | _ => some (true, state)
  chosen.map fun (isChosen, state) => (isChosen != guard.isNegated, state)

/-- What case letters are put into. -/
structure Casing where
  next : CaseChange
  all : CaseChange

/-- A letter in the case that is asked for. -/
def Casing.apply (casing : Casing) (c : Char) : Char :=
  match casing.next, casing.all with
  | .nextUpper, _ => c.toUpper
  | .nextLower, _ => c.toLower
  | _, .upper => c.toUpper
  | _, .lower => c.toLower
  | _, _ => c

/-- Puts letters into a case. -/
def Casing.applyAll (casing : Casing) : List Char → List Char × Casing
  | [] => ([], casing)
  | c :: rest =>
    let after : Casing := { casing with next := .plain }
    (casing.apply c :: (after.applyAll rest).1, (after.applyAll rest).2)

/-- The text that replaces a part that was found. -/
def replacement (space : List Char) (first : Nat) (found : Found) :
    Casing → List Part → List Char
  | _, [] => []
  | casing, .letter c :: rest =>
    casing.apply c :: replacement space first found { casing with next := .plain } rest
  | casing, .change change :: rest =>
    let casing : Casing := match change with
      | .nextUpper => { casing with next := .nextUpper }
      | .nextLower => { casing with next := .nextLower }
      | change => { casing with all := change }
    replacement space first found casing rest
  | casing, .group number :: rest =>
    let (start, last) := if number = 0 then (first, found.place)
      else (found.groups.lookup number).getD (0, 0)
    let taken := (space.take last).drop start
    let (shown, casing) := casing.applyAll taken
    shown ++ replacement space first found casing rest

/-- Replaces parts of a text from a place on, in at most the given number of steps; so many have
been passed over, and the last part that was found and is not empty ends at the given place. -/
def replaced (substitution : Substitution) (matcher : Matcher) (space : List Char) :
    Nat → Nat → Nat → Option Nat → List Char × Bool
  | 0, start, _, _ => (space.drop start, false)
  | n + 1, start, passed, ended =>
    match matcher.find? space start with
    | none => (space.drop start, false)
    | some (first, found) =>
      let before := (space.take first).drop start
      if first = found.place ∧ ended = some first then
        let (rest, isReplaced) :=
          if first < space.length then replaced substitution matcher space n (first + 1) passed none
          else ([], false)
        (before ++ (space.drop first).take 1 ++ rest, isReplaced)
      else
        let isTaken := substitution.number ≤ passed + 1
        let shown := if isTaken then
            replacement space first found ⟨.plain, .plain⟩ substitution.parts
          else (space.take found.place).drop first
        if isTaken && !substitution.isGlobal then (before ++ shown ++ space.drop found.place, true)
        else if first = found.place then
          let (rest, isReplaced) := if first < space.length then
              replaced substitution matcher space n (first + 1) (passed + 1) none
            else ([], false)
          (before ++ shown ++ (space.drop first).take 1 ++ rest, isTaken || isReplaced)
        else
          let (rest, isReplaced) :=
            replaced substitution matcher space n found.place (passed + 1) (some found.place)
          (before ++ shown ++ rest, isTaken || isReplaced)

/-- Three octal digits. -/
def octal (n : Nat) : List Char :=
  [n / 64 % 8, n / 8 % 8, n % 8].map fun digit => Char.ofNat (48 + digit)

/-- How a character is shown in a listing. -/
def listed (c : Char) : List Char :=
  let named := [('\\', '\\'), ('\x07', 'a'), ('\x08', 'b'), ('\x0c', 'f'), ('\n', 'n'),
    ('\r', 'r'), ('\t', 't'), ('\x0b', 'v')]
  match named.lookup c with
  | some letter => ['\\', letter]
  | none =>
    if ' ' ≤ c ∧ c ≤ '~' then [c]
    else (String.singleton c).toUTF8.toList.flatMap fun byte => '\\' :: octal byte.toNat

/-- A listing in lines of a width, with the number of characters in the present line. -/
def listing (width : Nat) : Nat → List (List Char) → List Char
  | _, [] => ['$', '\n']
  | column, shown :: rest =>
    if width ≠ 0 ∧ width - 1 < column + shown.length then
      '\\' :: '\n' :: shown ++ listing width shown.length rest
    else shown ++ listing width (column + shown.length) rest

/-- The number of the instruction after the end of a block that is passed over, in at most the given
number of steps. -/
def past (script : Script) : Nat → Nat → Nat → Nat
  | 0, index, _ => index
  | n + 1, index, depth =>
    match script.instructions[index]? with
    | none => index
    | some instruction =>
      match instruction.action, depth with
      | .closing, 0 => index + 1
      | .closing, depth + 1 => past script n (index + 1) depth
      | .opening, depth => past script n (index + 1) (depth + 1)
      | _, depth => past script n (index + 1) depth

/-- The number of the instruction to which a label leads. -/
def Script.place (script : Script) (name : String) : Nat :=
  let isLabel (instruction : Instruction) : Bool :=
    match instruction.action with
    | .label other => other == name
    | _ => false
  if name = "" then script.instructions.size
  else (script.instructions.findIdx? isLabel).getD script.instructions.size

/-- What follows an instruction: another one, the end of the script for this line, with or without
writing it, the start of the script with the same line, or the end of the run. -/
inductive Following where
  | go (index : Nat)
  | endCycle (isWritten : Bool)
  | again
  | stop (isWritten : Bool) (status : Nat)

/-- Carries out an action at an index. -/
def act (script : Script) (manner : Manner) (index : Nat) (state : State) (action : Action) :
    Option (Following × State) :=
  let on (state : State) : Option (Following × State) := some (.go (index + 1), state)
  let jumpTo (name : String) (state : State) : Option (Following × State) :=
    some (.go (script.place name), state)
  let written (state : State) : State :=
    if manner.isQuiet then state else state.emitLine manner state.space
  let ending := manner.ending
  let firstLine := state.space.takeWhile (· != ending)
  let ended (text : String) : List Char :=
    let letters := text.toList
    if letters.getLast? = some '\n' then letters.dropLast ++ [ending] else letters
  match action with
  | .jump name => jumpTo name state
  | .jumpIf name =>
    if state.isReplaced then jumpTo name { state with isReplaced := false } else on state
  | .jumpUnless name =>
    if state.isReplaced then on { state with isReplaced := false } else jumpTo name state
  | .append text => on { state with waiting := .text (ended text) :: state.waiting }
  | .insert text => on (state.emitText manner (ended text))
  | .change text =>
    -- In a range of lines the new text comes once, at the last of them.
    let isInside := (script.instructions[index]?).any (·.guard.limit.isSome) &&
      state.ranges[index]? != some .closed
    some (.endCycle false, if isInside then state else state.emitText manner (ended text))
  | .delete => some (.endCycle false, state)
  | .deleteLine =>
    -- Where more lines are held, the cycle starts again with them, and none is read.
    if !state.space.contains ending then some (.endCycle false, state)
    else some (.again, { state with space := state.space.drop (firstLine.length + 1) })
  | .print => on (state.emitLine manner state.space)
  | .printLine =>
    on ((state.closeLine manner).emit (firstLine ++ [ending]))
  | .next =>
    if state.rest.isEmpty then some (.stop true 0, state)
    else match (written state).advance script manner with
      | some (line, state) => on { state with space := line.text }
      | none => some (.stop true 0, state)
  | .addNext =>
    match state.advance script manner with
    | some (line, state) => on { state with space := state.space ++ ending :: line.text }
    | none => some (.stop true 0, state)
  | .hold => on { state with held := state.space, heldEnd := state.hasEnd }
  | .addHold =>
    on { state with held := state.held ++ ending :: state.space, heldEnd := state.hasEnd }
  | .recall => on { state with space := state.held, hasEnd := state.heldEnd }
  | .addRecall =>
    on { state with space := state.space ++ ending :: state.held, hasEnd := state.heldEnd }
  | .exchange =>
    on { state with
      space := state.held, hasEnd := state.heldEnd, held := state.space, heldEnd := state.hasEnd }
  | .quit status =>
    some (.stop false status, ((written state).flush manner).closeLine manner)
  | .leave status => some (.stop false status, state)
  | .tellNumber => on (state.emitText manner ((toString state.number).toList ++ ['\n']))
  | .tellName => on (state.emitText manner (state.line.name.toList ++ [ending]))
  | .list width =>
    on (state.emitText manner
      (listing (width.getD manner.width) 0 (state.space.map listed)))
  | .substitute substitution =>
    (substitution.matcher.or state.recent).map fun matcher =>
      let state := { state with recent := some matcher }
      let (space, isReplaced) := replaced substitution matcher state.space
        (state.space.length + 2) 0 0 none
      if !isReplaced then (.go (index + 1), state)
      else
        let state := { state with space := space, isReplaced := true }
        let state := if substitution.prints then state.emitLine manner space else state
        let state := match substitution.target with
          | some path => state.emitTo manner path space state.hasEnd
          | none => state
        (.go (index + 1), state)
  | .transliterate pairs =>
    on { state with space := state.space.map fun c => (pairs.lookup c).getD c }
  | .addFile path => on { state with waiting := .file path :: state.waiting }
  | .addLineOf path => on { state with waiting := .lineOf path :: state.waiting }
  | .write path => on (state.emitTo manner path state.space state.hasEnd)
  | .writeLine path =>
    on (state.emitTo manner path firstLine (state.hasEnd || state.space.contains ending))
  | .clear => on { state with space := [] }
  | .opening => on state
  | .closing => on state
  | .label _ => on state
  | .nothing => on state

/-- Runs a script from an instruction on, in at most the given number of steps. -/
def run (script : Script) (manner : Manner) : Nat → Nat → State → Outcome
  | 0, _, _ => .endless
  | n + 1, index, state =>
    let cycle (isWritten : Bool) (state : State) : Outcome :=
      let state := if isWritten && !manner.isQuiet then state.emitLine manner state.space else state
      match state.advance script manner with
      | some (line, state) => run script manner n 0 { state with space := line.text }
      | none => .finished 0 (state.flush manner)
    match script.instructions[index]? with
    | none => cycle true state
    | some instruction =>
      match instruction.guard.chooses manner index state with
      | none => .noExpression state
      | some (false, state) =>
        let next := match instruction.action with
          | .opening => past script script.instructions.size (index + 1) 0
          | _ => index + 1
        run script manner n next state
      | some (true, state) =>
        match act script manner index state instruction.action with
        | none => .noExpression state
        | some (.go next, state) => run script manner n next state
        | some (.endCycle isWritten, state) => cycle isWritten state
        | some (.again, state) => run script manner n 0 (state.flush manner)
        | some (.stop isWritten status, state) =>
          let state := if isWritten && !manner.isQuiet then state.emitLine manner state.space
            else state
          .finished status (if isWritten then state.flush manner else state)

/-- Edits lines. -/
def edit (script : Script) (manner : Manner) (lines : List Line) : Outcome :=
  match lines with
  | [] => .finished 0 (start [] ⟨[], true, 0, ""⟩)
  | line :: rest =>
    let steps := 4000 + 20 * (lines.length + 1) * (script.instructions.size + 1)
    run script manner steps 0 { (start rest line).startFile script with number := 1 }
where
  /-- The state at a line. -/
  start (rest : List Line) (line : Line) : State :=
    { rest := rest, number := 1, line := line, space := line.text, hasEnd := line.hasEnd
      held := [], heldEnd := true, isReplaced := false, waiting := [], ranges := #[]
      recent := none, written := [], isOpen := false, targets := [], sources := [] }

/-- What a run has written, in one text. -/
def State.output (state : State) : List Char :=
  (state.written.reverse.map Prod.snd).flatten

/-- What a run has written for the file with a number. -/
def State.outputOf (state : State) (file : Nat) : List Char :=
  ((state.written.reverse.filter fun entry => entry.1 == file).map Prod.snd).flatten

end GrammarChart.Tool.Edit
