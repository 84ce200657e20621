import GrammarChart.Tool.Regular.Basic

/-!
# Edit scripts

An edit script is a list of instructions that are carried out for each line of a text, in a pattern
space that holds the line. An instruction acts on the lines that its guard chooses: one address, a
range between two, or the other lines. A block of instructions is an instruction that is passed over
together with what follows it, up to its closing one.
-/

set_option autoImplicit false

namespace GrammarChart.Tool.Edit

/-- An expression to look for, with the number of its groups. -/
structure Matcher where
  regular : Regular
  groups : Nat
  ignoresCase : Bool
  hasLines : Bool
  deriving Repr

/-- A choice of lines. -/
inductive Address where
  | line (number : Nat)
  | last
  /-- Every so many lines, from a first one on. -/
  | step (first step : Nat)
  /-- The lines in which an expression is found, or the one that was looked for last. -/
  | matching (matcher : Option Matcher)
  deriving Repr

/-- The end of a range of lines. -/
inductive Limit where
  | there (address : Address)
  /-- So many lines after the first one. -/
  | after (count : Nat)
  /-- The next line whose number is a multiple. -/
  | multiple (factor : Nat)
  deriving Repr

/-- The lines on which an instruction acts: all lines if there is no first address. -/
structure Guard where
  first : Option Address
  limit : Option Limit
  isNegated : Bool
  deriving Repr

/-- A change of case in a replacement: for the next character only or from here on. -/
inductive CaseChange where
  | nextUpper
  | nextLower
  | upper
  | lower
  | plain
  deriving DecidableEq, Repr

/-- A part of a replacement. -/
inductive Part where
  | letter (c : Char)
  | group (number : Nat)
  | change (change : CaseChange)
  deriving DecidableEq, Repr

/-- A replacement of parts that are found. -/
structure Substitution where
  matcher : Option Matcher
  parts : List Part
  /-- All parts are replaced, from the given one on. -/
  isGlobal : Bool
  number : Nat
  prints : Bool
  target : Option String
  deriving Repr

/-- What an instruction does. -/
inductive Action where
  | opening
  | closing
  | label (name : String)
  | jump (name : String)
  | jumpIf (name : String)
  | jumpUnless (name : String)
  | append (text : String)
  | insert (text : String)
  | change (text : String)
  | delete
  | deleteLine
  | print
  | printLine
  | next
  | addNext
  | hold
  | addHold
  | recall
  | addRecall
  | exchange
  | quit (status : Nat)
  | leave (status : Nat)
  | tellNumber
  | tellName
  | list (width : Option Nat)
  | substitute (substitution : Substitution)
  | transliterate (pairs : List (Char × Char))
  | addFile (path : String)
  | addLineOf (path : String)
  | write (path : String)
  | writeLine (path : String)
  | clear
  | nothing
  deriving Repr

/-- An instruction. -/
structure Instruction where
  guard : Guard
  action : Action
  deriving Repr

/-- A script. -/
structure Script where
  instructions : Array Instruction
  /-- The script itself asks that lines are not written. -/
  isQuiet : Bool

/-- Where something is wrong in a script: a number of characters before its end, at no place of its
text, or in the script as a whole. -/
inductive Place where
  | beforeEnd (count : Nat)
  | nowhere
  | everywhere
  deriving DecidableEq, Repr

/-- What is wrong with a script. -/
structure Problem where
  message : String
  place : Place
  deriving Repr

end GrammarChart.Tool.Edit
