import GrammarChart.Tool.Shell.Utilities

/-!
# Comparing files

`cmp` tells where two files differ first, and `diff` tells which lines of two files differ. A
longest common part of the lines is found from a table of the lengths of common parts.
-/

set_option autoImplicit false

namespace GrammarChart.Tool.Shell

namespace Comparing

/-- The lengths of common parts for a line of the first file, from those for the line after it: one
for each line of the second file and one for its end. -/
def row (line : List Char) : List (List Char) → List Nat → List Nat
  | next :: rest, below :: more =>
    let later := row line rest more
    let length := if line = next then more.headD 0 + 1 else max below (later.headD 0)
    length :: later
  | _, _ => [0]

/-- The rows of the table, the first line first. -/
def table (second : List (List Char)) : List (List Char) → List (List Nat)
  | [] => [List.replicate (second.length + 1) 0]
  | line :: rest =>
    let below := table second rest
    row line second (below.headD []) :: below

/-- A change: the numbers of the first line and of the line after the last one, in both files. -/
structure Change where
  first : Nat
  firstEnd : Nat
  second : Nat
  secondEnd : Nat

/-- The pairs of numbers of common lines, in at most the given number of steps. -/
def common (first second : Array (List Char)) (rows : Array (Array Nat)) :
    Nat → Nat → Nat → List (Nat × Nat)
  | 0, _, _ => []
  | n + 1, i, j =>
    match first[i]?, second[j]? with
    | some a, some b =>
      if a = b then (i, j) :: common first second rows n (i + 1) (j + 1)
      else
        let length (i j : Nat) : Nat := (((rows[i]?).bind fun row => row[j]?)).getD 0
        if length i (j + 1) ≤ length (i + 1) j then common first second rows n (i + 1) j
        else common first second rows n i (j + 1)
    | _, _ => []

/-- The changes between common lines, from given lines on. -/
def gaps (firstSize secondSize : Nat) : Nat → Nat → List (Nat × Nat) → List Change
  | i, j, [] => if i < firstSize ∨ j < secondSize then [⟨i, firstSize, j, secondSize⟩] else []
  | i, j, (k, l) :: rest =>
    let others := gaps firstSize secondSize (k + 1) (l + 1) rest
    if i < k ∨ j < l then ⟨i, k, j, l⟩ :: others else others

/-- The changes that lead from one list of lines to another. -/
def changes (first second : List (List Char)) : List Change :=
  let rows := ((table second first).map List.toArray).toArray
  let pairs := common first.toArray second.toArray rows (first.length + second.length) 0 0
  gaps first.length second.length 0 0 pairs

/-- The numbers of lines, or the line before them if there are none. -/
def span (first last : Nat) : String :=
  if last ≤ first then toString first
  else if last = first + 1 then toString last
  else toString (first + 1) ++ "," ++ toString last

/-- A line after a sign; a missing end is told. -/
def shown (sign : String) (line : List Char) : String :=
  sign ++ " " ++ String.ofList (lineText line) ++ "\n" ++
    (if line.getLast? = some '\n' then "" else "\\ No newline at end of file\n")

/-- What is told about a change. -/
def told (first second : List (List Char)) (change : Change) : String :=
  let removed := (first.take change.firstEnd).drop change.first
  let added := (second.take change.secondEnd).drop change.second
  let letter := if removed.isEmpty then "a" else if added.isEmpty then "d" else "c"
  span change.first change.firstEnd ++ letter ++ span change.second change.secondEnd ++ "\n" ++
    String.join (removed.map (shown "<")) ++
    (if letter = "c" then "---\n" else "") ++ String.join (added.map (shown ">"))

/-- The number of the first octet in which texts differ, counted from one, with the number of its
line; nothing when one of them goes on with the other. -/
def firstDifference : Nat → Nat → List Char → List Char → Option (Nat × Nat)
  | place, line, a :: rest, b :: more =>
    if a ≠ b then some (place, line)
    else firstDifference (place + 1) (if a == '\n' then line + 1 else line) rest more
  | _, _, _, _ => none

end Comparing

/-- The complaint about a wrong use of a utility that compares files. -/
def miscompare (name message : String) : Eval Nat := do
  utilityComplain name message
  utilityComplain name ("Try " ++ quoted (name ++ " --help") ++ " for more information.")
  return 2

/-- Tells where two files differ first. -/
def cmp (words : List String) : Eval Nat := do
  let known : Known := ⟨['s', 'l', 'b'], ['i', 'n'], [], [("silent", 's'), ("quiet", 's')]⟩
  match known.read words with
  | .error wrong => miscompare "cmp" wrong.message
  | .ok given =>
    match given.operands with
    | [] => miscompare "cmp" "missing operand after \x27cmp\x27"
    | first :: rest =>
      let second := rest.headD "-"
      match ← readOrComplain "cmp" first with
      | none => return 2
      | some a =>
        match ← readOrComplain "cmp" second with
        | none => return 2
        | some b =>
          if a = b then return 0
          if !given.has 's' then
            match Comparing.firstDifference 1 1 a.toList b.toList with
            | some (place, line) =>
              write 1 (first ++ " " ++ second ++ " differ: byte " ++ toString place ++ ", line " ++
                toString line ++ "\n")
            | none =>
              let (name, shorter) := if a.length < b.length then (first, a) else (second, b)
              let lines := shorter.toList.count '\n'
              let isWhole := shorter.endsWith "\n"
              utilityComplain "cmp" ("EOF on " ++ name ++ (if shorter = "" then " which is empty"
                else " after byte " ++ toString shorter.length ++ ", " ++
                  (if isWhole then "line " ++ toString lines
                  else "in line " ++ toString (lines + 1))))
          return 1

/-- Tells which lines of two files differ. -/
def diff (words : List String) : Eval Nat := do
  let known : Known := ⟨"qsrNabBiwEZtT".toList, ['U', 'C', 'I'], [],
    [("brief", 'q'), ("report-identical-files", 's'), ("recursive", 'r')]⟩
  match known.read words with
  | .error wrong => miscompare "diff" wrong.message
  | .ok given =>
    match given.operands with
    | [first, second] =>
      let read (path : String) : Eval (Option String) := do
        if path = "-" then return some (← readInput)
        match ← readFile path with
        | .ok text => return some text
        | .error problem =>
          utilityComplain "diff" (path ++ ": " ++ problem.message)
          return none
      let a ← read first
      let b ← read second
      match a, b with
      | some a, some b =>
        if a = b then
          if given.has 's' then
            write 1 ("Files " ++ first ++ " and " ++ second ++ " are identical\n")
          return 0
        else if given.has 'q' then
          write 1 ("Files " ++ first ++ " and " ++ second ++ " differ\n")
          return 1
        else
          let (before, after) := (linesOf a.toList, linesOf b.toList)
          write 1 (String.join ((Comparing.changes before after).map
            (Comparing.told before after)))
          return 1
      | _, _ => return 2
    | [] => miscompare "diff" "missing operand after \x27diff\x27"
    | [path] => miscompare "diff" ("missing operand after " ++ quoted path)
    | _ :: _ :: extra :: _ => miscompare "diff" ("extra operand " ++ quoted extra)

end GrammarChart.Tool.Shell
