import GrammarChart.Tool.Shell.Machine

/-!
# Listings and names

A script can have its variables listed, in a form in which it could set them again, and it can name
texts that stand for other commands. It can also tell which permissions new files do not get.
-/

set_option autoImplicit false

namespace GrammarChart.Tool.Shell

/-- A text in quotation marks: plain ones around everything but plain quotation marks, and others
around those, at most as many pairs as the given number. -/
def inMarksTo : Nat → List Char → List Char
  | 0, _ => []
  | n + 1, text =>
    let isMark (c : Char) : Bool := c == '\x27'
    let start := '\x27' :: text.takeWhile (fun c => !isMark c) ++ ['\x27']
    let rest := text.dropWhile fun c => !isMark c
    let marks := rest.takeWhile isMark
    if marks.isEmpty then start
    else
      let after := rest.drop marks.length
      start ++ '\x22' :: marks ++ '\x22' :: (if after.isEmpty then [] else inMarksTo n after)

/-- A text in quotation marks, as a script would have to write it. -/
def inPlainMarks (text : String) : String :=
  String.ofList (inMarksTo (text.length + 1) text.toList)

/-- A line for a variable, with a word before it. -/
def variableLine (start : String) (name : String) (value : Option String) : String :=
  start ++ name ++ ((value.map fun value => "=" ++ inPlainMarks value).getD "") ++ "\n"

/-- Lists the variables that pass a test, in the order of their names. -/
def listVariables (start : String) (test : Variable → Bool) : Eval Unit := do
  let entries := ((← scope).bindings.filter fun entry => test entry.2).mergeSort
    fun a b => decide (a.1 ≤ b.1)
  write 1 (String.join (entries.map fun (name, entry) => variableLine start name entry.value))

/-- The place of the name of an alias in a listing. -/
def aliasPlace (name : String) : Nat :=
  let codes := name.toList.map Char.toNat
  (codes.headD 0 * 16 + codes.foldr (· + ·) 0) % 39

/-- The line of an alias in a listing. -/
def aliasLine (entry : String × String) : String :=
  entry.1 ++ "=" ++ inPlainMarks entry.2 ++ "\n"

/-- Lets a name stand for a text, or for nothing but itself. -/
def putAlias (name : String) (text : Option String) : Eval Unit :=
  modifyScope fun scope =>
    let others := scope.aliases.filter fun entry => entry.1 != name
    { scope with
      aliases := match text with
        | none => others
        | some text =>
          if (scope.aliases.lookup name).isNone then scope.aliases ++ [(name, text)]
          else scope.aliases.map fun entry => if entry.1 = name then (name, text) else entry }

/-- The name and the value in a word that may assign one. -/
def splitAssignment (word : String) : String × Option String :=
  let name := word.toList.takeWhile (· != '=')
  match word.toList.drop name.length with
  | _ :: value => (String.ofList name, some (String.ofList value))
  | [] => (word, none)

/-- Sets or lists aliases. -/
def makeAliases (arguments : List String) : Eval Nat := do
  if arguments.isEmpty then
    let entries := (← scope).aliases.mergeSort
      fun a b => decide (aliasPlace a.1 ≤ aliasPlace b.1)
    write 1 (String.join (entries.map aliasLine))
    return 0
  let good ← arguments.mapM fun word => do
    match splitAssignment word with
    | (name, some text) =>
      if name = "" then
        write 2 ("alias: " ++ word ++ " not found\n")
        return false
      putAlias name (some text)
      return true
    | (name, none) =>
      match (← scope).aliases.lookup name with
      | some text =>
        write 1 (aliasLine (name, text))
        return true
      | none =>
        write 2 ("alias: " ++ name ++ " not found\n")
        return false
  return if good.all id then 0 else 1

/-- Takes aliases back. -/
def removeAliases (arguments : List String) : Eval Nat := do
  if arguments.head? = some "-a" then
    modifyScope fun scope => { scope with aliases := [] }
    return 0
  let good ← arguments.mapM fun name => do
    if ((← scope).aliases.lookup name).isSome then
      putAlias name none
      return true
    else
      write 2 ("unalias: " ++ name ++ " not found\n")
      return false
  return if good.all id then 0 else 1

/-- The letters of the permissions that a number of three bits stands for. -/
def permissionLetters (bits : Nat) : List Char :=
  [(4, 'r'), (2, 'w'), (1, 'x')].filterMap fun (bit, letter) =>
    if bits / bit % 2 = 1 then some letter else none

/-- The permissions of the owner, of the group and of the others, in three digits. -/
def permissionDigits (permissions : Nat) : List Nat :=
  [permissions / 64 % 8, permissions / 8 % 8, permissions % 8]

/-- The bits of the letter of a permission. -/
def permissionBits? (c : Char) : Option Nat :=
  [('r', 4), ('w', 2), ('x', 1), ('X', 1), ('s', 0), ('t', 0)].lookup c

/-- The people that a letter stands for, as a factor of their bits. -/
def people? (c : Char) : Option Nat :=
  [('u', 64), ('g', 8), ('o', 1), ('a', 73)].lookup c

/-- The bits of two numbers below 512 together. -/
def union (a b : Nat) : Nat := Nat.lor a b

/-- Permissions after the changes that a text describes: people, a sign and permissions, at most as
many changes as the given number. -/
def changedPermissions : Nat → Nat → List Char → Option Nat
  | 0, _, _ => none
  | n + 1, before, text =>
    let people := text.takeWhile fun c => (people? c).isSome
    let factor := (people.filterMap people?).foldl union 0
    let factor := if people.isEmpty then 73 else factor
    match text.drop people.length with
    | sign :: rest =>
      let letters := rest.takeWhile fun c => (permissionBits? c).isSome
      let bits := (letters.filterMap permissionBits?).foldl union 0
      let chosen := bits * factor
      let others := before - Nat.land before (7 * factor)
      let after := if sign == '+' then some (union before chosen)
        else if sign == '-' then some (before - Nat.land before chosen)
        else if sign == '=' then some (union others chosen)
        else none
      match after, rest.drop letters.length with
      | none, _ => none
      | some after, [] => some after
      | some after, ',' :: more => changedPermissions n after more
      | some after, sign :: more =>
        if "+-=".toList.contains sign then changedPermissions n after (people ++ sign :: more)
        else none
    | [] => none

/-- Tells or changes the permissions that new files do not get. -/
def changeMask (arguments : List String) : Eval Nat := do
  let isShown := arguments.head? = some "-S"
  let mask := (← scope).mask
  match if isShown then arguments.drop 1 else arguments with
  | [] =>
    if isShown then
      let shown := ["u", "g", "o"].zipWith (fun people bits =>
        people ++ "=" ++ String.ofList (permissionLetters bits)) (permissionDigits (511 - mask))
      write 1 (",".intercalate shown ++ "\n")
    else
      write 1 ("0" ++ String.join ((permissionDigits mask).map toString) ++ "\n")
    return 0
  | word :: _ =>
    let mask ← match word.toList with
      | first :: rest =>
        if first.isDigit then
          if !(word.toList.all fun c => '0' ≤ c && c ≤ '7') then
            fail ("Illegal number: " ++ word)
          pure ((first :: rest).foldl (fun n c => n * 8 + (c.toNat - 48)) 0 % 512)
        else if first == '-' && !rest.isEmpty then
          fail ("Illegal option -" ++ (rest.headD ' ').toString)
        else match changedPermissions (word.length + 1) (511 - mask) word.toList with
          | some permissions => pure (511 - permissions)
          | none => fail ("Illegal mode: " ++ word)
      | [] => fail ("Illegal mode: " ++ word)
    modifyScope fun scope => { scope with mask := mask }
    return 0

end GrammarChart.Tool.Shell
