import GrammarChart.Tool.Script.Basic

/-!
# Signals

The signals by which processes are ended, with their names, their numbers and what is told when a
process was ended by one.
-/

set_option autoImplicit false

namespace GrammarChart.Tool.Shell

/-- The names of the signals in the order of their numbers, from one on. -/
def signalNames : List String :=
  ["HUP", "INT", "QUIT", "ILL", "TRAP", "ABRT", "BUS", "FPE", "KILL", "USR1", "SEGV", "USR2",
    "PIPE", "ALRM", "TERM", "16", "CHLD", "CONT", "STOP", "TSTP", "TTIN", "TTOU", "URG", "XCPU",
    "XFSZ", "VTALRM", "PROF", "WINCH", "IO", "PWR", "SYS"]

/-- The signals that end no process. -/
def harmlessSignals : List Nat := [0, 17, 18, 19, 20, 21, 22, 23, 28]

/-- What is told about a process that was ended by a signal. -/
def signalTexts : List (Nat × String) :=
  [(1, "Hangup"), (3, "Quit"), (4, "Illegal instruction"), (5, "Trace/breakpoint trap"),
    (6, "Aborted"), (7, "Bus error"), (8, "Floating point exception"), (9, "Killed"),
    (10, "User defined signal 1"), (11, "Segmentation fault"), (12, "User defined signal 2"),
    (14, "Alarm clock"), (15, "Terminated"), (16, "Stack fault"), (24, "CPU time limit exceeded"),
    (25, "File size limit exceeded"), (26, "Virtual timer expired"),
    (27, "Profiling timer expired"), (29, "I/O possible"), (30, "Power failure"),
    (31, "Bad system call")]

/-- The number of the signal that a word names; zero is the end of the script. -/
def signal? (word : String) : Option Nat :=
  let name := word.toUpper
  match word.toNat? with
  | some number => if number < 65 then some number else none
  | none =>
    if name = "EXIT" then some 0
    else (signalNames.findIdx? (· = name)).map (· + 1)

/-- The name of a signal. -/
def signalName (number : Nat) : String :=
  if number = 0 then "EXIT" else (signalNames[number - 1]?).getD (toString number)

/-- The signal and the processes that the arguments of a command to end processes name; nothing
when they are not understood. -/
def killArguments : List String → Except String (Nat × List String)
  | "-s" :: name :: rest =>
    match signal? name with
    | some signal => .ok (signal, rest)
    | none => .error ("invalid signal number or name: " ++ name)
  | "--" :: rest => .ok (15, rest)
  | word :: rest =>
    match word.toList with
    | '-' :: name =>
      let name := String.ofList name
      match signal? name with
      | some signal => .ok (signal, if rest.head? = some "--" then rest.drop 1 else rest)
      | none => .error ("Illegal option -" ++ (name.toList.headD ' ').toString)
    | _ => .ok (15, word :: rest)
  | [] => .ok (15, [])

end GrammarChart.Tool.Shell
