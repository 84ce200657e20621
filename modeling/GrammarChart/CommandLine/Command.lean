import GrammarChart.CommandLine.Arguments
import GrammarChart.Tool.Render

/-!
# Commands

The program has one command, which compiles a grammar file. What its arguments ask for is a value
of `Command`; arguments that ask for help or cannot be read give a text for the user instead.
-/

set_option autoImplicit false

namespace GrammarChart.CommandLine

/-- What to do with a grammar file. There is no format when the value for it was no value. -/
structure CompileCommand where
  file : String
  output : Option String
  withImports : Bool
  render : Bool
  format : Option String
  verbose : Bool
  deriving DecidableEq, Repr

/-- What the arguments ask for. -/
inductive Command where
  | showHelp (text : String)
  | refuse (text : String)
  | compile (command : CompileCommand)
  deriving DecidableEq, Repr

/-- The name of the program. -/
def programName : String := "grammar-uml"

/-- The name of the command. -/
def compileName : String := "compile"

/-- How the program is called. -/
def usage : String :=
  "usage: grammar-uml [-h] \x7bcompile\x7d ...\n"

/-- How the command is called. -/
def compileUsage : String :=
  "usage: grammar-uml compile [-h] [--output OUTPUT] [--no-imports] [--render]\n" ++
  "                           [--format \x7bpng,svg,txt\x7d] [--verbose]\n" ++
  "                           file\n"

/-- The help on the program. -/
def help : String :=
  usage ++
  "\nGrammar to PlantUML class diagram compiler\n" ++
  "\npositional arguments:\n" ++
  "  \x7bcompile\x7d\n" ++
  "    compile   Compile a serialized grammar (.json) to PlantUML\n" ++
  "\noptions:\n" ++
  "  -h, --help  show this help message and exit\n"

/-- The help on the command. -/
def compileHelp : String :=
  compileUsage ++
  "\npositional arguments:\n" ++
  "  file                  Path to the grammar .json\n" ++
  "\noptions:\n" ++
  "  -h, --help            show this help message and exit\n" ++
  "  --output OUTPUT, -o OUTPUT\n" ++
  "                        Output .pu path (default: print to stdout)\n" ++
  "  --no-imports          Ignore imported grammars\n" ++
  "  --render              Render the .pu file with PlantUML\n" ++
  "  --format \x7bpng,svg,txt\x7d\n" ++
  "                        Render format\n" ++
  "  --verbose, -v         List compiled rules on stderr\n"

/-- The switch that asks for help. -/
def helpSwitch : Switch := ⟨["-h", "--help"], .help⟩

/-- The switch for the path of the diagram. -/
def outputSwitch : Switch := ⟨["--output", "-o"], .value []⟩

/-- The switch that leaves out imported grammars. -/
def noImportsSwitch : Switch := ⟨["--no-imports"], .flag⟩

/-- The switch that has the diagram rendered. -/
def renderSwitch : Switch := ⟨["--render"], .flag⟩

/-- The switch for the format of the picture. -/
def formatSwitch : Switch := ⟨["--format"], .value Tool.formats⟩

/-- The switch that has the compilation told. -/
def verboseSwitch : Switch := ⟨["--verbose", "-v"], .flag⟩

/-- The switches of the command. -/
def compileTable : Table :=
  [helpSwitch, outputSwitch, noImportsSwitch, renderSwitch, formatSwitch, verboseSwitch]

/-- The text that refuses arguments. -/
def complaintText (usage name complaint : String) : String :=
  usage ++ name ++ ": error: " ++ complaint ++ "\n"

/-- The refusal of arguments of the program. -/
def refusal (complaint : String) : Command :=
  .refuse (complaintText usage programName complaint)

/-- The refusal of arguments of the command. -/
def compileRefusal (complaint : String) : Command :=
  .refuse (complaintText compileUsage (programName ++ " " ++ compileName) complaint)

namespace Reading

/-- The switch was given. -/
def has (reading : Reading) (switch : Switch) : Bool :=
  reading.given.any (·.1 == switch)

/-- The last value of the switch, if the switch was given. -/
def value? (reading : Reading) (switch : Switch) : Option (Option String) :=
  (reading.given.reverse.find? (·.1 == switch)).map Prod.snd

/-- What the switches ask to do with a file. -/
def compileCommand (reading : Reading) (file : String) : CompileCommand :=
  { file := file
    output := (reading.value? outputSwitch).join.filter (· ≠ "")
    withImports := !reading.has noImportsSwitch
    render := reading.has renderSwitch
    format := (reading.value? formatSwitch).getD (some "png")
    verbose := reading.has verboseSwitch }

end Reading

/-- Refuses words that are left over, and rendering without a file. -/
def checked (left : List String) (command : CompileCommand) : Command :=
  if left ≠ [] then refusal ("unrecognized arguments: " ++ " ".intercalate left)
  else if command.render ∧ command.output = none then refusal "--render requires --output"
  else .compile command

/-- Reads the arguments of the command. Words that the program had left over come first. -/
def readCompile (left arguments : List String) : Command :=
  match readArguments compileTable .one arguments with
  | .error .help => .showHelp compileHelp
  | .error (.complaint text) => compileRefusal text
  | .ok reading =>
    match reading.placed with
    | file :: _ => checked (left ++ reading.left) (reading.compileCommand file)
    | [] => compileRefusal "the following arguments are required: file"

/-- Reads the arguments of the program. -/
def Command.ofArguments (arguments : List String) : Command :=
  match readArguments [helpSwitch] .rest arguments with
  | .error .help => .showHelp help
  | .error (.complaint text) => refusal text
  | .ok reading =>
    match reading.placed with
    | name :: rest =>
      if name = compileName then readCompile reading.left rest
      else refusal (wrongChoice "command" name [compileName])
    | [] =>
      if reading.left = [] then .showHelp help
      else refusal ("unrecognized arguments: " ++ " ".intercalate reading.left)

end GrammarChart.CommandLine
