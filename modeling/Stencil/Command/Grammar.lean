import Stencil.Command.Arguments

/-! The commands of the program and what their command lines ask for. -/

namespace Stencil.Command

def programName : String := "tinplate"

def versionText : String := programName ++ " 0.1.0\n"

def helpSwitch : Switch := ⟨["-h", "--help"], .help, false⟩

def partialSwitches : List Switch :=
  [⟨["--partial", "-p"], .partialSource, true⟩, ⟨["--partials-dir"], .partialsDirectory, true⟩]

def verboseSwitch : Switch := ⟨["--verbose", "-v"], .verbose, false⟩

def commandNames : List String := ["version", "render", "check"]

def mainGrammar : Grammar where
  program := programName
  usage := ["usage: tinplate [-h] [--version] \x7bversion,render,check\x7d ..."]
  details :=
    ["",
     "Tinplate - A small template language compiler",
     "",
     "positional arguments:",
     "  \x7bversion,render,check\x7d",
     "                        Commands",
     "    version             Show version",
     "    render              Render a template file",
     "    check               Compile a template without rendering",
     "",
     "options:",
     "  -h, --help            show this help message and exit",
     "  --version             show program's version number and exit"]
  switches := [helpSwitch, ⟨["--version"], .version, false⟩]
  operand := .command commandNames

def versionGrammar : Grammar where
  program := programName ++ " version"
  usage := ["usage: tinplate version [-h]"]
  details :=
    ["",
     "options:",
     "  -h, --help  show this help message and exit"]
  switches := [helpSwitch]
  operand := .nothing

def templateDetails : List String :=
  ["",
   "positional arguments:",
   "  template              Path to template file",
   "",
   "options:",
   "  -h, --help            show this help message and exit"]

def partialDetails : List String :=
  ["  --partial NAME=PATH, -p NAME=PATH",
   "                        Register a partial (repeatable)",
   "  --partials-dir PARTIALS_DIR",
   "                        Register every *.tpl file in a directory, keyed by",
   "                        file stem"]

def renderGrammar : Grammar where
  program := programName ++ " render"
  usage :=
    ["usage: tinplate render [-h] [--data DATA] [--data-file DATA_FILE]",
     "                       [--output OUTPUT] [--partial NAME=PATH]",
     "                       [--partials-dir PARTIALS_DIR] [--verbose]",
     "                       template"]
  details :=
    templateDetails ++
    ["  --data DATA, -d DATA  JSON data",
     "  --data-file DATA_FILE, -f DATA_FILE",
     "                        Path to JSON data file",
     "  --output OUTPUT, -o OUTPUT",
     "                        Write output to file instead of stdout"] ++
    partialDetails ++
    ["  --verbose, -v         Log compilation and rendering details"]
  switches :=
    [helpSwitch, ⟨["--data", "-d"], .data, true⟩, ⟨["--data-file", "-f"], .dataFile, true⟩,
     ⟨["--output", "-o"], .output, true⟩] ++ partialSwitches ++ [verboseSwitch]
  operand := .template

def checkGrammar : Grammar where
  program := programName ++ " check"
  usage :=
    ["usage: tinplate check [-h] [--partial NAME=PATH] [--partials-dir PARTIALS_DIR]",
     "                      [--verbose]",
     "                      template"]
  details := templateDetails ++ partialDetails ++ ["  --verbose, -v         Log compilation details"]
  switches := [helpSwitch] ++ partialSwitches ++ [verboseSwitch]
  operand := .template

/-- What a template is compiled and rendered with. A path or a text that is empty, or no value at all, counts as not
given; a partial without a value is a partial still. -/
structure Request where
  template : String
  partialsDirectory : Option String
  /-- Names and paths, each pair joined by an equals sign. -/
  partials : List (Option String)
  verbose : Bool
  data : Option String
  dataFile : Option String
  output : Option String
  deriving DecidableEq, Repr

inductive Invocation where
  | nothing
  | version
  | render (request : Request)
  | check (request : Request)
  deriving DecidableEq, Repr

def Parsed.values (parsed : Parsed) (setting : Setting) : List (Option String) :=
  parsed.settings.filterMap fun (given, value) => if given = setting then some value else none

def Parsed.value? (parsed : Parsed) (setting : Setting) : Option String :=
  (parsed.values setting).getLast?.join.filter (· ≠ "")

def Parsed.request (parsed : Parsed) : Request where
  template := parsed.operand.headD ""
  partialsDirectory := parsed.value? .partialsDirectory
  partials := parsed.values .partialSource
  verbose := !(parsed.values .verbose).isEmpty
  data := parsed.value? .data
  dataFile := parsed.value? .dataFile
  output := parsed.value? .output

/-- The invocation that a command and the words after it make, and the words without a use. -/
def parseCommand : List String → Except Stop (Invocation × List String)
  | [] => return (.nothing, [])
  | name :: words =>
    if name = "render" then do
      let parsed ← parse renderGrammar words
      return (.render parsed.request, parsed.extras)
    else if name = "check" then do
      let parsed ← parse checkGrammar words
      return (.check parsed.request, parsed.extras)
    else do
      let parsed ← parse versionGrammar words
      return (.version, parsed.extras)

def parseAll (words : List String) : Except Stop Invocation := do
  let parsed ← parse mainGrammar words
  let (invocation, extras) ← parseCommand parsed.operand
  match parsed.extras ++ extras with
  | [] => return invocation
  | unused => throw (.fault mainGrammar ("unrecognized arguments: " ++ String.intercalate " " unused))

end Stencil.Command
