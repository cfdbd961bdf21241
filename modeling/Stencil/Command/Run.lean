import Stencil.Command.Files
import Stencil.Command.Grammar
import Stencil.Json.Reader
import Stencil.Template
import Stencil.Text.Utf8

/-! The program: it reads a template and its partials, compiles them, reads the data, renders, and writes the result
last. A run that fails has written nothing, but what it finds out only when it writes leaves the file empty. -/

namespace Stencil.Command
open Text

inductive Problem where
  | unreadable (path : String) (error : AccessError)
  | undecodable (fault : Utf8.Fault)
  | noDirectory (path : String)
  | inaccessible (path : String) (error : AccessError)
  | invalidPartial (option : String)
  | partialWithoutValue
  | uncompiled (failure : CompileFailure)
  | invalidData (text : List Char) (expected : Json.Expected) (rest : List Char)
  | integerTooLong (digits : Nat)
  | dataNoObject
  | unrendered (failure : RenderFailure)
  | unwritable (path : String) (error : AccessError)
  | unencodable (fault : Utf8.Unencodable)

namespace Problem

/-- The exit code of a problem that is foreseen. Any other problem ends a run all the same. -/
def expected? : Problem → Option ExitCode
  | .unreadable _ .nullCharacter => none
  | .unreadable _ _ => some .inputError
  | .noDirectory _ => some .inputError
  | .invalidPartial _ => some .inputError
  | .invalidData _ _ _ => some .inputError
  | .dataNoObject => some .inputError
  | .uncompiled (.diagnosed _) => some .compileError
  | .unrendered (.notIterable _ _) => some .renderError
  | _ => none

def accessMessage (path : String) (error : AccessError) : String :=
  if error = .nullCharacter then error.reason
  else "[Errno " ++ toString error.number ++ "] " ++ error.reason ++ ": " ++ quoted path

def message : Problem → String
  | .unreadable path error =>
    if error = .nullCharacter then error.reason else "Cannot read " ++ path ++ ": " ++ error.reason
  | .undecodable fault => fault.message
  | .noDirectory path => "Not a directory: " ++ path
  | .inaccessible path error => accessMessage path error
  | .invalidPartial option => "Invalid --partial " ++ quoted option ++ ", expected NAME=PATH"
  | .partialWithoutValue => "'list' object has no attribute 'partition'"
  | .uncompiled failure => failure.message
  | .invalidData text expected rest => "Invalid JSON data: " ++ Json.brokenMessage text expected rest
  | .integerTooLong digits => Json.tooLongMessage digits
  | .dataNoObject => "JSON data must be an object"
  | .unrendered failure => failure.message
  | .unwritable path error => accessMessage path error
  | .unencodable fault => fault.message

def exitCode (problem : Problem) : ExitCode := problem.expected?.getD .renderError

def report (problem : Problem) : String :=
  (if problem.expected?.isSome then "Error: " else "Unexpected error: ") ++ problem.message

end Problem

/-- A run notes what it does, one line for each step, also where it fails. -/
abbrev Job (m : Type → Type) := ExceptT Problem (StateT (List String) m)

namespace Job
variable {m : Type → Type} [Monad m] [Files m]

def note (line : String) : Job m Unit := modify fun lines => lines ++ ["DEBUG tinplate." ++ line]

def access {α : Type} (outcome : m (Except AccessError α)) (problem : AccessError → Problem) : Job m α := do
  match ← (liftM outcome : StateT (List String) m (Except AccessError α)) with
  | .ok value => return value
  | .error error => throw (problem error)

/-- The text of a file, which the message of a failure calls by a name of its own. -/
def readText (location : Location) (shown : String) : Job m (List Char) := do
  let bytes ← access (Files.read location) (.unreadable shown)
  match Utf8.decode bytes with
  | .ok text => return Utf8.unifyLines text
  | .error fault => throw (.undecodable fault)

def templateEnding : List Char := ".tpl".toList

def readDirectory (path : String) : Job m Registry := do
  let directory := Location.ofText path
  if !(← access (Files.isDirectory directory) (.inaccessible directory.text)) then
    throw (.noDirectory directory.text)
  let names ← (liftM (Files.names directory : m (List String)) : StateT (List String) m (List String))
  let chosen := (names.filter fun name => templateEnding.isSuffixOf name.toList).mergeSort (· ≤ ·)
  chosen.foldlM (fun registry name => do
    let location := directory.child name
    return registry.put (Location.stem name) (String.ofList (← readText location location.text))) Registry.empty

/-- A partial given by name and path. It takes the place of one of the same name. -/
def readPartial (registry : Registry) (value : Option String) : Job m Registry := do
  match value with
  | none => throw .partialWithoutValue
  | some option =>
    match splitEquals option.toList with
    | (name, some path) =>
      if name.isEmpty then throw (.invalidPartial option)
      let path := String.ofList path
      return registry.put (String.ofList name) (String.ofList (← readText (.ofText path) path))
    | (_, none) => throw (.invalidPartial option)

def readPartials (request : Request) : Job m Registry := do
  let registry ← match request.partialsDirectory with
    | some path => readDirectory path
    | none => pure .empty
  request.partials.foldlM readPartial registry

def expansionNote (expansion : Expansion) : String :=
  "parser: Expanding partial " ++ quoted expansion.name ++ " in " ++ expansion.source

def compile (request : Request) : Job m Template := do
  let content ← readText (.ofText request.template) request.template
  let partials ← readPartials request
  let compiled := Template.compile (String.ofList content) partials (.dict [])
  compiled.expansions.forM fun expansion => note (expansionNote expansion)
  match compiled.result with
  | .error failure => throw (.uncompiled failure)
  | .ok template =>
    note ("template: Compiled template (" ++ toString content.length ++ " chars, " ++ toString partials.size ++
      " partials) into " ++ toString template.nodeCount ++ " nodes")
    return template

def parseData (text : List Char) : Job m Value := do
  match Json.parse text with
  | .ok (.dict entries) => return .dict entries
  | .ok _ => throw .dataNoObject
  | .error (.broken expected rest) => throw (.invalidData text expected rest)
  | .error (.tooLong digits) => throw (.integerTooLong digits)

/-- Data on the command line hide a data file, which is not even read. -/
def readData (request : Request) : Job m Value := do
  match request.data, request.dataFile with
  | some text, _ => parseData text.toList
  | none, some path => parseData (← readText (.ofText path) path)
  | none, none => return .dict []

def noteLoops (events : List Event) : Job m Unit :=
  events.forM fun event =>
    match event with
    | .finished path rounds =>
      note ("evaluator: Loop over " ++ path ++ " rendered " ++ toString rounds ++ " iterations")
    | .drawn _ _ => return ()

def evaluate (template : Template) (data : Value) : Job m (List CodePoint) := do
  match template.render data Session.empty with
  | .ok value session =>
    noteLoops session.events.reverse
    return value.plain
  | .error failure session =>
    noteLoops session.events.reverse
    throw (.unrendered failure)

/-- All that a render does before it puts the text anywhere. -/
def compose (request : Request) : Job m (List CodePoint) := do
  let template ← compile request
  evaluate template (← readData request)

def encode (content : List CodePoint) : Job m String := do
  match Utf8.encode content with
  | .ok text => return text
  | .error fault => throw (.unencodable fault)

/-- A file is emptied before a text is encoded for it. -/
def deliver (request : Request) (content : List CodePoint) : Job m String := do
  match request.output with
  | none => encode content
  | some path =>
    let location := Location.ofText path
    access (Files.write location ((Utf8.encode content).toOption.getD "")) (.unwritable location.text)
    let _ ← encode content
    return ""

def render (request : Request) : Job m String := do
  deliver request (← compose request)

def check (request : Request) : Job m String := do
  let template ← compile request
  return lines ["Valid: " ++ request.template, "  Partials: " ++ toString template.partials.size,
    "  Nodes: " ++ toString template.nodeCount]

end Job

structure Outcome where
  exitCode : Nat
  output : String
  errors : String
  deriving DecidableEq, Repr

variable {m : Type → Type} [Monad m]

def execute (verbose : Bool) (job : Job m String) : m Outcome := do
  let (result, notes) ← job.run.run []
  let log := if verbose then lines notes else ""
  match result with
  | .ok text => return ⟨ExitCode.success.number, text, log⟩
  | .error problem => return ⟨problem.exitCode.number, "", log ++ lines [problem.report]⟩

def usageExitCode : Nat := 2

def Stop.outcome : Stop → Outcome
  | .help grammar => ⟨ExitCode.success.number, grammar.helpText, ""⟩
  | .version => ⟨ExitCode.success.number, versionText, ""⟩
  | .fault grammar message => ⟨usageExitCode, "", grammar.faultText message⟩

def run [Files m] (words : List String) : m Outcome :=
  match parseAll words with
  | .error stop => return stop.outcome
  | .ok .nothing => return (Stop.help mainGrammar).outcome
  | .ok .version => return Stop.version.outcome
  | .ok (.render request) => execute request.verbose (Job.render request)
  | .ok (.check request) => execute request.verbose (Job.check request)

end Stencil.Command
