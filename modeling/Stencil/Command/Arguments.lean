import Stencil.Number.Numeral
import Stencil.Text.Quoted

/-! Command lines. Switches begin with a dash and may take a value; a long one may be cut short where that leaves no
doubt, and short ones may share a dash. What is left are arguments. After two dashes alone everything is an argument. -/

namespace Stencil.Command
open Text

inductive Setting where
  | help
  | version
  | data
  | dataFile
  | output
  | partialSource
  | partialsDirectory
  | verbose
  deriving DecidableEq, Repr

structure Switch where
  names : List String
  setting : Setting
  takesValue : Bool
  deriving DecidableEq, Repr

/-- What stands between the switches. -/
inductive Operand where
  | nothing
  | template
  /-- One of these commands, which takes all that follows. -/
  | command (choices : List String)
  deriving DecidableEq, Repr

structure Grammar where
  program : String
  usage : List String
  details : List String
  switches : List Switch
  operand : Operand
  deriving DecidableEq, Repr

inductive Stop where
  | help (grammar : Grammar)
  | version
  | fault (grammar : Grammar) (message : String)
  deriving DecidableEq, Repr

def lines (texts : List String) : String := String.join (texts.map (· ++ "\n"))

namespace Grammar

def spellings (grammar : Grammar) : List (String × Switch) :=
  grammar.switches.flatMap fun switch => switch.names.map fun name => (name, switch)

def find? (grammar : Grammar) (name : List Char) : Option Switch := grammar.spellings.lookup (String.ofList name)

def helpText (grammar : Grammar) : String := lines (grammar.usage ++ grammar.details)

def faultText (grammar : Grammar) (message : String) : String :=
  lines (grammar.usage ++ [grammar.program ++ ": error: " ++ message])

end Grammar

inductive Reading where
  | plain
  | separator
  /-- A switch by one of its names, and the text that is attached to it in the same word. -/
  | switch (switch : Switch) (name : String) (attached : Option (List Char))
  | unknown
  deriving DecidableEq, Repr

/-- The text before the first equals sign and, if there is one, the text after it. -/
def splitEquals (word : List Char) : List Char × Option (List Char) :=
  let before := word.takeWhile (· ≠ '=')
  (before, if before.length < word.length then some (word.drop (before.length + 1)) else none)

def isDecimal (c : Char) : Bool := (decimalValue? c).isSome

/-- A negative number, which is an argument: a dash, digits and perhaps a point with digits after it. One line break may
follow. -/
def isNegativeNumber (word : List Char) : Bool :=
  match word with
  | '-' :: rest =>
    let body := if rest.getLast? = some '\n' then rest.dropLast else rest
    let places := (body.dropWhile isDecimal).drop 1
    body ≠ [] && body.all isDecimal ||
      (body.dropWhile isDecimal).head? = some '.' && places ≠ [] && places.all isDecimal
  | _ => false

/-- The switches that a word with no spelling of its own may mean. -/
def candidates (grammar : Grammar) (word : List Char) : List (Switch × String × Option (List Char)) :=
  match word with
  | '-' :: '-' :: _ =>
    let (start, attached) := splitEquals word
    (grammar.spellings.filter fun spelling => start.isPrefixOf spelling.1.toList).map fun (name, switch) =>
      (switch, name, attached)
  | _ =>
    grammar.spellings.filterMap fun (name, switch) =>
      if name.toList = word.take 2 then some (switch, name, some (word.drop 2))
      else if word.isPrefixOf name.toList then some (switch, name, none)
      else none

def classify (grammar : Grammar) (word : List Char) : Except Stop Reading :=
  if word.head? ≠ some '-' then return .plain
  else match grammar.find? word with
    | some switch => return .switch switch (String.ofList word) none
    | none =>
      if word.length = 1 then return .plain
      else
        let (start, attached) := splitEquals word
        match attached.bind fun _ => grammar.find? start with
        | some switch => return .switch switch (String.ofList start) attached
        | none =>
          match candidates grammar word with
          | [(switch, name, attached)] => return .switch switch name attached
          | [] => return if isNegativeNumber word || ' ' ∈ word then .plain else .unknown
          | several =>
            throw (.fault grammar ("ambiguous option: " ++ String.ofList word ++ " could match " ++
              String.intercalate ", " (several.map fun candidate => candidate.2.1)))

def classifyAll (grammar : Grammar) : List String → Except Stop (List (String × Reading))
  | [] => return []
  | "--" :: words => return ("--", .separator) :: words.map fun word => (word, .plain)
  | word :: words => do
    let reading ← classify grammar word.toList
    return (word, reading) :: (← classifyAll grammar words)

structure Parsed where
  /-- In the order in which they were given, with their values. -/
  settings : List (Setting × Option String)
  operand : List String
  extras : List String
  deriving DecidableEq, Repr

/-- The value that a text gives a switch. Two dashes alone give none. -/
def valueOf (text : String) : Option String := if text = "--" then none else some text

/-- The switches in one word: those that need nothing more, and a last one that takes the next word as its value. -/
structure Cluster where
  complete : List (Switch × Option String)
  open? : Option Switch

def switchFault {α : Type} (grammar : Grammar) (switch : Switch) (message : String) : Except Stop α :=
  throw (.fault grammar ("argument " ++ String.intercalate "/" switch.names ++ ": " ++ message))

def ignored {α : Type} (grammar : Grammar) (switch : Switch) (text : List Char) : Except Stop α :=
  switchFault grammar switch ("ignored explicit argument " ++ quoted (String.ofList text))

/-- A switch with text attached. A short one that takes no value gives the text to the switches that share its dash, of
which the text names the first. -/
def cluster (grammar : Grammar) (switch : Switch) (long : Bool) (text : List Char) : Except Stop Cluster :=
  if switch.takesValue then return ⟨[(switch, valueOf (String.ofList text))], none⟩
  else match text with
    | [] => ignored grammar switch text
    | c :: rest =>
      match if long then none else grammar.find? ['-', c] with
      | none => ignored grammar switch text
      | some next =>
        if rest.isEmpty then
          return if next.takesValue then ⟨[(switch, none)], some next⟩ else ⟨[(switch, none), (next, none)], none⟩
        else do
          let more ← cluster grammar next false rest
          return { more with complete := (switch, none) :: more.complete }
termination_by text.length

def isLong (name : String) : Bool := name.toList.drop 1 |>.head?.any (· = '-')

def clusterOf (grammar : Grammar) (switch : Switch) (name : String) : Option (List Char) → Except Stop Cluster
  | some text => cluster grammar switch (isLong name) text
  | none => return if switch.takesValue then ⟨[], some switch⟩ else ⟨[(switch, none)], none⟩

/-- Carries out switches in order. Help and version end the work. -/
def apply (grammar : Grammar) (parsed : Parsed) : List (Switch × Option String) → Except Stop Parsed
  | [] => return parsed
  | (switch, value) :: rest =>
    match switch.setting with
    | .help => throw (.help grammar)
    | .version => throw .version
    | setting => apply grammar { parsed with settings := parsed.settings ++ [(setting, value)] } rest

def chooseCommand (grammar : Grammar) (choices : List String) (parsed : Parsed) (words : List String) :
    Except Stop Parsed :=
  match words with
  | [] => return parsed
  | name :: _ =>
    if name ∈ choices then return { parsed with operand := words }
    else throw (.fault grammar ("argument command: invalid choice: " ++ quoted name ++ " (choose from " ++
      String.intercalate ", " (choices.map quoted) ++ ")"))

def consume (grammar : Grammar) (parsed : Parsed) : List (String × Reading) → Except Stop Parsed
  | [] => return parsed
  | (word, .unknown) :: rest => consume grammar { parsed with extras := parsed.extras ++ [word] } rest
  | (_, .switch switch name attached) :: rest => do
    let found ← clusterOf grammar switch name attached
    match found.open?, rest with
    | none, rest => consume grammar (← apply grammar parsed found.complete) rest
    | some last, (value, .plain) :: rest =>
      consume grammar (← apply grammar parsed (found.complete ++ [(last, valueOf value)])) rest
    | some last, _ => switchFault grammar last "expected one argument"
  | (word, reading) :: rest =>
    let extra := { parsed with extras := parsed.extras ++ [word] }
    match grammar.operand, parsed.operand with
    | .command choices, [] =>
      match reading, rest with
      | .separator, [] => return extra
      | _, _ => chooseCommand grammar choices parsed (word :: rest.map Prod.fst)
    | .template, [] =>
      match reading, rest with
      | .separator, (template, _) :: rest => consume grammar { parsed with operand := [template] } rest
      | .separator, [] => return extra
      | _, (_, .separator) :: rest => consume grammar { parsed with operand := [word] } rest
      | _, rest => consume grammar { parsed with operand := [word] } rest
    | _, _ => consume grammar extra rest
termination_by words => words.length

def parse (grammar : Grammar) (words : List String) : Except Stop Parsed := do
  let parsed ← consume grammar ⟨[], [], []⟩ (← classifyAll grammar words)
  if grammar.operand = .template && parsed.operand.isEmpty then
    throw (.fault grammar "the following arguments are required: template")
  else return parsed

end Stencil.Command
