import Mathlib
import Stencil.Proofs.FirstFaults
import Stencil.Proofs.JobOutcomes

/-! The stages of a run, each with the faults that it can find, in the order in which the run comes to them. The first stage
with a fault decides what the run exits with. -/

namespace Stencil.Command
open Text

/-- Reading a text fails with a problem. -/
inductive FileTree.Unreadable (tree : FileTree) (location : Location) (shown : String) : Problem → Prop
  | refused {error : AccessError} (missed : tree.read location = .error error) :
      tree.Unreadable location shown (.unreadable shown error)
  | broken {bytes : List UInt8} {fault : Utf8.Fault} (held : tree.read location = .ok bytes)
      (undecoded : Utf8.decode bytes = .error fault) : tree.Unreadable location shown (.undecodable fault)

/-- What is wrong with a partial that is given by name and path. -/
inductive PartialFault (tree : FileTree) : Option String → Problem → Prop
  | valueless : PartialFault tree none .partialWithoutValue
  | nameless {option : String} (unnamed : '=' ∉ option.toList ∨ option.toList.head? = some '=') :
      PartialFault tree (some option) (.invalidPartial option)
  | unreadable {option : String} {name path : List Char} {problem : Problem} (split : option.toList = name ++ '=' :: path)
      (named : name ≠ []) (first : '=' ∉ name)
      (unread : tree.Unreadable (.ofText (String.ofList path)) (String.ofList path) problem) :
      PartialFault tree (some option) problem

/-- What is wrong with a text that is to be data. -/
inductive DataFault (text : List Char) : Problem → Prop
  | broken {expected : Json.Expected} {rest : List Char} (unread : Json.parse text = .error (.broken expected rest)) :
      DataFault text (.invalidData text expected rest)
  | tooLong {digits : Nat} (unread : Json.parse text = .error (.tooLong digits)) : DataFault text (.integerTooLong digits)
  | noObject {value : Value} (read : Json.parse text = .ok value) (other : ∀ entries, value ≠ .dict entries) :
      DataFault text .dataNoObject

inductive Stage where
  | template
  | directory
  | entries
  | options
  | compile
  | data
  | render
  | output
  deriving DecidableEq, Repr

namespace Stage

def exitCode : Stage → ExitCode
  | .template | .directory | .entries | .options | .data => .inputError
  | .compile => .compileError
  | .render | .output => .renderError

def ofCheck : List Stage := [.template, .directory, .entries, .options, .compile]
def ofRender : List Stage := ofCheck ++ [.data, .render, .output]

end Stage

/-- What a stage of a run finds wrong, whatever the stages before it find. The later ones need what those make. -/
inductive Fault (tree : FileTree) (request : Request) : Stage → Problem → Prop
  | template {problem : Problem} (unread : tree.Unreadable (.ofText request.template) request.template problem) :
      Fault tree request .template problem
  | noDirectory {path : String} (given : request.partialsDirectory = some path)
      (missed : tree.holdsDirectory (.ofText path) = .ok false) :
      Fault tree request .directory (.noDirectory (Location.ofText path).text)
  | inaccessible {path : String} {error : AccessError} (given : request.partialsDirectory = some path)
      (missed : tree.holdsDirectory (.ofText path) = .error error) :
      Fault tree request .directory (.inaccessible (Location.ofText path).text error)
  | entry {path name : String} {problem : Problem} (given : request.partialsDirectory = some path)
      (first : First (fun name => tree.Unreadable ((Location.ofText path).child name) ((Location.ofText path).child name).text)
        (Job.templatesAmong (tree.names (.ofText path))) name problem) :
      Fault tree request .entries problem
  | option {option : Option String} {problem : Problem} (first : First (PartialFault tree) request.partials option problem) :
      Fault tree request .options problem
  | compile {content : List Char} {partials : Registry} {failure : CompileFailure}
      (read : (Job.readText (.ofText request.template) request.template).outcome tree = .ok content)
      (registered : (Job.readPartials request).outcome tree = .ok partials)
      (failed : (Template.compile (String.ofList content) partials (.dict [])).result = .error failure) :
      Fault tree request .compile (.uncompiled failure)
  | unreadData {path : String} {problem : Problem} (none : request.data = none) (given : request.dataFile = some path)
      (unread : tree.Unreadable (.ofText path) path problem) : Fault tree request .data problem
  | dataText {text : String} {problem : Problem} (given : request.data = some text) (wrong : DataFault text.toList problem) :
      Fault tree request .data problem
  | dataFile {path : String} {content : List Char} {problem : Problem} (none : request.data = none)
      (given : request.dataFile = some path) (read : (Job.readText (.ofText path) path).outcome tree = .ok content)
      (wrong : DataFault content problem) : Fault tree request .data problem
  | render {template : Template} {data : Value} {failure : RenderFailure} {session : Session}
      (compiled : (Job.compile request).outcome tree = .ok template) (read : (Job.readData request).outcome tree = .ok data)
      (failed : template.render data Session.empty = .error failure session) :
      Fault tree request .render (.unrendered failure)
  | output {path text : String} {error : AccessError} (given : request.output = some path)
      (refused : tree.write (.ofText path) text = .error error) :
      Fault tree request .output (.unwritable (Location.ofText path).text error)
  | unencodable {content : List CodePoint} {fault : Utf8.Unencodable}
      (composed : (Job.compose request).outcome tree = .ok content) (unencoded : Utf8.encode content = .error fault)
      (opened : ∀ path, request.output = some path → ∃ after, tree.write (.ofText path) "" = .ok after) :
      Fault tree request .output (.unencodable fault)

namespace Job
variable {tree : FileTree}

theorem readText_fails_iff {location : Location} {shown : String} {problem : Problem} :
    (readText location shown).outcome tree = .error problem ↔ tree.Unreadable location shown problem := by
  rw [outcome_readText]
  constructor
  · intro failed
    split at failed
    next error missed =>
      cases failed
      exact .refused missed
    next bytes held =>
      split at failed
      · cases failed
      next fault undecoded =>
        cases failed
        exact .broken held undecoded
  · rintro (missed | ⟨held, undecoded⟩)
    · simp only [missed]
    · simp only [held, undecoded]

theorem parseData_fails_iff {text : List Char} {problem : Problem} :
    (parseData text).outcome tree = .error problem ↔ DataFault text problem := by
  unfold parseData
  constructor
  · intro failed
    split at failed
    next => cases failed
    next value other read =>
      cases failed
      exact .noObject read other
    next unread =>
      cases failed
      exact .broken unread
    next unread =>
      cases failed
      exact .tooLong unread
  · rintro (unread | unread | ⟨read, other⟩)
    · simp only [unread, outcome_throw]
    · simp only [unread, outcome_throw]
    · rw [read]
      split
      · next same => cases same; exact absurd rfl (other _)
      · rfl
      · next same => cases same
      · next same => cases same

theorem readEntry_fails_iff {directory : Location} {registry : Registry} {name : String} {problem : Problem} :
    (readEntry directory registry name).outcome tree = .error problem ↔
      tree.Unreadable (directory.child name) (directory.child name).text problem := by
  rw [readEntry, outcome_bind (reads_readText _ _) fun _ => reads_pure _, bind_error_iff, readText_fails_iff]
  simp only [outcome_pure, reduceCtorEq, and_false, exists_false, or_false]

theorem takeWhile_name {name : List Char} (first : '=' ∉ name) (rest : List Char) :
    (name ++ rest).takeWhile (· ≠ '=') = name ++ rest.takeWhile (· ≠ '=') :=
  List.takeWhile_append_of_pos fun c inside => by simpa using fun same : c = '=' => first (same ▸ inside)

theorem splitEquals_absent {word : List Char} (absent : '=' ∉ word) : splitEquals word = (word, none) := by
  have before : word.takeWhile (· ≠ '=') = word := by simpa using takeWhile_name absent []
  simp only [splitEquals, before, Nat.lt_irrefl, if_false]

theorem splitEquals_found {name path : List Char} (first : '=' ∉ name) :
    splitEquals (name ++ '=' :: path) = (name, some path) := by
  have before : (name ++ '=' :: path).takeWhile (· ≠ '=') = name := by simpa using takeWhile_name first ('=' :: path)
  have more : name.length < (name ++ '=' :: path).length := by simp
  simp only [splitEquals, before, more, if_true]
  simp

/-- What a partial by name and path comes to once its text is taken apart. -/
theorem outcome_readPartial {registry : Registry} {option : String} {name path : List Char}
    (split : option.toList = name ++ '=' :: path) (first : '=' ∉ name) :
    (readPartial registry (some option)).outcome tree =
      if name = [] then .error (.invalidPartial option)
      else do
        let content ← (readText (.ofText (String.ofList path)) (String.ofList path)).outcome tree
        return registry.put (String.ofList name) (String.ofList content) := by
  simp only [readPartial, split, splitEquals_found first]
  cases name with
  | nil => rfl
  | cons c name => exact outcome_bind (reads_readText _ _) (fun _ => reads_pure _) tree

theorem readPartial_fails_iff {registry : Registry} {value : Option String} {problem : Problem} :
    (readPartial registry value).outcome tree = .error problem ↔ PartialFault tree value problem := by
  constructor
  · intro failed
    cases value with
    | none =>
      cases failed
      exact .valueless
    | some option =>
      by_cases separated : '=' ∈ option.toList
      · obtain ⟨name, path, split, first⟩ := List.eq_append_cons_of_mem separated
        rw [outcome_readPartial split first] at failed
        split at failed
        next unnamed =>
          cases failed
          exact .nameless (.inr (by simp [split, unnamed]))
        next named =>
          rw [bind_error_iff, readText_fails_iff] at failed
          obtain unread | ⟨content, -, failed⟩ := failed
          · exact .unreadable split named first unread
          · cases failed
      · rw [readPartial, splitEquals_absent separated] at failed
        cases failed
        exact .nameless (.inl separated)
  · rintro (_ | unnamed | ⟨split, named, first, unread⟩)
    · rfl
    next option =>
      by_cases separated : '=' ∈ option.toList
      · obtain ⟨name, path, split, first⟩ := List.eq_append_cons_of_mem separated
        rw [outcome_readPartial split first, if_pos]
        -- The first equals sign is the leading one, so nothing stands before it.
        obtain absent | leading := unnamed
        · exact absurd separated absent
        · cases name with
          | nil => rfl
          | cons c name => simp [split] at leading; simp [leading] at first
      · rw [readPartial, splitEquals_absent separated]
        rfl
    · rw [outcome_readPartial split first, if_neg named, bind_error_iff, readText_fails_iff]
      exact .inl unread

theorem covers_readDirectory {request : Request} {path : String} (given : request.partialsDirectory = some path)
    (tree : FileTree) : Covers (Fault tree request) [.directory, .entries] ((readDirectory path).outcome tree) := by
  rw [outcome_readDirectory]
  cases holds : tree.holdsDirectory (.ofText path) with
  | error error =>
    refine Covers.fails (fun other => ⟨fun fault => ?_, ?_⟩) _
    · cases fault <;> grind
    · rintro rfl
      exact .inaccessible given holds
  | ok holds' =>
    cases holds' with
    | false =>
      refine Covers.fails (fun other => ⟨fun fault => ?_, ?_⟩) _
      · cases fault <;> grind
      · rintro rfl
        exact .noDirectory given holds
    | true =>
      -- The directory is there, so all that is left is to read its files in order.
      refine Covers.skip (fun problem fault => ?_) (Covers.single fun problem => ?_)
      · cases fault <;> grind
      rw [outcome_readEntries]
      have each (registry : Registry) (name : String) (problem : Problem) :
          (readEntry (.ofText path) registry name).outcome tree = .error problem ↔ _ := readEntry_fails_iff
      refine (Covers.foldlM each _ _ problem).trans ⟨?_, fun fault => ?_⟩
      · rintro ⟨name, first⟩
        exact .entry given first
      · cases fault with
        | entry given' first =>
          cases given.symm.trans given'
          exact ⟨_, first⟩

theorem covers_readGiven (request : Request) (tree : FileTree) :
    Covers (Fault tree request) [.directory, .entries] ((readGiven request).outcome tree) := by
  unfold readGiven
  cases given : request.partialsDirectory with
  | none =>
    apply Covers.pure
    rintro stage inside problem fault
    cases fault <;> simp_all
  | some path => exact covers_readDirectory given tree

theorem covers_readPartials (request : Request) (tree : FileTree) :
    Covers (Fault tree request) [.directory, .entries, .options] ((readPartials request).outcome tree) := by
  rw [outcome_readPartials]
  refine (covers_readGiven request tree).bind fun registry _ => Covers.single fun problem => ?_
  have each (registry : Registry) (value : Option String) (problem : Problem) :
    (readPartial registry value).outcome tree = .error problem ↔ PartialFault tree value problem := readPartial_fails_iff
  refine (Covers.foldlM each request.partials registry problem).trans ⟨?_, ?_⟩
  · rintro ⟨option, first⟩
    exact .option first
  · intro fault
    cases fault with
    | option first => exact ⟨_, first⟩

theorem covers_template (request : Request) (tree : FileTree) :
    Covers (Fault tree request) [.template] ((readText (.ofText request.template) request.template).outcome tree) := by
  refine Covers.single fun problem => readText_fails_iff.trans ⟨.template, ?_⟩
  intro fault
  cases fault with
  | template unread => exact unread

theorem covers_compile (request : Request) (tree : FileTree) :
    Covers (Fault tree request) Stage.ofCheck ((compile request).outcome tree) := by
  rw [outcome_compile]
  refine (covers_template request tree).bind fun content read => ?_
  refine (covers_readPartials request tree).bind fun partials registered => Covers.single fun problem => ⟨?_, ?_⟩
  · intro failed
    cases same : (Template.compile (String.ofList content) partials (.dict [])).result with
    | ok template =>
      rw [same] at failed
      cases failed
    | error failure =>
      rw [same] at failed
      cases failed
      exact .compile read registered same
  · intro fault
    cases fault with
    | compile read' registered' failed =>
      rw [read] at read'
      rw [registered] at registered'
      cases read'
      cases registered'
      rw [failed]
      rfl

theorem covers_readData (request : Request) (tree : FileTree) :
    Covers (Fault tree request) [.data] ((readData request).outcome tree) := by
  refine Covers.single fun problem => ?_
  rw [outcome_readData]
  cases given : request.data with
  | some text =>
    refine parseData_fails_iff.trans ⟨.dataText given, fun fault => ?_⟩
    cases fault <;> grind
  | none =>
    cases given' : request.dataFile with
    | none =>
      refine ⟨nofun, fun fault => ?_⟩
      cases fault <;> grind
    | some path =>
      simp only [bind_error_iff, readText_fails_iff, parseData_fails_iff]
      constructor
      · rintro (unread | ⟨content, read, wrong⟩)
        · exact .unreadData given given' unread
        · exact .dataFile given given' read wrong
      · intro fault
        cases fault <;> grind

theorem covers_compose (request : Request) (tree : FileTree) :
    Covers (Fault tree request) (Stage.ofCheck ++ [.data, .render]) ((compose request).outcome tree) := by
  rw [outcome_compose]
  refine (covers_compile request tree).bind fun template compiled => ?_
  refine (covers_readData request tree).bind fun data read => Covers.single fun problem => ?_
  rw [outcome_evaluate]
  constructor
  · intro failed
    split at failed
    · cases failed
    next failure session same =>
      cases failed
      exact .render compiled read same
  · intro fault
    cases fault with
    | render compiled' read' failed =>
      rw [compiled] at compiled'
      rw [read] at read'
      cases compiled'
      cases read'
      rw [failed]

theorem performed_eq (request : Request) (tree : FileTree) : (performed request tree).1 =
    (compose request).outcome tree >>= fun text => (delivered request tree text).1 := by
  unfold performed
  cases (compose request).outcome tree <;> rfl

theorem covers_performed (request : Request) (tree : FileTree) :
    Covers (Fault tree request) Stage.ofRender (performed request tree).1 := by
  rw [performed_eq]
  refine (covers_compose request tree).bind fun content composed => Covers.single fun problem => ?_
  rw [delivered_error_iff]
  constructor
  · rintro (⟨path, error, given, refused, rfl⟩ | ⟨fault, unencoded, opened, rfl⟩)
    · exact .output given refused
    · exact .unencodable composed unencoded opened
  · intro fault
    cases fault with
    | output given refused => exact .inl ⟨_, _, given, FileTree.write_refused refused "", rfl⟩
    | unencodable composed' unencoded opened =>
      cases composed.symm.trans composed'
      exact .inr ⟨_, unencoded, opened, rfl⟩

end Job

/-- Problems that no stage takes for its own, so that a run ends with them as with any accident. -/
inductive Problem.Overlooked : Problem → Prop
  | undecodable (fault : Utf8.Fault) : Overlooked (.undecodable fault)
  | nullCharacter (path : String) : Overlooked (.unreadable path .nullCharacter)
  | inaccessible (path : String) (error : AccessError) : Overlooked (.inaccessible path error)
  | valueless : Overlooked .partialWithoutValue
  | undiagnosed {failure : CompileFailure} (other : ∀ diagnostic, failure ≠ .diagnosed diagnostic) :
      Overlooked (.uncompiled failure)
  | tooLong (digits : Nat) : Overlooked (.integerTooLong digits)

theorem Problem.Overlooked.unexpected {problem : Problem} (overlooked : problem.Overlooked) : problem.expected? = none := by
  cases overlooked with
  | @undiagnosed failure other =>
    cases failure with
    | diagnosed diagnostic => exact absurd rfl (other diagnostic)
    | _ => rfl
  | _ => rfl

theorem FileTree.Unreadable.expected {tree : FileTree} {location : Location} {shown : String} {problem : Problem}
    (unread : tree.Unreadable location shown problem) :
    problem.Overlooked ∨ problem.expected? = some .inputError := by
  cases unread with
  | @refused error missed =>
    cases error with
    | nullCharacter => exact .inl (.nullCharacter shown)
    | _ => exact .inr rfl
  | broken held undecoded => exact .inl (.undecodable _)

theorem PartialFault.expected {tree : FileTree} {option : Option String} {problem : Problem}
    (fault : PartialFault tree option problem) : problem.Overlooked ∨ problem.expected? = some .inputError := by
  cases fault with
  | valueless => exact .inl .valueless
  | nameless unnamed => exact .inr rfl
  | unreadable split named first unread => exact unread.expected

theorem DataFault.expected {text : List Char} {problem : Problem} (fault : DataFault text problem) :
    problem.Overlooked ∨ problem.expected? = some .inputError := by
  cases fault with
  | broken unread => exact .inr rfl
  | tooLong unread => exact .inl (.tooLong _)
  | noObject read other => exact .inr rfl

/-- What a stage finds is expected there, unless it is overlooked or not input. -/
theorem Fault.expected {tree : FileTree} {request : Request} {stage : Stage} {problem : Problem}
    (fault : Fault tree request stage problem) : problem.Overlooked ∨ problem.expected? = some stage.exitCode ∨
      problem.expected? = none ∧ stage.exitCode = .renderError := by
  cases fault with
  | template unread => exact unread.expected.imp_right .inl
  | noDirectory given missed => exact .inr (.inl rfl)
  | inaccessible given missed => exact .inl (.inaccessible _ _)
  | entry given first => exact first.found.expected.imp_right .inl
  | option first => exact first.found.expected.imp_right .inl
  | @compile content partials failure read registered failed =>
    cases failure with
    | diagnosed diagnostic => exact .inr (.inl rfl)
    | _ => exact .inl (.undiagnosed nofun)
  | unreadData none given unread => exact unread.expected.imp_right .inl
  | dataText given wrong => exact wrong.expected.imp_right .inl
  | dataFile none given read wrong => exact wrong.expected.imp_right .inl
  | @render template data failure session compiled read failed =>
    cases failure with
    | notIterable path position => exact .inr (.inl rfl)
    | _ => exact .inr (.inr ⟨rfl, rfl⟩)
  | output given refused => exact .inr (.inr ⟨rfl, rfl⟩)
  | unencodable composed unencoded opened => exact .inr (.inr ⟨rfl, rfl⟩)

/-- The words ask for a job with these stages. -/
inductive Asks (words : List String) (request : Request) : List Stage → Prop
  | check (parsed : parseAll words = .ok (.check request)) : Asks words request Stage.ofCheck
  | render (parsed : parseAll words = .ok (.render request)) : Asks words request Stage.ofRender

variable {words : List String} {request : Request} {stages : List Stage}

namespace Asks

theorem concluded (asked : Asks words request stages) (tree : FileTree) : ∃ log result,
    (request.verbose = false → log = "") ∧ (runOn words tree).1 = concluded log result ∧
      Covers (Fault tree request) stages result := by
  cases asked with
  | check parsed =>
    obtain ⟨log, quiet, same⟩ := runOn_check parsed tree
    refine ⟨log, _, quiet, by rw [same], ?_⟩
    rw [Job.outcome_check, ← List.append_nil Stage.ofCheck]
    exact (Job.covers_compile request tree).bind fun template _ => Covers.pure nofun _
  | render parsed =>
    obtain ⟨log, quiet, same⟩ := runOn_render parsed tree
    exact ⟨log, _, quiet, by rw [same], Job.covers_performed request tree⟩

theorem fails {stage : Stage} {problem : Problem} (asked : Asks words request stages)
    (first : First (Fault tree request) stages stage problem) : ∃ log, (request.verbose = false → log = "") ∧
      (runOn words tree).1 = ⟨problem.exitCode.number, "", log ++ lines [problem.report]⟩ := by
  obtain ⟨log, result, quiet, same, covers⟩ := asked.concluded tree
  obtain rfl := (covers problem).mpr ⟨stage, first⟩
  exact ⟨log, quiet, same⟩

end Asks

/-- The exit code is that of the first stage with a fault. What that stage finds is reported as an error, and only what is
overlooked ends the run as an accident does. -/
theorem runOn_exits_at_first_fault (asked : Asks words request stages) (tree : FileTree) :
    ((∀ stage ∈ stages, ∀ problem, ¬ Fault tree request stage problem) →
      (runOn words tree).1.exitCode = ExitCode.success.number) ∧
    ∀ stage problem, First (Fault tree request) stages stage problem → ∃ log, (request.verbose = false → log = "") ∧
      (¬ problem.Overlooked → (runOn words tree).1.exitCode = stage.exitCode.number ∧
        (stage.exitCode ≠ .renderError → (runOn words tree).1.errors = log ++ lines ["Error: " ++ problem.message])) ∧
      (problem.Overlooked → (runOn words tree).1.exitCode = ExitCode.renderError.number ∧
        (runOn words tree).1.errors = log ++ lines ["Unexpected error: " ++ problem.message]) := by
  constructor
  · intro clean
    obtain ⟨log, result, -, same, covers⟩ := asked.concluded tree
    obtain ⟨text, rfl⟩ := covers.succeeds clean
    rw [same]
    rfl
  · intro stage problem first
    obtain ⟨log, quiet, same⟩ := asked.fails first
    refine ⟨log, quiet, fun noticed => ?_, fun overlooked => ?_⟩
    · obtain overlooked | expected | ⟨unexpected, final⟩ := first.found.expected
      · exact absurd overlooked noticed
      · simp only [same, Problem.exitCode, Problem.report, expected, Option.getD_some, Option.isSome_some, if_true,
          implies_true, and_self]
      · simp only [same, Problem.exitCode, unexpected, final, Option.getD_none, true_and]
        exact fun other => absurd rfl other
    · simp only [same, Problem.exitCode, Problem.report, overlooked.unexpected, Option.getD_none, Option.isSome_none,
        Bool.false_eq_true, if_false, and_self]

def Request.ofPath (path : String) : Request := ⟨path, none, [], false, none, none, none⟩

theorem classifyAll_plain {grammar : Grammar} {word : String} {words : List String} (plain : word.toList.head? ≠ some '-') :
    classifyAll grammar (word :: words) = do
      let rest ← classifyAll grammar words
      return (word, .plain) :: rest := by
  rw [classifyAll]
  · simp only [classify, if_pos plain]
    rfl
  · rintro rfl
    exact plain rfl

/-- A command and a path alone ask for what the path leads to, with nothing else given. -/
theorem parseAll_path {path : String} (plain : path.toList.head? ≠ some '-') :
    parseAll ["check", path] = .ok (.check (.ofPath path)) ∧
      parseAll ["render", path] = .ok (.render (.ofPath path)) := by
  have named {grammar : Grammar} : classifyAll grammar [path] = .ok [(path, .plain)] := classifyAll_plain plain
  have chosen {command : String} (here : command ∈ commandNames) :
      parse mainGrammar [command, path] = .ok ⟨[], [command, path], []⟩ := by
    have word : command.toList.head? ≠ some '-' := by
      simp only [commandNames, List.mem_cons, List.not_mem_nil, or_false] at here
      obtain rfl | rfl | rfl := here <;> decide
    have choice : mainGrammar.operand = .command commandNames := rfl
    simp [parse, classifyAll_plain word, named, choice, consume, chooseCommand, here, bind, pure, Except.bind, Except.pure]
  have given {grammar : Grammar} (operand : grammar.operand = .template) : parse grammar [path] = .ok ⟨[], [path], []⟩ := by
    simp [parse, named, operand, consume, bind, pure, Except.bind, Except.pure]
  constructor
  · have command := chosen (by decide : "check" ∈ commandNames)
    have settings := given (rfl : checkGrammar.operand = .template)
    simp [parseAll, parseCommand, command, settings, bind, pure, Except.bind, Except.pure]
    rfl
  · have command := chosen (by decide : "render" ∈ commandNames)
    have settings := given (rfl : renderGrammar.operand = .template)
    simp [parseAll, parseCommand, command, settings, bind, pure, Except.bind, Except.pure]
    rfl

theorem parseAll_unnamed : parseAll ["render", "t.tpl", "-p", "a", "--data", "["] =
    .ok (.render ⟨"t.tpl", none, [some "a"], false, some "[", none, none⟩) := by
  have words : classifyAll mainGrammar ["render", "t.tpl", "-p", "a", "--data", "["] =
    .ok [("render", .plain), ("t.tpl", .plain), ("-p", .unknown), ("a", .plain), ("--data", .unknown), ("[", .plain)] := rfl
  have choice : mainGrammar.operand = .command commandNames := rfl
  have settings : classifyAll renderGrammar ["t.tpl", "-p", "a", "--data", "["] =
    .ok [("t.tpl", .plain), ("-p", .switch ⟨["--partial", "-p"], .partialSource, true⟩ "-p" none), ("a", .plain),
      ("--data", .switch ⟨["--data", "-d"], .data, true⟩ "--data" none), ("[", .plain)] := rfl
  have operand : renderGrammar.operand = .template := rfl
  simp [parseAll, parseCommand, parse, words, choice, settings, operand, consume, chooseCommand, commandNames, clusterOf,
    apply, valueOf, bind, pure, Except.bind, Except.pure]
  rfl

theorem runOn_exits_at_first_fault_unnamed :
    (runOn ["render", "t.tpl", "-p", "a", "--data", "["] (.ofTemplate [0x78])).1.exitCode = 3 ∧
      (runOn ["render", "t.tpl", "-p", "a", "--data", "["] (.ofTemplate [0x78])).1.errors =
        "Error: Invalid --partial 'a', expected NAME=PATH\n" := by
  have first : First (Fault (.ofTemplate [0x78]) ⟨"t.tpl", none, [some "a"], false, some "[", none, none⟩)
      Stage.ofRender .options (.invalidPartial "a") := by
    refine ⟨[.template, .directory, .entries], [.compile, .data, .render, .output], rfl, ?_, ?_⟩
    · intro stage inside problem fault
      have held : (FileTree.ofTemplate [0x78]).read (.ofText "t.tpl") = .ok [0x78] := by cbv
      have decoded : Utf8.decode [0x78] = .ok ['x'] := by cbv
      cases fault with
      | template unread =>
        cases unread with
        | refused missed => cases held.symm.trans missed
        | broken same undecoded => cases held.symm.trans same; cases decoded.symm.trans undecoded
      | noDirectory given missed => cases given
      | inaccessible given missed => cases given
      | entry given first => cases given
      | _ => simp at inside
    · exact .option (.head (.nameless (.inl (by simp))) [])
  obtain ⟨log, quiet, noticed, -⟩ := (runOn_exits_at_first_fault (.render parseAll_unnamed) _).2 _ _ first
  obtain ⟨code, errors⟩ := noticed (by rintro ⟨⟩)
  rw [quiet rfl] at errors
  exact ⟨code, errors (by decide)⟩

/-- A template that is no text is bad input, but ends a run as an accident. -/
theorem runOn_undecodable : (∃ problem,
      First (Fault (.ofTemplate [0xff]) (.ofPath "t.tpl")) Stage.ofRender .template problem) ∧
    Asks ["render", "t.tpl"] (.ofPath "t.tpl") Stage.ofRender ∧
    (runOn ["render", "t.tpl"] (.ofTemplate [0xff])).1.exitCode ≠ Stage.template.exitCode.number := by
  have parsed := (parseAll_path (by decide : "t.tpl".toList.head? ≠ some '-')).2
  have held : (FileTree.ofTemplate [0xff]).read (.ofText "t.tpl") = .ok [0xff] := by cbv
  have first : First (Fault (.ofTemplate [0xff]) (.ofPath "t.tpl")) Stage.ofRender .template
      (.undecodable ⟨.invalidStart, 0, 0xff, 1⟩) := .head (.template (.broken held (by cbv))) _
  refine ⟨⟨_, first⟩, .render parsed, ?_⟩
  obtain ⟨log, -, same⟩ := (Asks.render parsed).fails first
  rw [same]
  exact (by decide : (1 : Nat) ≠ 3)

end Stencil.Command
