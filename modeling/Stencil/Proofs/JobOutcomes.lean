import Stencil.Command.Run

/-! What jobs come to on a tree of files. All that a run does before it writes only reads: it leaves the tree as it is, and
what was noted before makes no difference to it, so its steps can be taken one by one on the same tree. -/

namespace Stencil.Command
open Text

namespace FileTree

theorem run_isDirectory (location : Location) (tree : FileTree) :
    (Files.isDirectory location : StateM FileTree (Except AccessError Bool)).run tree =
      (tree.holdsDirectory location, tree) := by
  simp only [Files.isDirectory, StateT.run_bind, StateT.run_get, pure_bind, StateT.run_pure]
  rfl

theorem run_write (location : Location) (text : String) (tree : FileTree) :
    (Files.write location text : StateM FileTree (Except AccessError Unit)).run tree =
      match tree.write location text with
      | .ok after => (.ok (), after)
      | .error error => (.error error, tree) := by
  simp only [Files.write, StateT.run_bind, StateT.run_get, pure_bind]
  cases tree.write location text <;> rfl

/-- Whether a file can be written does not depend on the text. -/
theorem write_refused {tree : FileTree} {location : Location} {text : String} {error : AccessError}
    (refused : tree.write location text = .error error) (other : String) : tree.write location other = .error error := by
  unfold write at refused ⊢
  cases found : tree.find location with
  | error error =>
    rw [found] at refused
    exact refused
  | ok place =>
    rw [found] at refused
    cases place with
    | directory path => exact refused
    | file path content => cases refused
    | absent path => cases refused

end FileTree

namespace Job
variable {α β : Type}

def on (job : Job (StateM FileTree) α) (notes : List String) (tree : FileTree) :
    (Except Problem α × List String) × FileTree :=
  (job.run.run notes).run tree

def outcome (job : Job (StateM FileTree) α) (tree : FileTree) : Except Problem α := (job.on [] tree).1.1

/-- The job adds notes and changes no file. -/
def Reads (job : Job (StateM FileTree) α) : Prop :=
  ∀ notes tree, ∃ more, job.on notes tree = ((job.outcome tree, notes ++ more), tree)

variable {tree : FileTree}

theorem on_bind (job : Job (StateM FileTree) α) (next : α → Job (StateM FileTree) β) (notes : List String)
    (tree : FileTree) : (job >>= next).on notes tree =
      match job.on notes tree with
      | ((.ok value, noted), rest) => (next value).on noted rest
      | ((.error problem, noted), rest) => ((.error problem, noted), rest) := by
  simp only [on, ExceptT.run_bind, StateT.run_bind]
  obtain ⟨⟨result, noted⟩, rest⟩ := (job.run.run notes).run tree
  cases result <;> rfl

theorem reads_pure (value : α) : Reads (pure value) := fun notes tree => ⟨[], by rw [List.append_nil]; rfl⟩

theorem reads_throw (problem : Problem) : Reads (throw problem : Job (StateM FileTree) α) :=
  fun notes tree => ⟨[], by rw [List.append_nil]; rfl⟩

@[simp] theorem outcome_pure (value : α) : outcome (pure value) tree = .ok value := rfl

@[simp] theorem outcome_throw (problem : Problem) :
    outcome (throw problem : Job (StateM FileTree) α) tree = .error problem := rfl

section
variable {job : Job (StateM FileTree) α} {next : α → Job (StateM FileTree) β}

theorem outcome_bind (first : Reads job) (rest : ∀ value, Reads (next value)) (tree : FileTree) :
    (job >>= next).outcome tree = job.outcome tree >>= fun value => (next value).outcome tree := by
  obtain ⟨more, same⟩ := first [] tree
  rw [outcome, on_bind, same]
  cases job.outcome tree with
  | error problem => rfl
  | ok value =>
    obtain ⟨more', same'⟩ := rest value ([] ++ more) tree
    exact congrArg (·.1.1) same'

theorem Reads.bind (first : Reads job) (rest : ∀ value, Reads (next value)) : Reads (job >>= next) := by
  intro notes tree
  obtain ⟨more, same⟩ := first notes tree
  rw [outcome_bind first rest, on_bind, same]
  cases job.outcome tree with
  | error problem => exact ⟨more, rfl⟩
  | ok value =>
    obtain ⟨more', same'⟩ := rest value (notes ++ more) tree
    exact ⟨more ++ more', by rw [← List.append_assoc]; exact same'⟩

end

/-- The job does no more than to note something. -/
structure Quiet (job : Job (StateM FileTree) Unit) : Prop where
  reads : Reads job
  succeeds : ∀ tree, job.outcome tree = .ok ()

theorem quiet_note (line : String) : Quiet (note line) := ⟨fun _ _ => ⟨_, rfl⟩, fun _ => rfl⟩

theorem quiet_pure : Quiet (pure ()) := ⟨reads_pure (), fun _ => rfl⟩

theorem outcome_after {job : Job (StateM FileTree) Unit} {next : Job (StateM FileTree) α} (quiet : Quiet job)
    (rest : Reads next) (tree : FileTree) : (job >>= fun _ => next).outcome tree = next.outcome tree := by
  rw [outcome_bind quiet.reads fun _ => rest, quiet.succeeds]
  rfl

theorem quiet_forM {items : List β} {step : β → Job (StateM FileTree) Unit} (each : ∀ item, Quiet (step item)) :
    Quiet (items.forM step) := by
  induction items with
  | nil => exact quiet_pure
  | cons item items ih =>
    refine ⟨(each item).reads.bind fun _ => ih.reads, fun tree => ?_⟩
    exact (outcome_after (each item) ih.reads tree).trans (ih.succeeds tree)

section
variable {step : α → β → Job (StateM FileTree) α} (each : ∀ sum item, Reads (step sum item))
include each

theorem reads_foldlM (items : List β) (start : α) : Reads (items.foldlM step start) := by
  induction items generalizing start with
  | nil => exact reads_pure start
  | cons item items ih => exact (each start item).bind ih

theorem outcome_foldlM (items : List β) (start : α) (tree : FileTree) :
    (items.foldlM step start).outcome tree = items.foldlM (fun sum item => (step sum item).outcome tree) start := by
  induction items generalizing start with
  | nil => rfl
  | cons item items ih =>
    rw [List.foldlM_cons, List.foldlM_cons, outcome_bind (each start item) (reads_foldlM each items)]
    simp only [ih]

end

theorem access_on (effect : StateM FileTree (Except AccessError α)) (problem : AccessError → Problem) (notes : List String)
    (tree : FileTree) :
    (access effect problem).on notes tree = (((effect.run tree).1.mapError problem, notes), (effect.run tree).2) := by
  have lifted : on (liftM (liftM effect : StateT (List String) (StateM FileTree) (Except AccessError α))) notes tree =
      ((.ok (effect.run tree).1, notes), (effect.run tree).2) := rfl
  rw [access, on_bind, lifted]
  cases (effect.run tree).1 <;> rfl

theorem outcome_access (effect : StateM FileTree (Except AccessError α)) (problem : AccessError → Problem)
    (tree : FileTree) : (access effect problem).outcome tree = (effect.run tree).1.mapError problem := by
  rw [outcome, access_on]

theorem reads_access {effect : StateM FileTree (Except AccessError α)} (looks : ∀ tree, (effect.run tree).2 = tree)
    (problem : AccessError → Problem) : Reads (access effect problem) := by
  intro notes tree
  exact ⟨[], by rw [access_on, outcome_access, looks, List.append_nil]⟩

theorem reads_read (location : Location) (problem : AccessError → Problem) : Reads (access (Files.read location) problem) :=
  reads_access (fun _ => rfl) problem

theorem reads_isDirectory (location : Location) (problem : AccessError → Problem) :
    Reads (access (Files.isDirectory location) problem) :=
  reads_access (fun _ => rfl) problem

theorem reads_readText (location : Location) (shown : String) : Reads (readText location shown) := by
  apply (reads_read _ _).bind
  intro bytes
  split
  · exact reads_pure _
  · exact reads_throw _

theorem outcome_readText (location : Location) (shown : String) (tree : FileTree) :
    (readText location shown).outcome tree =
      match tree.read location with
      | .error error => .error (.unreadable shown error)
      | .ok bytes =>
        match Utf8.decode bytes with
        | .ok text => .ok (Utf8.unifyLines text)
        | .error fault => .error (.undecodable fault) := by
  have look : ((Files.read location : StateM FileTree _).run tree).1 = tree.read location := rfl
  rw [outcome, readText, on_bind, access_on, look]
  cases tree.read location with
  | error error => rfl
  | ok bytes =>
    have passed : (Except.ok bytes).mapError (Problem.unreadable shown) = .ok bytes := rfl
    simp only [passed]
    cases Utf8.decode bytes <;> rfl

def readEntry (directory : Location) (registry : Registry) (name : String) : Job (StateM FileTree) Registry := do
  let location := directory.child name
  return registry.put (Location.stem name) (String.ofList (← readText location location.text))

theorem reads_readEntry (directory : Location) (registry : Registry) (name : String) :
    Reads (readEntry directory registry name) := by
  unfold readEntry
  exact (reads_readText _ _).bind fun _ => reads_pure _

def templatesAmong (names : List String) : List String :=
  (names.filter fun name => templateEnding.isSuffixOf name.toList).mergeSort (· ≤ ·)

/-- What is left to do for a directory that is there. -/
def readEntries (directory : Location) : Job (StateM FileTree) Registry := do
  let names ← (liftM (Files.names directory : StateM FileTree (List String)) :
    StateT (List String) (StateM FileTree) (List String))
  (templatesAmong names).foldlM (readEntry directory) Registry.empty

theorem readEntries_on (directory : Location) (notes : List String) (tree : FileTree) :
    (readEntries directory).on notes tree =
      ((templatesAmong (tree.names directory)).foldlM (readEntry directory) Registry.empty).on notes tree := by
  rw [readEntries, on_bind]
  rfl

theorem reads_readEntries (directory : Location) : Reads (readEntries directory) := by
  intro notes tree
  simpa only [outcome, readEntries_on] using reads_foldlM (reads_readEntry directory) _ _ notes tree

theorem outcome_readEntries (directory : Location) (tree : FileTree) : (readEntries directory).outcome tree =
    (templatesAmong (tree.names directory)).foldlM (fun registry name => (readEntry directory registry name).outcome tree)
      Registry.empty := by
  rw [outcome, readEntries_on]
  exact outcome_foldlM (reads_readEntry directory) _ _ tree

theorem readDirectory_eq (path : String) : (readDirectory path : Job (StateM FileTree) Registry) =
    access (Files.isDirectory (Location.ofText path)) (.inaccessible (Location.ofText path).text) >>= fun holds =>
      if holds then readEntries (Location.ofText path) else throw (.noDirectory (Location.ofText path).text) := by
  refine congrArg (access _ _ >>= ·) (funext fun holds => ?_)
  cases holds <;> rfl

theorem reads_readDirectory (path : String) : Reads (readDirectory path) := by
  rw [readDirectory_eq]
  apply (reads_isDirectory _ _).bind
  intro holds
  split
  · exact reads_readEntries _
  · exact reads_throw _

theorem reads_readPartial (registry : Registry) (value : Option String) : Reads (readPartial registry value) := by
  unfold readPartial
  split
  · exact reads_throw _
  · split
    · split
      · exact (reads_throw _).bind fun _ => (reads_readText _ _).bind fun _ => reads_pure _
      · exact (reads_readText _ _).bind fun _ => reads_pure _
    · exact reads_throw _

theorem outcome_readDirectory (path : String) (tree : FileTree) : (readDirectory path).outcome tree =
    match tree.holdsDirectory (.ofText path) with
    | .error error => .error (.inaccessible (Location.ofText path).text error)
    | .ok false => .error (.noDirectory (Location.ofText path).text)
    | .ok true => (readEntries (.ofText path)).outcome tree := by
  have rest (holds : Bool) : Reads (if holds then readEntries (Location.ofText path)
      else throw (.noDirectory (Location.ofText path).text)) := by
    split
    · exact reads_readEntries _
    · exact reads_throw _
  rw [readDirectory_eq, outcome_bind (reads_isDirectory _ _) rest, outcome_access, FileTree.run_isDirectory]
  cases tree.holdsDirectory (.ofText path) with
  | error error => rfl
  | ok holds => cases holds <;> rfl

/-- The registry that a job fills first, if there is a directory to fill it from. -/
def readGiven (request : Request) : Job (StateM FileTree) Registry :=
  match request.partialsDirectory with
  | some path => readDirectory path
  | none => pure .empty

theorem readPartials_eq (request : Request) : readPartials request =
    readGiven request >>= fun registry => request.partials.foldlM readPartial registry := by
  unfold readPartials readGiven
  cases request.partialsDirectory <;> rfl

theorem reads_readGiven (request : Request) : Reads (readGiven request) := by
  unfold readGiven
  split
  · exact reads_readDirectory _
  · exact reads_pure _

theorem reads_readPartials (request : Request) : Reads (readPartials request) := by
  rw [readPartials_eq]
  exact (reads_readGiven request).bind fun _ => reads_foldlM reads_readPartial _ _

theorem outcome_readPartials (request : Request) (tree : FileTree) : (readPartials request).outcome tree =
    (readGiven request).outcome tree >>= fun registry =>
      request.partials.foldlM (fun registry value => (readPartial registry value).outcome tree) registry := by
  rw [readPartials_eq, outcome_bind (reads_readGiven request) fun _ => reads_foldlM reads_readPartial _ _]
  simp only [outcome_foldlM reads_readPartial]

/-- What is left to do for a source and its partials once they are read. -/
def compileRead (content : List Char) (partials : Registry) : Job (StateM FileTree) Template := do
  let compiled := Template.compile (String.ofList content) partials (.dict [])
  compiled.expansions.forM fun expansion => note (expansionNote expansion)
  match compiled.result with
  | .error failure => throw (.uncompiled failure)
  | .ok template =>
    note ("template: Compiled template (" ++ toString content.length ++ " chars, " ++ toString partials.size ++
      " partials) into " ++ toString template.nodeCount ++ " nodes")
    return template

theorem compile_eq (request : Request) : compile request = (do
    let content ← readText (.ofText request.template) request.template
    compileRead content (← readPartials request)) := rfl

theorem quiet_expansions (expansions : List Expansion) :
    Quiet (expansions.forM fun expansion => note (expansionNote expansion)) := quiet_forM fun _ => quiet_note _

theorem reads_compileRead (content : List Char) (partials : Registry) : Reads (compileRead content partials) := by
  apply (quiet_expansions _).reads.bind
  intro _
  split
  · exact reads_throw _
  · exact (quiet_note _).reads.bind fun _ => reads_pure _

theorem outcome_compileRead (content : List Char) (partials : Registry) (tree : FileTree) :
    (compileRead content partials).outcome tree =
      (Template.compile (String.ofList content) partials (.dict [])).result.mapError .uncompiled := by
  simp only [compileRead]
  cases (Template.compile (String.ofList content) partials (.dict [])).result with
  | error failure => exact outcome_after (quiet_expansions _) (reads_throw _) tree
  | ok template =>
    rw [outcome_after (quiet_expansions _) ((quiet_note _).reads.bind fun _ => reads_pure _)]
    exact outcome_after (quiet_note _) (reads_pure template) tree

theorem reads_compile (request : Request) : Reads (compile request) := by
  rw [compile_eq]
  apply (reads_readText _ _).bind
  intro content
  exact (reads_readPartials request).bind (reads_compileRead content)

theorem outcome_compile (request : Request) (tree : FileTree) : (compile request).outcome tree = (do
    let content ← (readText (.ofText request.template) request.template).outcome tree
    let partials ← (readPartials request).outcome tree
    (Template.compile (String.ofList content) partials (.dict [])).result.mapError .uncompiled) := by
  rw [compile_eq, outcome_bind (reads_readText _ _) fun _ => (reads_readPartials request).bind (reads_compileRead _)]
  simp only [outcome_bind (reads_readPartials request) (reads_compileRead _), outcome_compileRead]

theorem reads_parseData (text : List Char) : Reads (parseData text) := by
  unfold parseData
  split
  · exact reads_pure _
  all_goals exact reads_throw _

theorem reads_readData (request : Request) : Reads (readData request) := by
  unfold readData
  split
  · exact reads_parseData _
  · exact (reads_readText _ _).bind reads_parseData
  · exact reads_pure _

theorem quiet_noteLoops (events : List Event) : Quiet (noteLoops events) := by
  apply quiet_forM
  intro event
  cases event with
  | finished path rounds => exact quiet_note _
  | drawn id value => exact quiet_pure

theorem reads_evaluate (template : Template) (data : Value) : Reads (evaluate template data) := by
  unfold evaluate
  split
  · exact (quiet_noteLoops _).reads.bind fun _ => reads_pure _
  · exact (quiet_noteLoops _).reads.bind fun _ => reads_throw _

theorem outcome_readData (request : Request) (tree : FileTree) : (readData request).outcome tree =
    match request.data, request.dataFile with
    | some text, _ => (parseData text.toList).outcome tree
    | none, some path => (readText (.ofText path) path).outcome tree >>= fun text => (parseData text).outcome tree
    | none, none => .ok (.dict []) := by
  unfold readData
  cases request.data with
  | some text => rfl
  | none =>
    cases request.dataFile with
    | some path => exact outcome_bind (reads_readText _ _) reads_parseData tree
    | none => rfl

theorem outcome_evaluate (template : Template) (data : Value) (tree : FileTree) :
    (evaluate template data).outcome tree =
      match template.render data Session.empty with
      | .ok value _ => .ok value.plain
      | .error failure _ => .error (.unrendered failure) := by
  unfold evaluate
  cases template.render data Session.empty with
  | ok value session => exact outcome_after (quiet_noteLoops _) (reads_pure _) tree
  | error failure session => exact outcome_after (quiet_noteLoops _) (reads_throw _) tree

theorem reads_compose (request : Request) : Reads (compose request) :=
  (reads_compile request).bind fun _ => (reads_readData request).bind fun _ => reads_evaluate _ _

theorem outcome_compose (request : Request) (tree : FileTree) : (compose request).outcome tree = (do
    let template ← (compile request).outcome tree
    let data ← (readData request).outcome tree
    (evaluate template data).outcome tree) := by
  rw [compose, outcome_bind (reads_compile request) fun _ => (reads_readData request).bind fun _ => reads_evaluate _ _]
  simp only [outcome_bind (reads_readData request) fun _ => reads_evaluate _ _]

/-- What delivering a text comes to, and the tree that it leaves. -/
def delivered (request : Request) (tree : FileTree) (content : List CodePoint) : Except Problem String × FileTree :=
  match request.output with
  | none => ((Utf8.encode content).mapError .unencodable, tree)
  | some path =>
    match tree.write (.ofText path) ((Utf8.encode content).toOption.getD ""), Utf8.encode content with
    | .ok after, .ok _ => (.ok "", after)
    | .ok after, .error fault => (.error (.unencodable fault), after)
    | .error error, _ => (.error (.unwritable (Location.ofText path).text error), tree)

theorem encode_on (content : List CodePoint) (notes : List String) (tree : FileTree) :
    (encode content).on notes tree = (((Utf8.encode content).mapError .unencodable, notes), tree) := by
  unfold encode
  cases Utf8.encode content <;> rfl

theorem deliver_on (request : Request) (content : List CodePoint) (notes : List String) (tree : FileTree) :
    (deliver request content).on notes tree =
      (((delivered request tree content).1, notes), (delivered request tree content).2) := by
  unfold deliver delivered
  cases request.output with
  | none => exact encode_on content notes tree
  | some path =>
    simp only [on_bind, access_on, encode_on, FileTree.run_write]
    cases tree.write (.ofText path) ((Utf8.encode content).toOption.getD "") with
    | error error => rfl
    | ok after => cases Utf8.encode content <;> rfl

section
variable {request : Request} {content : List CodePoint} {path : String}

theorem delivered_none (given : request.output = none) :
    delivered request tree content = ((Utf8.encode content).mapError .unencodable, tree) := by
  unfold delivered
  rw [given]

theorem delivered_refused {text : String} {error : AccessError} (given : request.output = some path)
    (refused : tree.write (.ofText path) text = .error error) :
    delivered request tree content = (.error (.unwritable (Location.ofText path).text error), tree) := by
  unfold delivered
  simp only [given, FileTree.write_refused refused]

theorem delivered_encoded {text : String} {after : FileTree} (given : request.output = some path)
    (encoded : Utf8.encode content = .ok text) (written : tree.write (.ofText path) text = .ok after) :
    delivered request tree content = (.ok "", after) := by
  have opened : tree.write (.ofText path) ((Utf8.encode content).toOption.getD "") = .ok after := by
    rw [encoded]
    exact written
  unfold delivered
  rw [given]
  simp only [opened]
  rw [encoded]

theorem delivered_unencoded {fault : Utf8.Unencodable} {after : FileTree} (given : request.output = some path)
    (unencoded : Utf8.encode content = .error fault) (emptied : tree.write (.ofText path) "" = .ok after) :
    delivered request tree content = (.error (.unencodable fault), after) := by
  have opened : tree.write (.ofText path) ((Utf8.encode content).toOption.getD "") = .ok after := by
    rw [unencoded]
    exact emptied
  unfold delivered
  rw [given]
  simp only [opened]
  rw [unencoded]

/-- A text is not delivered if its file cannot be opened, and else if it has no bytes. -/
theorem delivered_error_iff {problem : Problem} : (delivered request tree content).1 = .error problem ↔
    (∃ path error, request.output = some path ∧ tree.write (.ofText path) "" = .error error ∧
      problem = .unwritable (Location.ofText path).text error) ∨
    ∃ fault, Utf8.encode content = .error fault ∧
      (∀ path, request.output = some path → ∃ after, tree.write (.ofText path) "" = .ok after) ∧
      problem = .unencodable fault := by
  cases given : request.output with
  | none =>
    rw [delivered_none given]
    cases Utf8.encode content with
    | ok text =>
      change Except.ok text = .error problem ↔ _
      simp
    | error fault =>
      change Except.error (.unencodable fault) = .error problem ↔ _
      simp [eq_comm]
  | some path =>
    cases opened : tree.write (.ofText path) "" with
    | error error =>
      rw [delivered_refused given opened]
      simp [opened, eq_comm]
    | ok after =>
      cases encoded : Utf8.encode content with
      | error fault =>
        rw [delivered_unencoded given encoded opened]
        simp [opened, eq_comm]
      | ok text =>
        cases written : tree.write (.ofText path) text with
        | error error => cases opened.symm.trans (FileTree.write_refused written "")
        | ok after =>
          rw [delivered_encoded given encoded written]
          simp [opened]

end

/-- What a render comes to, and the tree that it leaves. -/
def performed (request : Request) (tree : FileTree) : Except Problem String × FileTree :=
  match (compose request).outcome tree with
  | .ok content => delivered request tree content
  | .error problem => (.error problem, tree)

theorem render_on (request : Request) (notes : List String) (tree : FileTree) : ∃ more,
    (render request).on notes tree = (((performed request tree).1, notes ++ more), (performed request tree).2) := by
  obtain ⟨more, same⟩ := reads_compose request notes tree
  refine ⟨more, ?_⟩
  rw [render, on_bind, same]
  unfold performed
  cases (compose request).outcome tree with
  | error problem => rfl
  | ok content => exact deliver_on request content _ tree

theorem reads_check (request : Request) : Reads (check request) := (reads_compile request).bind fun _ => reads_pure _

theorem outcome_check (request : Request) (tree : FileTree) : (check request).outcome tree = (do
    let template ← (compile request).outcome tree
    return lines ["Valid: " ++ request.template, "  Partials: " ++ toString template.partials.size,
      "  Nodes: " ++ toString template.nodeCount]) :=
  outcome_bind (reads_compile request) (fun _ => reads_pure _) tree

end Job

/-- What a run shows of what its job came to, after its log. -/
def concluded (log : String) : Except Problem String → Outcome
  | .ok text => ⟨ExitCode.success.number, text, log⟩
  | .error problem => ⟨problem.exitCode.number, "", log ++ lines [problem.report]⟩

theorem Problem.exitCode_ne_success (problem : Problem) : problem.exitCode.number ≠ ExitCode.success.number := by
  unfold exitCode expected?
  split <;> decide

theorem concluded_fails {log : String} {result : Except Problem String}
    (fails : (concluded log result).exitCode ≠ ExitCode.success.number) : ∃ problem, result = .error problem := by
  cases result with
  | error problem => exact ⟨problem, rfl⟩
  | ok text => exact absurd rfl fails

theorem execute_run (verbose : Bool) (job : Job (StateM FileTree) String) (tree : FileTree) :
    (execute verbose job).run tree =
      (concluded (if verbose then lines (job.on [] tree).1.2 else "") (job.on [] tree).1.1, (job.on [] tree).2) := by
  simp only [execute, StateT.run_bind, Job.on]
  obtain ⟨⟨result, notes⟩, after⟩ := (job.run.run []).run tree
  cases result <;> rfl

/-- A tree that holds a template and nothing else. -/
def FileTree.ofTemplate (bytes : List UInt8) : FileTree := ⟨[(["t.tpl"], bytes)], []⟩

/-- A run in memory. -/
def runOn (words : List String) (tree : FileTree) : Outcome × FileTree := (run words : StateM FileTree Outcome).run tree

variable {words : List String} {request : Request}

theorem runOn_stop {stop : Stop} (stopped : parseAll words = .error stop) (tree : FileTree) :
    runOn words tree = (stop.outcome, tree) := by
  simp only [runOn, run, stopped]
  rfl

theorem runOn_render (asked : parseAll words = .ok (.render request)) (tree : FileTree) : ∃ log,
    (request.verbose = false → log = "") ∧
      runOn words tree = (concluded log (Job.performed request tree).1, (Job.performed request tree).2) := by
  obtain ⟨more, same⟩ := Job.render_on request [] tree
  refine ⟨if request.verbose then lines ([] ++ more) else "", fun quiet => by rw [quiet]; rfl, ?_⟩
  simp only [runOn, run, asked, execute_run, same]

theorem runOn_check (asked : parseAll words = .ok (.check request)) (tree : FileTree) : ∃ log,
    (request.verbose = false → log = "") ∧ runOn words tree = (concluded log ((Job.check request).outcome tree), tree) := by
  obtain ⟨more, same⟩ := Job.reads_check request [] tree
  refine ⟨if request.verbose then lines ([] ++ more) else "", fun quiet => by rw [quiet]; rfl, ?_⟩
  simp only [runOn, run, asked, execute_run, same]

end Stencil.Command
