import Mathlib
import Stencil.Proofs.EvaluationReach
import Stencil.Proofs.JobOutcomes
import Stencil.Proofs.TokenRun

/-! What runs leave behind. The result is put somewhere only after all else that can fail has been done, so a run that fails
leaves nothing at all, unless it fails because the text has no bytes: then its file is left empty. A run that writes a file
changes that file alone. -/

namespace Stencil.Command
open Text

namespace FileTree
variable {tree : FileTree} {path : List String} {content : List UInt8}

theorem lookup_put_self : (tree.put path content).files.lookup path = some content := by simp [put]

theorem lookup_put_other {other : List String} (apart : other ≠ path) :
    (tree.put path content).files.lookup other = tree.files.lookup other := by
  have kept (files : List (List String × List UInt8)) :
      (files.filter fun file => file.1 ≠ path).lookup other = files.lookup other := by
    induction files with
    | nil => rfl
    | cons file files ih =>
      obtain ⟨key, held⟩ := file
      by_cases same : key = path
      · subst same
        have elsewhere : (other == key) = false := by simpa using apart
        simpa [List.lookup_cons, elsewhere] using ih
      · rw [List.filter_cons_of_pos (by simpa using same), List.lookup_cons, List.lookup_cons, ih]
  have here : (other == path) = false := by simpa using apart
  simp only [put, List.lookup_cons, here, kept]

theorem isDirectory_put {directory : List String} (held : tree.isDirectory directory = true) :
    (tree.put path content).isDirectory directory = true := by
  simp only [isDirectory, put, paths, Bool.or_eq_true, List.any_eq_true, List.mem_append, List.mem_map] at held ⊢
  obtain held | ⟨other, inside, below⟩ := held
  · exact .inl held
  · refine .inr ⟨other, ?_, below⟩
    obtain ⟨file, inside, rfl⟩ | inside := inside
    · by_cases same : file.1 = path
      · exact .inl ⟨(path, content), by simp, same.symm⟩
      · exact .inl ⟨file, by simp [inside, same], rfl⟩
    · exact .inr inside

/-- Where a text can be written. -/
def Place.target? : Place → Option (List String)
  | .file path _ => some path
  | .absent path => some path
  | .directory _ => none

/-- Where a walk ends with room for a file, there is no directory. -/
theorem walk_target {directory : List String} {parts : List String} {place : Place}
    (walked : tree.walk (.directory directory) parts = .ok place) (target : place.target? = some path) :
    tree.files.lookup path ≠ none ∨ tree.isDirectory path = false := by
  induction parts generalizing directory with
  | nil =>
    cases walked
    cases target
  | cons part parts ih =>
    rw [walk] at walked
    split at walked
    · exact ih walked
    split at walked
    · cases walked
    dsimp only at walked
    split at walked
    next content held =>
      cases parts with
      | nil =>
        cases walked
        cases target
        exact .inl (by simp [held])
      | cons part parts => cases walked
    next free =>
      split at walked
      · exact ih walked
      next missing =>
        cases parts with
        | nil =>
          cases walked
          cases target
          exact .inr (by simpa using missing)
        | cons part parts => cases walked

/-- A walk to a place comes to the file that was put there. No directory that it passes is that place, and each is there
still. -/
theorem walk_put {directory : List String} {parts : List String} {place : Place}
    (walked : tree.walk (.directory directory) parts = .ok place) (target : place.target? = some path) :
    (tree.put path content).walk (.directory directory) parts = .ok (.file path content) := by
  induction parts generalizing directory with
  | nil =>
    cases walked
    cases target
  | cons part parts ih =>
    rw [walk] at walked ⊢
    split at walked
    next upward => rw [if_pos upward]; exact ih walked
    next named =>
    rw [if_neg named]
    split at walked
    · cases walked
    next short =>
    rw [if_neg short]
    dsimp only at walked ⊢
    split at walked
    next held found =>
      cases parts with
      | nil =>
        cases walked
        cases target
        simp only [lookup_put_self]
        rfl
      | cons part parts => cases walked
    next free =>
      split at walked
      next passed =>
        -- The walk goes through this directory, so it cannot end there.
        have apart : directory ++ [part] ≠ path := by
          rintro rfl
          obtain taken | missing := walk_target walked target
          · exact taken free
          · rw [passed] at missing
            cases missing
        simp only [lookup_put_other apart, free, isDirectory_put passed, if_true]
        exact ih walked
      next missing =>
        cases parts with
        | nil =>
          cases walked
          cases target
          simp only [lookup_put_self]
          rfl
        | cons part parts => cases walked

theorem find_put {location : Location} {place : Place} (found : tree.find location = .ok place)
    (target : place.target? = some path) : (tree.put path content).find location = .ok (.file path content) := by
  unfold find at found ⊢
  split at found
  · cases found
  next clean =>
  rw [if_neg clean]
  split at found
  · cases found
  next short =>
  rw [if_neg short]
  exact walk_put found target

theorem write_ok {location : Location} {text : String} {after : FileTree} (written : tree.write location text = .ok after) :
    ∃ place path, tree.find location = .ok place ∧ place.target? = some path ∧ after = tree.put path text.toUTF8.toList := by
  unfold write at written
  cases found : tree.find location with
  | error error =>
    rw [found] at written
    cases written
  | ok place =>
    rw [found] at written
    cases place with
    | directory path => cases written
    | file path content => cases written; exact ⟨_, path, rfl, rfl, rfl⟩
    | absent path => cases written; exact ⟨_, path, rfl, rfl, rfl⟩

/-- The file at the location holds the text now, and nothing else is another. -/
def Written (tree after : FileTree) (location : Location) (text : String) : Prop :=
  ∃ path, after.find location = .ok (.file path text.toUTF8.toList) ∧ after.directories = tree.directories ∧
    ∀ other, other ≠ path → after.files.lookup other = tree.files.lookup other

theorem written_of_write {location : Location} {text : String} {after : FileTree}
    (written : tree.write location text = .ok after) : tree.Written after location text := by
  obtain ⟨place, path, found, target, rfl⟩ := write_ok written
  exact ⟨path, find_put found target, rfl, fun other apart => lookup_put_other apart⟩

end FileTree

/-- The text that a template, its partials and the data come to. -/
inductive Renders (tree : FileTree) (request : Request) : List CodePoint → Prop
  | intro {content : List Char} {partials : Registry} {template : Template} {data : Value} {text : List CodePoint}
      {session : Session}
      (read : (Job.readText (.ofText request.template) request.template).outcome tree = .ok content)
      (registered : (Job.readPartials request).outcome tree = .ok partials)
      (compiled : (Template.compile (String.ofList content) partials (.dict [])).result = .ok template)
      (given : (Job.readData request).outcome tree = .ok data)
      (rendered : template.render data Session.empty = .ok (.text text) session) : Renders tree request text

variable {words : List String} {request : Request} {tree : FileTree}

theorem mapError_ok_iff {ε ε' α : Type} {result : Except ε α} {f : ε → ε'} {value : α} :
    result.mapError f = .ok value ↔ result = .ok value := by
  cases result <;> simp [Except.mapError]

theorem renders_of_compose {text : List CodePoint} (composed : (Job.compose request).outcome tree = .ok text) :
    Renders tree request text := by
  simp only [Job.outcome_compose, Job.outcome_compile, bind_ok_iff, mapError_ok_iff] at composed
  obtain ⟨template, ⟨content, read, partials, registered, compiled⟩, data, given, evaluated⟩ := composed
  obtain ⟨children, -, rfl⟩ := Template.compile_ok_iff.mp compiled
  rw [Job.outcome_evaluate] at evaluated
  split at evaluated
  next value session rendered =>
    -- A compiled template is a block, so what it comes to is a text.
    obtain ⟨_, rfl, -⟩ := Node.evaluate_block_ok_iff.mp rendered
    cases evaluated
    exact .intro read registered compiled given rendered
  next => cases evaluated

/-- The text is one that has no bytes, and its file has been emptied for it. -/
def Emptied (tree after : FileTree) (request : Request) (content : List CodePoint) : Prop :=
  (∀ text, content ≠ points text) ∧ ∃ path, request.output = some path ∧ tree.Written after (.ofText path) ""

theorem delivered_fails {content : List CodePoint} {problem : Problem}
    (fails : (Job.delivered request tree content).1 = .error problem) :
    (Job.delivered request tree content).2 = tree ∨ Emptied tree (Job.delivered request tree content).2 request content := by
  cases given : request.output with
  | none =>
    rw [Job.delivered_none given]
    exact .inl rfl
  | some path =>
    obtain ⟨other, error, given', refused, -⟩ | ⟨fault, unencoded, opened, -⟩ := Job.delivered_error_iff.mp fails
    · rw [Job.delivered_refused given' refused]
      exact .inl rfl
    · obtain ⟨after, written⟩ := opened path given
      rw [Job.delivered_unencoded given unencoded written]
      refine .inr ⟨fun text same => ?_, path, given, FileTree.written_of_write written⟩
      cases unencoded.symm.trans (Utf8.encode_ok_iff.mpr same)

theorem delivered_succeeds {content : List CodePoint} {shown : String}
    (succeeds : (Job.delivered request tree content).1 = .ok shown) : ∃ text, content = points text ∧
      match request.output with
      | none => shown = text ∧ (Job.delivered request tree content).2 = tree
      | some path => shown = "" ∧ tree.Written (Job.delivered request tree content).2 (.ofText path) text := by
  cases encoded : Utf8.encode content with
  | error fault =>
    cases given : request.output with
    | none =>
      rw [Job.delivered_none given, encoded] at succeeds
      cases succeeds
    | some path =>
      cases written : tree.write (.ofText path) "" with
      | error error =>
        rw [Job.delivered_refused given written] at succeeds
        cases succeeds
      | ok after =>
        rw [Job.delivered_unencoded given encoded written] at succeeds
        cases succeeds
  | ok text =>
    refine ⟨text, Utf8.encode_ok_iff.mp encoded, ?_⟩
    cases given : request.output with
    | none =>
      rw [Job.delivered_none given, encoded] at succeeds ⊢
      cases succeeds
      exact ⟨rfl, rfl⟩
    | some path =>
      cases written : tree.write (.ofText path) text with
      | error error =>
        rw [Job.delivered_refused given written] at succeeds
        cases succeeds
      | ok after =>
        rw [Job.delivered_encoded given encoded written] at succeeds ⊢
        cases succeeds
        exact ⟨rfl, FileTree.written_of_write written⟩

theorem performed_fails {problem : Problem} (fails : (Job.performed request tree).1 = .error problem) :
    (Job.performed request tree).2 = tree ∨
      ∃ content, Renders tree request content ∧ Emptied tree (Job.performed request tree).2 request content := by
  unfold Job.performed at fails ⊢
  cases composed : (Job.compose request).outcome tree with
  | error other => exact .inl rfl
  | ok content =>
    rw [composed] at fails
    exact (delivered_fails fails).imp_right fun emptied => ⟨content, renders_of_compose composed, emptied⟩

theorem performed_succeeds {shown : String} (succeeds : (Job.performed request tree).1 = .ok shown) :
    ∃ text, Renders tree request (points text) ∧
      match request.output with
      | none => shown = text ∧ (Job.performed request tree).2 = tree
      | some path => shown = "" ∧ tree.Written (Job.performed request tree).2 (.ofText path) text := by
  unfold Job.performed at succeeds ⊢
  cases composed : (Job.compose request).outcome tree with
  | error problem =>
    rw [composed] at succeeds
    cases succeeds
  | ok content =>
    rw [composed] at succeeds
    obtain ⟨text, rfl, shown⟩ := delivered_succeeds succeeds
    exact ⟨text, renders_of_compose composed, shown⟩

/-- A run that fails shows no output and changes nothing, unless all it fails at is that its text has no bytes. A render that
succeeds puts the text where it was asked for, and changes nothing else. -/
theorem runOn_all_or_nothing (words : List String) (tree : FileTree) :
    ((runOn words tree).1.exitCode ≠ ExitCode.success.number → (runOn words tree).1.output = "" ∧
      ((runOn words tree).2 = tree ∨ ∃ request content, parseAll words = .ok (.render request) ∧
        Renders tree request content ∧ Emptied tree (runOn words tree).2 request content)) ∧
    ∀ request, parseAll words = .ok (.render request) → (runOn words tree).1.exitCode = ExitCode.success.number →
      ∃ text, Renders tree request (points text) ∧
        match request.output with
        | none => (runOn words tree).1.output = text ∧ (runOn words tree).2 = tree
        | some path => (runOn words tree).1.output = "" ∧ tree.Written (runOn words tree).2 (.ofText path) text := by
  constructor
  · intro fails
    cases parsed : parseAll words with
    | error stop =>
      rw [runOn_stop parsed] at fails ⊢
      cases stop with
      | fault grammar message => exact ⟨rfl, .inl rfl⟩
      | _ => exact absurd rfl fails
    | ok invocation =>
      cases invocation with
      | nothing | version =>
        simp only [runOn, run, parsed] at fails
        exact absurd rfl fails
      | render request =>
        obtain ⟨log, -, same⟩ := runOn_render parsed tree
        simp only [same] at fails ⊢
        obtain ⟨problem, failed⟩ := concluded_fails fails
        refine ⟨by simp only [failed, concluded], ?_⟩
        obtain same | ⟨content, rendered, emptied⟩ := performed_fails failed
        · exact .inl same
        · exact .inr ⟨request, content, rfl, rendered, emptied⟩
      | check request =>
        obtain ⟨log, -, same⟩ := runOn_check parsed tree
        simp only [same] at fails ⊢
        obtain ⟨problem, failed⟩ := concluded_fails fails
        exact ⟨by simp only [failed, concluded], .inl trivial⟩
  · intro request parsed succeeds
    obtain ⟨log, -, same⟩ := runOn_render parsed tree
    simp only [same] at succeeds ⊢
    cases result : (Job.performed request tree).1 with
    | error problem =>
      simp only [result, concluded] at succeeds
      exact absurd succeeds problem.exitCode_ne_success
    | ok shown =>
      simp only [concluded]
      exact performed_succeeds result

private theorem runOn_succeeds {text path : String} {after : FileTree} (parsed : parseAll words = .ok (.render request))
    (composed : (Job.compose request).outcome tree = .ok text) (given : request.output = some path)
    (written : tree.write (.ofText path) text = .ok after) : (runOn words tree).1.exitCode = ExitCode.success.number := by
  obtain ⟨log, -, same⟩ := runOn_render parsed tree
  rw [same]
  unfold Job.performed
  simp only [composed, Job.delivered_encoded given (Utf8.encode_ok_iff.mpr rfl) written, concluded]

private theorem parseAll_copy : parseAll ["render", "t.tpl", "-o", "out"] =
    .ok (.render ⟨"t.tpl", none, [], false, none, none, some "out"⟩) := by
  have words : classifyAll mainGrammar ["render", "t.tpl", "-o", "out"] =
    .ok [("render", .plain), ("t.tpl", .plain), ("-o", .unknown), ("out", .plain)] := rfl
  have choice : mainGrammar.operand = .command commandNames := rfl
  have settings : classifyAll renderGrammar ["t.tpl", "-o", "out"] =
    .ok [("t.tpl", .plain), ("-o", .switch ⟨["--output", "-o"], .output, true⟩ "-o" none), ("out", .plain)] := rfl
  have operand : renderGrammar.operand = .template := rfl
  simp [parseAll, parseCommand, parse, words, choice, settings, operand, consume, chooseCommand, commandNames, clusterOf,
    apply, valueOf, bind, pure, Except.bind, Except.pure]
  rfl

private theorem parseAll_bare :
    parseAll ["render"] = .error (.fault renderGrammar "the following arguments are required: template") := by
  have words : classifyAll mainGrammar ["render"] = .ok [("render", .plain)] := rfl
  have choice : mainGrammar.operand = .command commandNames := rfl
  have operand : renderGrammar.operand = .template := rfl
  simp [parseAll, parseCommand, parse, words, choice, operand, classifyAll, consume, chooseCommand, commandNames, bind, pure,
    throw, throwThe, MonadExceptOf.throw, Except.bind, Except.pure]

theorem runOn_all_or_nothing_copy :
    ((runOn ["render"] (.ofTemplate [0x61])).1.output = "" ∧
      (runOn ["render"] (.ofTemplate [0x61])).2 = (.ofTemplate [0x61])) ∧
    ∃ text, Renders (.ofTemplate [0x61]) ⟨"t.tpl", none, [], false, none, none, some "out"⟩ (points text) ∧
      (runOn ["render", "t.tpl", "-o", "out"] (.ofTemplate [0x61])).1.output = "" ∧
      (FileTree.ofTemplate [0x61]).Written
        (runOn ["render", "t.tpl", "-o", "out"] (.ofTemplate [0x61])).2 (.ofText "out") text := by
  have composed : (Job.compose ⟨"t.tpl", none, [], false, none, none, some "out"⟩).outcome (.ofTemplate [0x61]) =
    .ok "a" := by cbv
  have room : (FileTree.ofTemplate [0x61]).write (.ofText "out") "a" =
    .ok ⟨[(["out"], "a".toUTF8.toList), (["t.tpl"], [0x61])], []⟩ := by cbv
  have succeeds := runOn_succeeds parseAll_copy composed rfl room
  have fails : (runOn ["render"] (.ofTemplate [0x61])).1.exitCode ≠ ExitCode.success.number := by
    rw [runOn_stop parseAll_bare]
    exact (by decide : (2 : Nat) ≠ 0)
  obtain ⟨silent, same | ⟨_, _, parsed, _⟩⟩ := (runOn_all_or_nothing _ _).1 fails
  · exact ⟨⟨silent, same⟩, (runOn_all_or_nothing _ _).2 _ parseAll_copy succeeds⟩
  · cases parseAll_bare.symm.trans parsed

end Stencil.Command
