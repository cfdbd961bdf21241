import Mathlib
import Stencil.Proofs.RunStages

/-! A check is a render up to its data. What it finds wrong the render finds too and says in the same words; once it is
passed, a render can fail only at what comes later. -/

namespace Stencil.Command

/-- The requests name the same template and the same partials. -/
structure Request.Alike (first second : Request) : Prop where
  template : first.template = second.template
  partialsDirectory : first.partialsDirectory = second.partialsDirectory
  partials : first.partials = second.partials

variable {first second : Request} {tree : FileTree}

theorem Request.Alike.compile (alike : first.Alike second) :
    (Job.compile first : Job (StateM FileTree) Template) = Job.compile second := by
  unfold Job.compile Job.readPartials
  rw [alike.template, alike.partialsDirectory, alike.partials]

theorem check_of_compile_error {problem : Problem} (failed : (Job.compile first).outcome tree = .error problem) :
    (Job.check first).outcome tree = .error problem := by
  rw [Job.outcome_check, failed]
  rfl

theorem performed_of_compile_error {problem : Problem} (failed : (Job.compile first).outcome tree = .error problem) :
    (Job.performed first tree).1 = .error problem := by
  rw [Job.performed_eq, Job.outcome_compose, failed]
  rfl

theorem check_succeeds {template : Template} (compiled : (Job.compile first).outcome tree = .ok template) :
    ∃ shown, (Job.check first).outcome tree = .ok shown := by
  rw [Job.outcome_check, compiled]
  exact ⟨_, rfl⟩

/-- Once a template is compiled, a render fails at a later stage if at all. -/
theorem later_stage {template : Template} {stage : Stage} {problem : Problem}
    (compiled : (Job.compile first).outcome tree = .ok template)
    (found : First (Fault tree first) Stage.ofRender stage problem) : stage ∈ [Stage.data, .render, .output] := by
  have clean := Job.covers_compile first tree
  rw [compiled] at clean
  have inside := found.mem
  rw [Stage.ofRender, List.mem_append] at inside
  exact inside.resolve_left fun earlier => clean.clean stage earlier problem found.found

theorem number_injective {code other : ExitCode} (same : code.number = other.number) : code = other := by
  cases code <;> cases other <;> first | rfl | cases same

theorem no_compileError {stage : Stage} {problem : Problem} (fault : Fault tree first stage problem)
    (later : stage ∈ [Stage.data, .render, .output]) : problem.exitCode ≠ .compileError := by
  have other : stage.exitCode ≠ .compileError := by
    intro same
    cases stage <;> simp [Stage.exitCode] at later same
  obtain overlooked | expected | ⟨unexpected, -⟩ := fault.expected
  · simp [Problem.exitCode, overlooked.unexpected]
  · simpa [Problem.exitCode, expected] using other
  · simp [Problem.exitCode, unexpected]

theorem check_predicts_render {words words' : List String} (checks : parseAll words = .ok (.check first))
    (renders : parseAll words' = .ok (.render second)) (alike : first.Alike second) (quiet : first.verbose = false)
    (quiet' : second.verbose = false) (tree : FileTree) :
    ((runOn words tree).1.exitCode ≠ ExitCode.success.number →
      (runOn words' tree).1.exitCode = (runOn words tree).1.exitCode ∧
        (runOn words' tree).1.errors = (runOn words tree).1.errors) ∧
    ((runOn words tree).1.exitCode = ExitCode.success.number →
      (runOn words' tree).1.exitCode ≠ ExitCode.compileError.number ∧
        ((runOn words' tree).1.exitCode ≠ ExitCode.success.number → ∃ stage ∈ [Stage.data, .render, .output],
          ∃ problem, First (Fault tree second) Stage.ofRender stage problem)) := by
  obtain ⟨log, silent, checked⟩ := runOn_check checks tree
  obtain ⟨log', silent', rendered⟩ := runOn_render renders tree
  cases compiled : (Job.compile first).outcome tree with
  | error problem =>
    have failed := check_of_compile_error compiled
    have failed' := performed_of_compile_error (alike.compile ▸ compiled)
    simp only [checked, rendered, failed, failed', concluded, silent quiet, silent' quiet', and_self, implies_true, true_and]
    exact fun succeeds => absurd succeeds problem.exitCode_ne_success
  | ok template =>
    obtain ⟨shown, succeeds⟩ := check_succeeds compiled
    rw [alike.compile] at compiled
    refine ⟨fun fails => absurd ?_ fails, fun _ => ?_⟩
    · simp only [checked, succeeds, concluded]
    cases result : (Job.performed second tree).1 with
    | ok text =>
      simp only [rendered, result, concluded]
      exact ⟨nofun, fun fails => absurd rfl fails⟩
    | error problem =>
      obtain ⟨stage, found⟩ := (Job.covers_performed second tree problem).mp result
      have later := later_stage compiled found
      refine ⟨?_, fun _ => ⟨stage, later, problem, found⟩⟩
      simp only [rendered, result, concluded]
      exact fun same => no_compileError found.found later (number_injective same)

theorem check_predicts_render_single :
    (runOn ["render", "t.tpl"] .empty).1.exitCode = (runOn ["check", "t.tpl"] .empty).1.exitCode ∧
      (runOn ["render", "t.tpl"] .empty).1.errors = (runOn ["check", "t.tpl"] .empty).1.errors ∧
      (runOn ["render", "t.tpl"] (.ofTemplate [0x61])).1.exitCode ≠ ExitCode.compileError.number := by
  obtain ⟨checks, renders⟩ := parseAll_path (by decide : "t.tpl".toList.head? ≠ some '-')
  have predicts := check_predicts_render checks renders ⟨rfl, rfl, rfl⟩ rfl rfl
  have fails : (runOn ["check", "t.tpl"] .empty).1.exitCode ≠ ExitCode.success.number := by
    have missed : FileTree.read .empty (.ofText "t.tpl") = .error .notFound := by cbv
    obtain ⟨log, -, same⟩ := (Asks.check checks).fails (.head (.template (.refused missed)) _)
    simp only [same]
    exact Problem.exitCode_ne_success _
  have succeeds : (runOn ["check", "t.tpl"] (.ofTemplate [0x61])).1.exitCode = ExitCode.success.number := by
    have compiled : (Job.compile (.ofPath "t.tpl")).outcome (.ofTemplate [0x61]) =
      .ok ⟨.block [.text "a"], .empty, .dict []⟩ := by cbv
    obtain ⟨shown, checked⟩ := check_succeeds compiled
    obtain ⟨log, -, same⟩ := runOn_check checks (.ofTemplate [0x61])
    rw [same, checked]
    rfl
  obtain ⟨code, errors⟩ := (predicts .empty).1 fails
  exact ⟨code, errors, ((predicts (.ofTemplate [0x61])).2 succeeds).1⟩

end Stencil.Command
