import Mathlib
import Stencil.Proofs.BindingScopes
import Stencil.Proofs.ConditionTruth

/-! What it is to exist. The word `exists` compares what a path leads to with what a name leads to that is meant to lead
nowhere. As long as neither a loop nor the data nor the globals bind that name, no environment that a render comes to binds it,
and the comparison tells whether the path leads to a value, be it one that counts as false. -/

namespace Stencil

namespace Value
variable {value : Value} {name : String}

def Holds (value : Value) (name : String) : Prop :=
  ∃ entries, value = .dict entries ∧ ∃ entry ∈ entries, entry.1 = .text name

theorem child_of_not_holds (absent : ¬ value.Holds name) : value.child name = .missing := by
  cases value with
  | dict entries =>
    have none : entries.find? (fun entry => isKey name entry.1) = none := by
      rw [List.find?_eq_none]
      intro entry member found
      cases key : entry.1 with
      | text content =>
        obtain rfl : content = name := by simpa [isKey, key] using found
        exact absent ⟨entries, rfl, entry, member, key⟩
      | _ => simp [isKey, key] at found
    simp [child, none]
  | _ => rfl

theorem lookup_of_not_holds (free : '.' ∉ name.toList) (absent : ¬ value.Holds name) : value.lookup name = .missing := by
  rw [lookup, Path.segments_of_plain free]
  exact child_of_not_holds absent

/-- A missing value equals missing values only. -/
theorem strictEquals_missing (value : Value) : value.strictEquals .missing = value.isMissing := by
  cases value <;> simp [strictEquals, alike, isMissing]

theorem missing_strictEquals (value : Value) : strictEquals .missing value = value.isMissing := by
  cases value <;> simp [strictEquals, alike, isMissing]

end Value

namespace Environment
variable {environment : Environment} {path : String}

/-- The path leads to a value in one of the layers. -/
def Finds (environment : Environment) (path : String) : Prop :=
  ∃ frame ∈ environment.frames, (frame.lookup path).isMissing = false

theorem isMissing_resolve (environment : Environment) (path : String) :
    (environment.resolve path).isMissing = false ↔ environment.Finds path := by
  obtain ⟨frames⟩ := environment
  induction frames with
  | nil => simp [Finds, resolve, Value.isMissing]
  | cons frame frames ih =>
    simp only [Finds, List.exists_mem_cons_iff, resolve_cons]
    cases missing : (frame.lookup path).isMissing with
    | true => simpa [Finds] using ih
    | false => simp [missing]

theorem resolve_of_not_finds (absent : ¬ environment.Finds path) : environment.resolve path = .missing := by
  cases missing : (environment.resolve path).isMissing with
  | true => cases same : environment.resolve path <;> simp_all [Value.isMissing]
  | false => exact absurd ((isMissing_resolve environment path).mp missing) absent

end Environment

namespace Condition

/-- The word stands for a path and not for a truth value. -/
def IsPath (word : String) : Prop := word.toLower ≠ "true" ∧ word.toLower ≠ "false"

theorem Operand.node_of_isPath {word : String} (named : IsPath word) (place : Option Position) :
    (Operand.identifier word place).node = .variable word := by
  rw [Operand.node, if_neg named.1, if_neg named.2]

theorem ofPieces_test {test : Test} {site : Site} (readable : Readable test.pieces) :
    ofPieces site test.pieces = .ok test.node := ofPieces_ok_iff.mpr (tests_single (isTest_of_readable readable))

variable {environment : Environment}

theorem evaluate_existence {path : String} (named : IsPath path) (place place' : Option Position)
    (unbound : environment.resolve absentName = .missing) :
    (Test.existence (.identifier path place) place').node.evaluate environment =
      pure (.bool !(environment.resolve path).isMissing) := by
  have nothing : environment.resolve "undefined" = .missing := unbound
  simp only [Test.node, Operand.node_of_isPath named, Node.evaluate, pure_bind, nothing, Value.strictEquals_missing]

theorem evaluate_comparison {path path' : String} (named : IsPath path) (named' : IsPath path')
    (place place' sign : Option Position) :
    (Test.comparison (.identifier path place) (.equals sign) (.identifier path' place')).node.evaluate environment =
      pure (.bool ((environment.resolve path).strictEquals (environment.resolve path'))) := by
  simp only [Test.node, Comparison.operator, Operand.node_of_isPath named, Operand.node_of_isPath named', Node.evaluate, pure_bind]

end Condition

namespace Node

/-- A name that nothing outside binds and no loop of the tree does leads nowhere, wherever the evaluation of the tree comes. -/
theorem Enters.resolve_unbound {environment environment' : Environment} {node inner : Node} {session moment : Session}
    {rounds : List (String × Value)} {name : String}
    (enters : node.Enters environment session rounds environment' inner moment) (free : '.' ∉ name.toList)
    (unbound : name ∉ node.bindings) (outside : environment.resolve name = .missing) : environment'.resolve name = .missing := by
  have apart : ∀ other ∈ rounds.map Prod.fst, ¬ Path.Begins other name := by
    intro other member begins
    rw [Path.Begins, Path.segments_of_plain free] at begins
    exact unbound (Option.some.inj begins ▸ enters.names other member)
  rw [enters.environment_eq, Environment.resolve_within apart, outside]

end Node

namespace Template
open Node
open Environment (forRender)
open Condition (IsPath absentName Test)

/-- If no loop, neither the data nor the globals bind the name that `exists` compares with, then wherever a render comes it is
true of a path that it exists exactly if the path leads to a value there. Two paths are equal if both lead nowhere, and differ if
one of them does. -/
theorem existence_is_finding {content : String} {partials : Registry} {globals : Value} {template : Template}
    (compiled : (compile content partials globals).result = .ok template) (unbound : absentName ∉ template.root.bindings)
    (apart : ¬ globals.Holds absentName) :
    ∀ data : Value, ¬ data.Holds absentName → ∀ session rounds environment node moment,
      template.root.Enters (forRender data template.globals) session rounds environment node moment →
      (∀ path place place' test, IsPath path → test = Test.existence (.identifier path place) place' →
        (∀ site, Condition.ofPieces site test.pieces = .ok test.node) ∧
        ∃ answer, test.node.evaluate environment = pure (.bool answer) ∧ (answer = true ↔ environment.Finds path)) ∧
      ∀ path path' place place' sign test, IsPath path → IsPath path' →
        test = Test.comparison (.identifier path place) (.equals sign) (.identifier path' place') →
        (∀ site, Condition.ofPieces site test.pieces = .ok test.node) ∧
        ∃ answer, test.node.evaluate environment = pure (.bool answer) ∧
          (¬ environment.Finds path → ¬ environment.Finds path' → answer = true) ∧
          (environment.Finds path → ¬ environment.Finds path' → answer = false) ∧
          (¬ environment.Finds path → environment.Finds path' → answer = false) := by
  obtain ⟨children, parsed, rfl⟩ := compile_ok_iff.mp compiled
  intro data absent session rounds environment node moment enters
  have free : '.' ∉ absentName.toList := by decide
  have outside : (forRender data globals).resolve absentName = .missing := by
    rw [forRender, Environment.resolve_cons, Value.lookup_of_not_holds free absent, Environment.resolve_cons,
      Value.lookup_of_not_holds free apart]
    rfl
  have nothing := enters.resolve_unbound free unbound outside
  refine ⟨?_, ?_⟩
  · rintro path place place' _ named rfl
    refine ⟨fun site => Condition.ofPieces_test (by simp [Condition.Readable, Test.pieces, Condition.Operand.piece]), _,
      Condition.evaluate_existence named place place' nothing, ?_⟩
    rw [Bool.not_eq_true', Environment.isMissing_resolve]
  · rintro path path' place place' sign _ named named' rfl
    refine ⟨fun site => Condition.ofPieces_test
      (by simp [Condition.Readable, Test.pieces, Condition.Operand.piece, Condition.Comparison.piece]), _,
      Condition.evaluate_comparison named named' place place' sign, ?_, ?_, ?_⟩
    · intro absent absent'
      rw [Environment.resolve_of_not_finds absent, Environment.resolve_of_not_finds absent']
      rfl
    · intro found absent'
      rw [Environment.resolve_of_not_finds absent', Value.strictEquals_missing]
      exact (Environment.isMissing_resolve environment path).mpr found
    · intro absent found
      rw [Environment.resolve_of_not_finds absent, Value.missing_strictEquals]
      exact (Environment.isMissing_resolve environment path').mpr found

def attendance : String :=
  "\x7b% for xs as x %\x7d\x7b% if x exists %\x7dy\x7b% end %\x7d\x7b% end %\x7d"

private theorem attendance_read :
    Token.read? (.into rootName attendance 0) = .ok (some ⟨some ⟨1, 0⟩, .loop "xs" "x"⟩) (.into rootName attendance 17) ∧
      Token.read? (.into rootName attendance 17) =
        .ok (some ⟨some ⟨1, 17⟩, .choice [⟨.identifier, "x", some ⟨1, 23⟩⟩, ⟨.identifier, "exists", some ⟨1, 25⟩⟩]⟩)
          (.into rootName attendance 34) ∧
      Token.read? (.into rootName attendance 34) = .ok (some ⟨some ⟨1, 34⟩, .text "y"⟩) (.into rootName attendance 35) ∧
      Token.read? (.into rootName attendance 35) = .ok (some ⟨some ⟨1, 35⟩, .close⟩) (.into rootName attendance 44) ∧
      Token.read? (.into rootName attendance 44) = .ok (some ⟨some ⟨1, 44⟩, .close⟩) (.into rootName attendance 53) ∧
      Token.read? (.into rootName attendance 53) = .ok none (.into rootName attendance 53) := by
  refine ⟨?_, ?_, ?_, ?_, ?_, ?_⟩ <;> cbv

private theorem attendance_tokens : tokensFrom (.into rootName attendance 0) =
    ([⟨some ⟨1, 0⟩, .loop "xs" "x"⟩,
      ⟨some ⟨1, 17⟩, .choice [⟨.identifier, "x", some ⟨1, 23⟩⟩, ⟨.identifier, "exists", some ⟨1, 25⟩⟩]⟩,
      ⟨some ⟨1, 34⟩, .text "y"⟩, ⟨some ⟨1, 35⟩, .close⟩, ⟨some ⟨1, 44⟩, .close⟩], none, ⟨.into rootName attendance 53, none⟩) := by
  obtain ⟨loop, choice, text, close, close', ended⟩ := attendance_read
  rw [tokensFrom_token loop, tokensFrom_token choice, tokensFrom_token text, tokensFrom_token close, tokensFrom_token close',
    tokensFrom_done ended]

def attendanceTest : Node := .binary .differs (.variable "x") (.variable "undefined")

def attendanceTree : Node :=
  .block [.loop "xs" "x" (.block [.choice attendanceTest (.block [.text "y"]) .emptyBlock]) (some ⟨1, 0⟩)]

private theorem attendance_compiled :
    (compile attendance .empty (.dict [])).result = .ok ⟨attendanceTree, .empty, .dict []⟩ := by
  have sound : Condition.ofPieces ⟨some ⟨1, 17⟩, rootName⟩
      [⟨.identifier, "x", some ⟨1, 23⟩⟩, ⟨.identifier, "exists", some ⟨1, 25⟩⟩] = .ok attendanceTest := by cbv
  have parsed : (parse .empty [] rootName (Lexer.ofSource rootName attendance)).1.result = .ok _ :=
    parse_of_tokens attendance_tokens
      (Draft.acceptAll_cons_ok.mpr ⟨_, .loop .., Draft.acceptAll_cons_ok.mpr ⟨_, .choice sound, rfl⟩⟩)
  exact compile_ok_iff.mpr ⟨_, parsed, rfl⟩

/-- The item is there, though it is null. -/
theorem existence_is_finding_attendance :
    (compile attendance .empty (.dict [])).result = .ok ⟨attendanceTree, .empty, .dict []⟩ ∧
      absentName ∉ attendanceTree.bindings ∧ ¬ (Value.dict []).Holds absentName ∧
      ¬ (Value.dict [(.text "xs", .list [.null])]).Holds absentName ∧ IsPath "x" ∧
      ∃ environment moment,
        attendanceTree.Enters (forRender (.dict [(.text "xs", .list [.null])]) (.dict [])) .empty [("x", .null)] environment
          attendanceTest moment ∧
        environment.Finds "x" ∧ attendanceTest.evaluate environment = pure (.bool true) := by
  have unbound : absentName ∉ attendanceTree.bindings := by decide
  have apart : ¬ (Value.dict []).Holds absentName := by
    rintro ⟨entries, same, entry, member, _⟩
    cases same
    cases member
  have absent : ¬ (Value.dict [(.text "xs", .list [.null])]).Holds absentName := by
    rintro ⟨entries, same, entry, member, key⟩
    cases same
    obtain rfl := List.mem_singleton.mp member
    simp [absentName] at key
  have named : IsPath "x" := ⟨by cbv, by cbv⟩
  have nothing (environment : Environment) : evaluateEach environment [] .empty = .ok [] .empty := rfl
  have enters : attendanceTree.Enters (forRender (.dict [(.text "xs", .list [.null])]) (.dict [])) .empty [("x", .null)]
      ((forRender (.dict [(.text "xs", .list [.null])]) (.dict [])).bind "x" .null) attendanceTest .empty :=
    .child (nothing _) (.round (.list (.now ..)) (.child (nothing _) (.condition (.here ..))))
  obtain ⟨exist, _⟩ := existence_is_finding attendance_compiled unbound apart _ absent _ _ _ _ _ enters
  obtain ⟨_, answer, evaluated, finds⟩ := exist "x" (some ⟨1, 23⟩) (some ⟨1, 25⟩) _ named rfl
  rw [Test.node, Condition.Operand.node_of_isPath named] at evaluated
  have found : ((forRender (.dict [(.text "xs", .list [.null])]) (.dict [])).bind "x" .null).Finds "x" :=
    ⟨_, List.mem_cons_self, rfl⟩
  rw [finds.mpr found] at evaluated
  exact ⟨attendance_compiled, unbound, apart, absent, named, _, _, enters, found, evaluated⟩

end Template
end Stencil
