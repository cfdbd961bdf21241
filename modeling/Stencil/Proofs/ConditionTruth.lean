import Mathlib
import Stencil.Proofs.ConditionGrammar
import Stencil.Proofs.EvaluationReach

/-! When conditions hold. A condition is its tests, folded from the right by its connectives. Evaluating it touches nothing, so
it does not matter that an operand may go without evaluation, nor in which order two tests stand at a connective. -/

namespace Stencil

namespace Condition
open Expression (Piece)

/-- Whether a condition holds if it is known of its tests. Every connective takes all to its right as one operand. -/
def Derivation.holds (truth : Test → Bool) : Derivation → Bool
  | .single test => truth test
  | .joined test (.and _) rest => truth test && rest.holds truth
  | .joined test (.or _) rest => truth test || rest.holds truth

/-- At a connective with one test on both sides the two change places. Only the last connective is such a one. -/
inductive Derivation.Swaps : Derivation → Derivation → Prop
  | here (test other : Test) (joint : Connective) :
      Swaps (.joined test joint (.single other)) (.joined other joint (.single test))
  | later (test : Test) (joint : Connective) {rest rest' : Derivation} (swaps : Swaps rest rest') :
      Swaps (.joined test joint rest) (.joined test joint rest')

theorem Derivation.Swaps.holds {derivation swapped : Derivation} (swaps : derivation.Swaps swapped) (truth : Test → Bool) :
    swapped.holds truth = derivation.holds truth := by
  induction swaps with
  | here test other joint =>
    cases joint
    · exact Bool.and_comm _ _
    · exact Bool.or_comm _ _
  | later test joint swaps ih => cases joint <;> simp only [Derivation.holds, ih]

theorem Derivation.Swaps.pieces {derivation swapped : Derivation} (swaps : derivation.Swaps swapped) :
    ∀ piece ∈ swapped.pieces, piece ∈ derivation.pieces := by
  intro piece
  induction swaps with
  | here test other joint =>
    simp only [Derivation.pieces, List.mem_append, List.mem_cons]
    tauto
  | later test joint swaps ih =>
    simp only [Derivation.pieces, List.mem_append, List.mem_cons]
    tauto

section
variable {site : Site} {node : Node}

private theorem readable_of_valueOf {piece : Piece} (read : valueOf site piece = .ok node) : Readable [piece] := by
  intro _ same number
  cases List.mem_singleton.mp same
  cases known : Number.numeral? piece.value with
  | none => simp [valueOf, number, known] at read
  | some number => rfl

private theorem readable_of_isTest {front : List Piece} (tested : IsTest site front node) : Readable front := by
  cases tested with
  | value read => exact readable_of_valueOf read
  | comparison read compares other =>
    obtain ⟨sign, rfl, _⟩ := comparison_eq_some_iff.mp compares
    have sound : Readable [sign.piece] := by cases sign <;> simp [Readable, Comparison.piece]
    exact List.forall_mem_cons.mpr ⟨List.forall_mem_singleton.mp (readable_of_valueOf read),
      List.forall_mem_cons.mpr ⟨List.forall_mem_singleton.mp sound, readable_of_valueOf other⟩⟩
  | @existence first word _ read plain exists_ =>
    have sound : Readable [word] := by
      intro _ same number
      cases List.mem_singleton.mp same
      simp [isExistence, number] at exists_
    exact List.forall_mem_cons.mpr ⟨List.forall_mem_singleton.mp (readable_of_valueOf read), sound⟩

theorem readable_of_tests {pieces rest : List Piece} (read : tests site pieces = .ok (node, rest)) : Readable pieces := by
  fun_induction tests site pieces generalizing node rest with
  | case1 => cases read
  | case2 pieces left taken =>
    obtain ⟨front, split, tested, _⟩ := isTest_of_test taken
    rw [split, List.append_nil]
    exact readable_of_isTest tested
  | case3 => cases read
  | case4 => cases read
  | case5 pieces left joint behind taken operator joins more ih =>
    obtain ⟨front, split, tested, _⟩ := isTest_of_test taken
    obtain ⟨sign, rfl, _⟩ := connective_eq_some_iff.mp joins
    obtain ⟨⟨right, _⟩, others, _⟩ := bind_ok_iff.mp read
    have sound : Readable [sign.piece] := by cases sign <;> simp [Readable, Connective.piece]
    rw [split]
    exact List.forall_mem_append.mpr ⟨readable_of_isTest tested,
      List.forall_mem_cons.mpr ⟨List.forall_mem_singleton.mp sound, ih others⟩⟩

end

theorem Operand.decides (operand : Operand) : operand.node.Decides := by
  cases operand with
  | identifier word position =>
    simp only [node]
    repeat' split
    all_goals trivial
  | string content position => trivial
  | number digits position => trivial

theorem Test.decides (test : Test) : test.node.Decides := by
  cases test with
  | value operand => exact operand.decides
  | comparison left sign right => exact ⟨left.decides, right.decides⟩
  | existence operand position => exact ⟨operand.decides, trivial⟩

end Condition

namespace Node
variable {environment : Environment}

/-- Evaluation that spares no operand: both sides of a connective are evaluated, whatever comes of the first. -/
def weigh (environment : Environment) : Node → Evaluating Value
  | .binary .and left right => do
    let first ← weigh environment left
    let second ← weigh environment right
    return .bool (first.truthy && second.truthy)
  | .binary .or left right => do
    let first ← weigh environment left
    let second ← weigh environment right
    return .bool (first.truthy || second.truthy)
  | node => evaluate environment node

theorem evaluate_and {left right : Node} {first second : Value} (one : evaluate environment left = pure first)
    (two : evaluate environment right = pure second) :
    evaluate environment (.binary .and left right) = pure (.bool (first.truthy && second.truthy)) := by
  cases holds : first.truthy <;> simp [evaluate, one, two, holds]

theorem evaluate_or {left right : Node} {first second : Value} (one : evaluate environment left = pure first)
    (two : evaluate environment right = pure second) :
    evaluate environment (.binary .or left right) = pure (.bool (first.truthy || second.truthy)) := by
  cases holds : first.truthy <;> simp [evaluate, one, two, holds]

theorem evaluate_choice {condition consequence alternative : Node} {decided : Value}
    (value : evaluate environment condition = pure decided) : evaluate environment (.choice condition consequence alternative) =
      if decided.truthy then evaluate environment consequence else evaluate environment alternative := by
  rw [evaluate, value, pure_bind]

theorem weigh_eq_evaluate (environment : Environment) : (condition : Node) → condition.Decides →
    weigh environment condition = evaluate environment condition
  | .constant _ _, _ | .variable _, _ | .binary .equals _ _, _ | .binary .differs _ _, _ => by simp only [weigh]
  | .binary .and left right, decides => by
    obtain ⟨first, one⟩ := evaluate_decides environment left decides.1
    obtain ⟨second, two⟩ := evaluate_decides environment right decides.2
    rw [evaluate_and one two, weigh, weigh_eq_evaluate environment left decides.1, weigh_eq_evaluate environment right decides.2,
      one, two, pure_bind, pure_bind]
  | .binary .or left right, decides => by
    obtain ⟨first, one⟩ := evaluate_decides environment left decides.1
    obtain ⟨second, two⟩ := evaluate_decides environment right decides.2
    rw [evaluate_or one two, weigh, weigh_eq_evaluate environment left decides.1, weigh_eq_evaluate environment right decides.2,
      one, two, pure_bind, pure_bind]

end Node

namespace Condition
open Expression (Piece)

theorem Derivation.evaluate_node {environment : Environment} {truth : Test → Bool}
    (told : ∀ test : Test, ∃ value, test.node.evaluate environment = pure value ∧ value.truthy = truth test)
    (derivation : Derivation) :
    ∃ value, derivation.node.evaluate environment = pure value ∧ value.truthy = derivation.holds truth := by
  induction derivation with
  | single test => exact told test
  | joined test joint rest ih =>
    obtain ⟨first, one, holds⟩ := told test
    obtain ⟨second, two, holds'⟩ := ih
    cases joint with
    | and position => exact ⟨_, Node.evaluate_and one two, congrArg₂ and holds holds'⟩
    | or position => exact ⟨_, Node.evaluate_or one two, congrArg₂ or holds holds'⟩

/-- An accepted condition is made of tests. In every environment each test has a value, and so has the condition; no stream is
touched, and the condition is true exactly if its tests, folded from the right, are. By that a choice is made. Nothing changes if
no operand is spared, or if two tests that stand at one connective change places. -/
theorem evaluate_condition {site : Site} {pieces : List Piece} {condition : Node}
    (accepted : ofPieces site pieces = .ok condition) :
    ∃ derivation : Derivation, derivation.pieces = pieces ∧ derivation.node = condition ∧
      (∀ environment, condition.weigh environment = condition.evaluate environment ∧
        ∃ truth : Test → Bool,
          (∀ test : Test, ∃ value, test.node.evaluate environment = pure value ∧ value.truthy = truth test) ∧
          (∃ value, condition.evaluate environment = pure value ∧ value.truthy = derivation.holds truth) ∧
          ∀ consequence alternative, (Node.choice condition consequence alternative).evaluate environment =
            if derivation.holds truth then consequence.evaluate environment else alternative.evaluate environment) ∧
      ∀ swapped, derivation.Swaps swapped → ofPieces site swapped.pieces = .ok swapped.node ∧
        ∀ environment consequence alternative, (Node.choice swapped.node consequence alternative).evaluate environment =
          (Node.choice condition consequence alternative).evaluate environment := by
  have read := ofPieces_ok_iff.mp accepted
  have readable := readable_of_tests read
  obtain ⟨derivation, rfl, rfl⟩ := derivation_of_tests read
  have truths (environment : Environment) : ∃ truth : Test → Bool,
      ∀ test : Test, ∃ value, test.node.evaluate environment = pure value ∧ value.truthy = truth test := by
    choose value same using fun test : Test => Node.evaluate_decides environment test.node test.decides
    exact ⟨fun test => (value test).truthy, fun test => ⟨value test, same test, rfl⟩⟩
  refine ⟨derivation, rfl, rfl, ?_, ?_⟩
  · intro environment
    refine ⟨Node.weigh_eq_evaluate environment _ (decides_of_ofPieces accepted), ?_⟩
    obtain ⟨truth, told⟩ := truths environment
    obtain ⟨decided, value, holds⟩ := derivation.evaluate_node told
    refine ⟨truth, told, ⟨decided, value, holds⟩, ?_⟩
    intro consequence alternative
    rw [Node.evaluate_choice value, holds]
  · intro swapped swaps
    refine ⟨ofPieces_ok_iff.mpr (tests_derivation (readable.mono swaps.pieces)), ?_⟩
    intro environment consequence alternative
    obtain ⟨truth, told⟩ := truths environment
    obtain ⟨decided, value, holds⟩ := derivation.evaluate_node told
    obtain ⟨decided', value', holds'⟩ := swapped.evaluate_node told
    rw [Node.evaluate_choice value, Node.evaluate_choice value', holds, holds', swaps.holds]

theorem truth_string {environment : Environment} {truth : Test → Bool} {content : String} {place : Option Position}
    (told : ∃ value, (Test.value (.string content place)).node.evaluate environment = pure value ∧
      value.truthy = truth (.value (.string content place))) : truth (.value (.string content place)) = (content ≠ "") := by
  obtain ⟨value, evaluates, holds⟩ := told
  cases congrFun evaluates .empty
  rw [← holds]
  simp [Value.truthy]

/-- The empty text is false, so it does not matter what stands behind the first connective. Connectives of higher rank or grouped
from the left would have the last text decide. -/
def denial : Derivation :=
  .joined (.value (.string "" (some ⟨1, 6⟩))) (.and (some ⟨1, 9⟩))
    (.joined (.value (.identifier "x" (some ⟨1, 12⟩))) (.or (some ⟨1, 14⟩)) (.single (.value (.string "y" (some ⟨1, 17⟩)))))

def assent : Derivation :=
  .joined (.value (.string "y" (some ⟨1, 6⟩))) (.or (some ⟨1, 10⟩))
    (.joined (.value (.identifier "x" (some ⟨1, 13⟩))) (.and (some ⟨1, 15⟩)) (.single (.value (.string "" (some ⟨1, 18⟩)))))

theorem evaluate_condition_denial : ofPieces ⟨none, rootName⟩ denial.pieces = .ok denial.node ∧
    ofPieces ⟨none, rootName⟩ assent.pieces = .ok assent.node ∧
    ∀ environment consequence alternative,
      (Node.choice denial.node consequence alternative).evaluate environment = alternative.evaluate environment ∧
      (Node.choice assent.node consequence alternative).evaluate environment = consequence.evaluate environment := by
  have accepted : ofPieces ⟨none, rootName⟩ denial.pieces = .ok denial.node := by cbv
  have accepted' : ofPieces ⟨none, rootName⟩ assent.pieces = .ok assent.node := by cbv
  obtain ⟨derivation, same, _, evaluated, _⟩ := evaluate_condition accepted
  obtain ⟨derivation', same', _, evaluated', _⟩ := evaluate_condition accepted'
  cases Derivation.pieces_injective same
  cases Derivation.pieces_injective same'
  refine ⟨accepted, accepted', fun environment consequence alternative => ⟨?_, ?_⟩⟩
  · obtain ⟨_, truth, told, _, chosen⟩ := evaluated environment
    have denied := truth_string (told (.value (.string "" (some ⟨1, 6⟩))))
    rw [chosen]
    simp [denial, Derivation.holds, denied]
  · obtain ⟨_, truth, told, _, chosen⟩ := evaluated' environment
    have granted := truth_string (told (.value (.string "y" (some ⟨1, 6⟩))))
    rw [chosen]
    simp [assent, Derivation.holds, granted]

end Condition
end Stencil
