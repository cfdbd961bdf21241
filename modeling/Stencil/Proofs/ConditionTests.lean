import Stencil.Condition

/-! Where conditions break off. A test takes one, two or three pieces, and what follows it matters only if it stands alone.
A number that stands for nothing stops the reading of a condition exactly where a value is due: where the pieces so far and
any name after them make a condition. -/

namespace Stencil
open Diagnostic

namespace Condition
open Expression (Piece)
variable {site : Site}

/-- The pieces of one test, and the test. -/
inductive IsTest (site : Site) : List Piece → Node → Prop
  | value {piece : Piece} {node : Node} (read : valueOf site piece = .ok node) : IsTest site [piece] node
  | comparison {first joint second : Piece} {left right : Node} {operator : Node.Operator}
      (read : valueOf site first = .ok left) (compares : comparison? joint = some operator)
      (other : valueOf site second = .ok right) : IsTest site [first, joint, second] (.binary operator left right)
  | existence {first word : Piece} {left : Node} (read : valueOf site first = .ok left)
      (plain : comparison? word = none) (exists_ : isExistence word = true) :
      IsTest site [first, word] (.binary .differs left (.variable absentName))

/-- No piece at the head goes with a value before it. -/
def Apart (rest : List Piece) : Prop :=
  ∀ follower, rest.head? = some follower → comparison? follower = none ∧ isExistence follower = false

theorem test_of_isTest {front rest : List Piece} {node : Node} (tested : IsTest site front node)
    (apart : front.length = 1 → Apart rest) : test site (front ++ rest) = .ok (node, rest) := by
  cases tested with
  | value read =>
    cases rest with
    | nil => simp [test, read, bind, Except.bind, pure, Except.pure]
    | cons follower more =>
      obtain ⟨plain, other⟩ := apart rfl follower rfl
      simp [test, read, plain, other, bind, Except.bind, pure, Except.pure]
  | comparison read compares other => simp [test, read, compares, other, bind, Except.bind, pure, Except.pure]
  | existence read plain exists_ => simp [test, read, plain, exists_, bind, Except.bind, pure, Except.pure]

theorem isTest_of_test {pieces rest : List Piece} {node : Node} (done : test site pieces = .ok (node, rest)) :
    ∃ front, pieces = front ++ rest ∧ IsTest site front node ∧ (front.length = 1 → Apart rest) := by
  cases pieces with
  | nil => cases done
  | cons first more =>
    simp only [test, bind, Except.bind] at done
    split at done
    · cases done
    next left read =>
      split at done
      next =>
        cases done
        exact ⟨[first], rfl, .value read, by simp [Apart]⟩
      next follower rest =>
        split at done
        next operator compares =>
          split at done
          · cases done
          next second rest =>
            split at done
            · cases done
            next right other =>
              cases done
              exact ⟨[first, follower, second], rfl, .comparison read compares other, by simp⟩
        next plain =>
          split at done
          next exists_ =>
            cases done
            exact ⟨[first, follower], rfl, .existence read plain exists_, by simp⟩
          next other =>
            cases done
            refine ⟨[first], rfl, .value read, ?_⟩
            intro _ found same
            cases same
            exact ⟨plain, by simpa using other⟩

def Silent (failure : CompileFailure) : Prop := ∀ diagnostic, failure ≠ .diagnosed diagnostic

theorem valueOf_silent_iff {piece : Piece} {failure : CompileFailure} (silent : Silent failure) :
    valueOf site piece = .error failure ↔
      piece.kind = .number ∧ Number.numeral? piece.value = none ∧ failure = .unreadableNumber piece.value := by
  unfold valueOf
  cases piece.kind with
  | identifier => cases truthValue? piece.value <;> simp
  | string => simp
  | number => cases Number.numeral? piece.value <;> simp [eq_comm]
  | operator => simpa [Site.failAt] using fun same => silent _ same.symm

private theorem test_of_bad_value {failure : CompileFailure} {piece : Piece} (bad : valueOf site piece = .error failure)
    (after : List Piece) : test site (piece :: after) = .error failure := by
  simp [test, bad, bind, Except.bind]

private theorem test_of_bad_operand {failure : CompileFailure} {first joint piece : Piece} {left : Node}
    {operator : Node.Operator} (read : valueOf site first = .ok left) (compares : comparison? joint = some operator)
    (bad : valueOf site piece = .error failure) (after : List Piece) :
    test site (first :: joint :: piece :: after) = .error failure := by
  simp [test, read, compares, bad, bind, Except.bind]

private theorem bad_value_of_test {failure : CompileFailure} {pieces : List Piece} (silent : Silent failure)
    (failed : test site pieces = .error failure) :
    ∃ before piece after, pieces = before ++ piece :: after ∧ valueOf site piece = .error failure ∧
      (before = [] ∨ ∃ first joint left operator, before = [first, joint] ∧ valueOf site first = .ok left ∧
        comparison? joint = some operator) := by
  cases pieces with
  | nil => exact absurd (Except.error.inj failed).symm (silent _)
  | cons first more =>
    simp only [test, bind, Except.bind] at failed
    split at failed
    next failure bad =>
      cases failed
      exact ⟨[], first, more, rfl, bad, .inl rfl⟩
    next left read =>
      split at failed
      · cases failed
      next joint rest =>
        split at failed
        next operator compares =>
          split at failed
          · exact absurd (Except.error.inj failed).symm (silent _)
          next second rest =>
            split at failed
            next failure bad =>
              cases failed
              exact ⟨[first, joint], second, rest, rfl, bad, .inr ⟨first, joint, left, operator, rfl, read, compares⟩⟩
            · cases failed
        next => split at failed <;> cases failed

/-- Pieces after which a value is due. -/
inductive Due (site : Site) : List Piece → Prop
  | start : Due site []
  | operand {first joint : Piece} {left : Node} {operator : Node.Operator} (read : valueOf site first = .ok left)
      (compares : comparison? joint = some operator) : Due site [first, joint]
  | later {front rest : List Piece} {joint : Piece} {node : Node} {operator : Node.Operator}
      (tested : IsTest site front node) (joins : connective? joint = some operator) (due : Due site rest) :
      Due site (front ++ joint :: rest)

theorem apart_of_connective {joint : Piece} {operator : Node.Operator} (joins : connective? joint = some operator)
    (rest : List Piece) : Apart (joint :: rest) := by
  intro follower found
  cases found
  unfold connective? at joins
  split at joins
  next operates =>
    split at joins
    next word => simp [comparison?, isExistence, operates, word]
    next =>
      split at joins
      next word => simp [comparison?, isExistence, operates, word]
      next => cases joins
  next => cases joins

/-- A test, a connective and something after it: the rest is read on its own. -/
theorem tests_cons {front rest : List Piece} {joint : Piece} {left : Node} {operator : Node.Operator}
    (tested : IsTest site front left) (joins : connective? joint = some operator) (more : rest ≠ []) :
    tests site (front ++ joint :: rest) =
      tests site rest >>= fun (right, left_over) => .ok (.binary operator left right, left_over) := by
  have read := test_of_isTest tested fun _ => apart_of_connective joins rest
  rw [tests]
  split
  next failed => simp [read] at failed
  next same => simp [read] at same
  next same =>
    rw [read] at same
    cases same
    simp only [joins, List.isEmpty_iff, more, if_false]
    rfl

theorem tests_single {front : List Piece} {node : Node} (tested : IsTest site front node) :
    tests site front = .ok (node, []) := by
  have read : test site (front ++ []) = .ok (node, []) := test_of_isTest tested fun _ => by simp [Apart]
  rw [List.append_nil] at read
  rw [tests]
  split
  next failed => simp [read] at failed
  next same =>
    rw [read] at same
    cases same
    rfl
  next same => simp [read] at same

private theorem tests_of_due {failure : CompileFailure} {before : List Piece} {piece : Piece} (due : Due site before)
    (bad : valueOf site piece = .error failure) (after : List Piece) :
    tests site (before ++ piece :: after) = .error failure := by
  have stopped {pieces : List Piece} (failed : test site pieces = .error failure) :
      tests site pieces = .error failure := by
    rw [tests]
    split <;> simp_all
  induction due with
  | start => exact stopped (test_of_bad_value bad after)
  | operand read compares => exact stopped (test_of_bad_operand read compares bad after)
  | later tested joins due ih =>
    rw [List.append_assoc, List.cons_append, tests_cons tested joins (by simp), ih]
    rfl

private theorem due_of_tests {failure : CompileFailure} {pieces : List Piece} (silent : Silent failure)
    (failed : tests site pieces = .error failure) :
    ∃ before piece after, pieces = before ++ piece :: after ∧ Due site before ∧ valueOf site piece = .error failure := by
  fun_induction tests site pieces with
  | case1 pieces reason stopped =>
    cases failed
    obtain ⟨before, piece, after, split, bad, place⟩ := bad_value_of_test silent stopped
    refine ⟨before, piece, after, split, ?_, bad⟩
    rcases place with rfl | ⟨first, joint, left, operator, rfl, read, compares⟩
    · exact .start
    · exact .operand read compares
  | case2 => cases failed
  | case3 => exact absurd (Except.error.inj failed).symm (silent _)
  | case4 => exact absurd (Except.error.inj failed).symm (silent _)
  | case5 pieces left joint rest taken operator joins more ih =>
    obtain ⟨front, same, tested, _⟩ := isTest_of_test taken
    cases read : tests site rest with
    | ok result =>
      simp only [read, bind, Except.bind] at failed
      cases failed
    | error reason =>
      simp only [read, bind, Except.bind] at failed
      cases failed
      obtain ⟨before, piece, after, split, due, bad⟩ := ih read
      exact ⟨front ++ joint :: before, piece, after, by simp [same, split], .later tested joins due, bad⟩

def anyName : Piece := ⟨.identifier, "x", none⟩

private theorem valueOf_anyName : valueOf site anyName = .ok (.variable "x") := by
  simp +decide [valueOf, anyName, truthValue?]

private theorem tests_anyName {before : List Piece} (due : Due site before) :
    ∃ node, tests site (before ++ [anyName]) = .ok (node, []) := by
  induction due with
  | start => exact ⟨_, tests_single (.value valueOf_anyName)⟩
  | operand read compares => exact ⟨_, tests_single (.comparison read compares valueOf_anyName)⟩
  | later tested joins due ih =>
    obtain ⟨right, read⟩ := ih
    exact ⟨_, by rw [List.append_assoc, List.cons_append, tests_cons tested joins (by simp), read]; rfl⟩

private theorem due_of_tests_anyName {before pieces : List Piece} {node : Node}
    (split : pieces = before ++ [anyName]) (done : tests site pieces = .ok (node, [])) : Due site before := by
  fun_induction tests site pieces generalizing before node with
  | case1 => cases done
  | case2 pieces left taken =>
    obtain ⟨front, same, tested, _⟩ := isTest_of_test taken
    rw [List.append_nil, split] at same
    cases tested with
    | value read =>
      obtain ⟨rfl, _⟩ := List.append_inj' (same.trans (List.nil_append _).symm) rfl
      exact .start
    | @comparison first joint second _ _ _ read compares other =>
      obtain ⟨rfl, _⟩ := List.append_inj' (same.trans (by rfl : _ = [first, joint] ++ [second])) rfl
      exact .operand read compares
    | @existence first word _ read plain exists_ =>
      obtain ⟨_, last⟩ := List.append_inj' (same.trans (by rfl : _ = [first] ++ [word])) rfl
      cases last
      exact absurd exists_ (by decide)
  | case3 => simp [Site.failAt] at done
  | case4 => simp [Site.failAt] at done
  | case5 pieces left joint rest taken operator joins more ih =>
    obtain ⟨front, same, tested, _⟩ := isTest_of_test taken
    obtain ⟨inner, last, rfl⟩ : ∃ inner last, rest = inner ++ [last] := by
      rcases List.eq_nil_or_concat rest with rfl | ⟨inner, last, rfl⟩
      · simp at more
      · exact ⟨inner, last, List.concat_eq_append⟩
    have parts : before ++ [anyName] = (front ++ joint :: inner) ++ [last] := by
      rw [← split, same]
      simp
    obtain ⟨rfl, final⟩ := List.append_inj' parts rfl
    cases final
    cases read : tests site (inner ++ [anyName]) with
    | error failure => simp [read, bind, Except.bind] at done
    | ok result =>
      obtain ⟨right, left_over⟩ := result
      simp only [read, bind, Except.bind] at done
      cases done
      exact .later tested joins (ih rfl read)

theorem ofPieces_ok_iff {pieces : List Piece} {node : Node} :
    ofPieces site pieces = .ok node ↔ tests site pieces = .ok (node, []) := by
  cases pieces with
  | nil => simp [ofPieces, tests, test, Site.failAt]
  | cons first more =>
    rw [ofPieces]
    rcases tests site (first :: more) with failure | ⟨read, _ | ⟨extra, rest⟩⟩ <;>
      simp [bind, Except.bind, pure, Except.pure, Site.failAt]

private theorem ofPieces_silent {failure : CompileFailure} {pieces : List Piece} (silent : Silent failure) :
    ofPieces site pieces = .error failure ↔ tests site pieces = .error failure := by
  have other {position : Option Position} {malformation : Malformation} :
      (site.failAt position malformation : Except CompileFailure Node) ≠ .error failure :=
    fun same => silent _ (Except.error.inj same).symm
  cases pieces with
  | nil =>
    refine iff_of_false other ?_
    simpa [tests, test, Site.failAt] using fun same => silent _ same.symm
  | cons first more =>
    rw [ofPieces]
    rcases tests site (first :: more) with reason | ⟨read, _ | ⟨extra, rest⟩⟩
    · simp [bind, Except.bind]
    · simp [bind, Except.bind, pure, Except.pure]
    · simpa [bind, Except.bind] using other

/-- A condition fails silently exactly if it holds a number that stands for nothing where any name would complete the
pieces before it. -/
theorem ofPieces_silent_iff {failure : CompileFailure} {pieces : List Piece} (silent : Silent failure) :
    ofPieces site pieces = .error failure ↔
      ∃ before piece after, pieces = before ++ piece :: after ∧ valueOf site piece = .error failure ∧
        ∃ node, ofPieces site (before ++ [anyName]) = .ok node := by
  rw [ofPieces_silent silent]
  constructor
  · intro failed
    obtain ⟨before, piece, after, split, due, bad⟩ := due_of_tests silent failed
    obtain ⟨node, read⟩ := tests_anyName due
    exact ⟨before, piece, after, split, bad, node, ofPieces_ok_iff.mpr read⟩
  · intro ⟨before, piece, after, same, bad, node, read⟩
    subst same
    exact tests_of_due (due_of_tests_anyName rfl (ofPieces_ok_iff.mp read)) bad after

end Condition
end Stencil
