import Mathlib
import Stencil.Proofs.DiagnosticPlaces

/-! The grammar of conditions.

    condition := test | test ('&&' | '||') condition
    test      := value | value ('==' | '!=') value | value 'exists'
    value     := identifier | string | number

A list of pieces is a condition exactly if it derives from this grammar. Then it does so in one way, and its tree is the image
of the derivation: every connective has all that stands to its right as its right operand. -/

namespace Stencil
open Diagnostic Number Text

namespace Condition
open Expression (Piece)

inductive Operand where
  | identifier (word : String) (position : Option Position)
  | string (content : String) (position : Option Position)
  | number (digits : String) (position : Option Position)

inductive Comparison where
  | equals (position : Option Position)
  | differs (position : Option Position)

inductive Connective where
  | and (position : Option Position)
  | or (position : Option Position)

inductive Test where
  | value (operand : Operand)
  | comparison (left : Operand) (sign : Comparison) (right : Operand)
  /-- The place is that of the word `exists`. -/
  | existence (operand : Operand) (position : Option Position)

inductive Derivation where
  | single (test : Test)
  | joined (test : Test) (joint : Connective) (rest : Derivation)

def Operand.piece : Operand → Piece
  | .identifier word position => ⟨.identifier, word, position⟩
  | .string content position => ⟨.string, content, position⟩
  | .number digits position => ⟨.number, digits, position⟩

def Comparison.piece : Comparison → Piece
  | .equals position => ⟨.operator, "==", position⟩
  | .differs position => ⟨.operator, "!=", position⟩

def Connective.piece : Connective → Piece
  | .and position => ⟨.operator, "&&", position⟩
  | .or position => ⟨.operator, "||", position⟩

def Test.pieces : Test → List Piece
  | .value operand => [operand.piece]
  | .comparison left sign right => [left.piece, sign.piece, right.piece]
  | .existence operand position => [operand.piece, ⟨.identifier, "exists", position⟩]

def Derivation.pieces : Derivation → List Piece
  | .single test => test.pieces
  | .joined test joint rest => test.pieces ++ joint.piece :: rest.pieces

/-- Digits that stand for no number count as an undefined one; no condition holds any. -/
def Operand.node : Operand → Node
  | .identifier word _ =>
    if word.toLower = "true" then .constant .boolean (.bool true)
    else if word.toLower = "false" then .constant .boolean (.bool false)
    else .variable word
  | .string content _ => .constant .string (.text content)
  | .number digits _ => .constant .number (.float ((numeral? digits).getD (.undefined 0)))

def Comparison.operator : Comparison → Node.Operator
  | .equals _ => .equals
  | .differs _ => .differs

def Connective.operator : Connective → Node.Operator
  | .and _ => .and
  | .or _ => .or

def Test.node : Test → Node
  | .value operand => operand.node
  | .comparison left sign right => .binary sign.operator left.node right.node
  | .existence operand _ => .binary .differs operand.node (.variable "undefined")

def Derivation.node : Derivation → Node
  | .single test => test.node
  | .joined test joint rest => .binary joint.operator test.node rest.node

/-- The texts of all numbers among the pieces stand for numbers. -/
def Readable (pieces : List Piece) : Prop :=
  ∀ piece ∈ pieces, piece.kind = .number → (numeral? piece.value).isSome = true

theorem Readable.mono {pieces more : List Piece} (readable : Readable more) (within : ∀ piece ∈ pieces, piece ∈ more) :
    Readable pieces := fun piece member => readable piece (within piece member)

section
variable {site : Site} {piece : Piece} {node : Node}

private theorem toLower_eq_iff {word other : String} : word.toLower = other ↔ word.toList.map Char.toLower = other.toList := by
  rw [← String.toList_inj, String.toLower, String.toList_map]

private theorem truthValue_eq (word : String) : truthValue? word =
    if word.toLower = "true" then some true else if word.toLower = "false" then some false else none := by
  simp only [truthValue?, toLower_eq_iff]
  rfl

theorem valueOf_operand {operand : Operand} (readable : Readable [operand.piece]) :
    valueOf site operand.piece = .ok operand.node := by
  cases operand with
  | identifier word position =>
    simp only [valueOf, Operand.piece, Operand.node, truthValue_eq]
    by_cases affirms : word.toLower = "true"
    · simp only [affirms, if_true]
    · by_cases denies : word.toLower = "false" <;> simp [affirms, denies]
  | string content position => rfl
  | number digits position =>
    obtain ⟨number, read⟩ := Option.isSome_iff_exists.mp (readable _ (List.mem_singleton_self _) rfl)
    simp only [Operand.piece] at read
    simp [valueOf, Operand.piece, Operand.node, read]

theorem operand_of_valueOf (read : valueOf site piece = .ok node) :
    ∃ operand : Operand, operand.piece = piece ∧ operand.node = node := by
  obtain ⟨kind, value, position⟩ := piece
  cases kind with
  | identifier =>
    refine ⟨.identifier value position, rfl, ?_⟩
    have same : valueOf site (Operand.identifier value position).piece = .ok (Operand.identifier value position).node :=
      valueOf_operand (by simp [Readable, Operand.piece])
    exact Except.ok.inj (same.symm.trans read)
  | string =>
    cases read
    exact ⟨.string value position, rfl, rfl⟩
  | number =>
    refine ⟨.number value position, rfl, ?_⟩
    cases known : numeral? value with
    | none => simp [valueOf, known] at read
    | some number =>
      simp only [valueOf, known] at read
      cases read
      simp [Operand.node, known]
  | operator => cases read

/-- A piece is one of two operators. -/
private theorem operator_eq_some_iff {first second : String} (distinct : first ≠ second) {one other operator : Node.Operator} :
    (if piece.kind = .operator then
      if piece.value = first then some one else if piece.value = second then some other else none else none) = some operator ↔
      (∃ position, ⟨.operator, first, position⟩ = piece) ∧ one = operator ∨
        (∃ position, ⟨.operator, second, position⟩ = piece) ∧ other = operator := by
  obtain ⟨kind, value, position⟩ := piece
  by_cases isOperator : kind = .operator
  · by_cases isFirst : value = first
    · simp [isOperator, isFirst, distinct.symm]
    · simp [isOperator, isFirst, Ne.symm isFirst, eq_comm]
  · simp [isOperator, Ne.symm isOperator]

theorem comparison_eq_some_iff {operator : Node.Operator} :
    comparison? piece = some operator ↔ ∃ sign : Comparison, sign.piece = piece ∧ sign.operator = operator := by
  rw [comparison?, operator_eq_some_iff (by decide)]
  constructor
  · rintro (⟨⟨position, rfl⟩, rfl⟩ | ⟨⟨position, rfl⟩, rfl⟩)
    · exact ⟨.equals position, rfl, rfl⟩
    · exact ⟨.differs position, rfl, rfl⟩
  · rintro ⟨sign, rfl, rfl⟩
    cases sign with
    | equals position => exact .inl ⟨⟨position, rfl⟩, rfl⟩
    | differs position => exact .inr ⟨⟨position, rfl⟩, rfl⟩

theorem connective_eq_some_iff {operator : Node.Operator} :
    connective? piece = some operator ↔ ∃ joint : Connective, joint.piece = piece ∧ joint.operator = operator := by
  rw [connective?, operator_eq_some_iff (by decide)]
  constructor
  · rintro (⟨⟨position, rfl⟩, rfl⟩ | ⟨⟨position, rfl⟩, rfl⟩)
    · exact ⟨.and position, rfl, rfl⟩
    · exact ⟨.or position, rfl, rfl⟩
  · rintro ⟨joint, rfl, rfl⟩
    cases joint with
    | and position => exact .inl ⟨⟨position, rfl⟩, rfl⟩
    | or position => exact .inr ⟨⟨position, rfl⟩, rfl⟩

theorem isTest_of_readable {test : Test} (readable : Readable test.pieces) : IsTest site test.pieces test.node := by
  cases test with
  | value operand => exact .value (valueOf_operand readable)
  | comparison left sign right =>
    have first : valueOf site left.piece = .ok left.node := valueOf_operand (readable.mono (by simp [Test.pieces]))
    have second : valueOf site right.piece = .ok right.node := valueOf_operand (readable.mono (by simp [Test.pieces]))
    exact .comparison first (comparison_eq_some_iff.mpr ⟨sign, rfl, rfl⟩) second
  | existence operand position =>
    have first : valueOf site operand.piece = .ok operand.node := valueOf_operand (readable.mono (by simp [Test.pieces]))
    exact .existence first rfl rfl

theorem test_of_isTest_pieces {front : List Piece} (tested : IsTest site front node) :
    ∃ test : Test, test.pieces = front ∧ test.node = node := by
  cases tested with
  | value read =>
    obtain ⟨operand, rfl, rfl⟩ := operand_of_valueOf read
    exact ⟨.value operand, rfl, rfl⟩
  | comparison read compares other =>
    obtain ⟨left, rfl, rfl⟩ := operand_of_valueOf read
    obtain ⟨sign, rfl, rfl⟩ := comparison_eq_some_iff.mp compares
    obtain ⟨right, rfl, rfl⟩ := operand_of_valueOf other
    exact ⟨.comparison left sign right, rfl, rfl⟩
  | @existence first word _ read plain exists_ =>
    obtain ⟨operand, rfl, rfl⟩ := operand_of_valueOf read
    obtain ⟨kind, value, position⟩ := word
    simp only [isExistence, Bool.and_eq_true, decide_eq_true_eq] at exists_
    obtain ⟨rfl, rfl⟩ := exists_
    exact ⟨.existence operand position, rfl, rfl⟩

end

theorem Derivation.pieces_ne_nil (derivation : Derivation) : derivation.pieces ≠ [] := by
  cases derivation with
  | single test => cases test <;> simp [pieces, Test.pieces]
  | joined => simp [pieces]

variable {site : Site} {pieces : List Piece}

/-- Every derivation is read, to its image. -/
theorem tests_derivation {derivation : Derivation} (readable : Readable derivation.pieces) :
    tests site derivation.pieces = .ok (derivation.node, []) := by
  induction derivation with
  | single test => exact tests_single (isTest_of_readable readable)
  | joined test joint rest ih =>
    have tested : IsTest site test.pieces test.node :=
      isTest_of_readable (readable.mono fun _ member => List.mem_append_left _ member)
    have read := ih (readable.mono fun _ member => List.mem_append_right _ (List.mem_cons_of_mem _ member))
    have joins := connective_eq_some_iff.mpr ⟨joint, rfl, rfl⟩
    rw [Derivation.pieces, tests_cons tested joins rest.pieces_ne_nil, read]
    rfl

/-- Whatever is read derives from the grammar. -/
theorem derivation_of_tests {node : Node} {rest : List Piece} (read : tests site pieces = .ok (node, rest)) :
    ∃ derivation : Derivation, derivation.pieces = pieces ∧ derivation.node = node := by
  fun_induction tests site pieces generalizing node rest with
  | case1 => cases read
  | case2 pieces left taken =>
    cases read
    obtain ⟨front, split, tested, _⟩ := isTest_of_test taken
    obtain ⟨test, same, rfl⟩ := test_of_isTest_pieces tested
    exact ⟨.single test, by rw [split, List.append_nil, ← same]; rfl, rfl⟩
  | case3 => cases read
  | case4 => cases read
  | case5 pieces left joint behind taken operator joins more ih =>
    obtain ⟨⟨right, _⟩, others, done⟩ := bind_ok_iff.mp read
    cases done
    obtain ⟨front, split, tested, _⟩ := isTest_of_test taken
    obtain ⟨test, same, rfl⟩ := test_of_isTest_pieces tested
    obtain ⟨sign, rfl, rfl⟩ := connective_eq_some_iff.mp joins
    obtain ⟨derivation, rfl, rfl⟩ := ih others
    exact ⟨.joined test sign derivation, by rw [split, ← same]; rfl, rfl⟩

theorem Operand.piece_injective {operand operand' : Operand} (same : operand.piece = operand'.piece) :
    operand = operand' := by
  cases operand <;> cases operand' <;> simp_all [piece]

theorem Comparison.piece_injective {sign sign' : Comparison} (same : sign.piece = sign'.piece) : sign = sign' := by
  cases sign <;> cases sign' <;> simp_all [piece]

theorem Connective.piece_injective {joint joint' : Connective} (same : joint.piece = joint'.piece) : joint = joint' := by
  cases joint <;> cases joint' <;> simp_all [piece]

/-- A test ends where nothing that goes with a value follows, so it is clear from the pieces where. -/
theorem Test.eq_of_pieces_append {test test' : Test} {rest rest' : List Piece} (same : test.pieces ++ rest = test'.pieces ++ rest')
    (apart : Apart rest) (apart' : Apart rest') : test = test' ∧ rest = rest' := by
  have notSign {sign : Comparison} {behind : List Piece} (apart : Apart (sign.piece :: behind)) : False := by
    have plain := (apart _ rfl).1
    rw [comparison_eq_some_iff.mpr ⟨sign, rfl, rfl⟩] at plain
    cases plain
  have notWord {position : Option Position} {behind : List Piece}
      (apart : Apart ((⟨.identifier, "exists", position⟩ : Piece) :: behind)) : False := by
    have other := (apart _ rfl).2
    revert other
    simp [isExistence]
  cases test <;> cases test' <;>
    simp only [pieces, List.cons_append, List.nil_append, List.cons.injEq] at same
  case value.value operand operand' =>
    exact ⟨congrArg value (Operand.piece_injective same.1), same.2⟩
  case value.comparison => exact (notSign (same.2 ▸ apart)).elim
  case value.existence => exact (notWord (same.2 ▸ apart)).elim
  case comparison.value => exact (notSign (same.2 ▸ apart')).elim
  case comparison.comparison =>
    obtain ⟨left, sign, right, rest⟩ := same
    rw [Operand.piece_injective left, Comparison.piece_injective sign, Operand.piece_injective right]
    exact ⟨rfl, rest⟩
  case comparison.existence _ sign _ _ _ => cases sign <;> cases same.2.1
  case existence.value => exact (notWord (same.2 ▸ apart')).elim
  case existence.comparison _ _ _ sign _ => cases sign <;> cases same.2.1
  case existence.existence =>
    obtain ⟨operand, word, rest⟩ := same
    cases word
    rw [Operand.piece_injective operand]
    exact ⟨rfl, rest⟩

theorem Connective.apart (joint : Connective) (rest : List Piece) : Apart (joint.piece :: rest) :=
  apart_of_connective (connective_eq_some_iff.mpr ⟨joint, rfl, rfl⟩) rest

/-- The grammar is unambiguous. -/
theorem Derivation.pieces_injective {derivation derivation' : Derivation} (same : derivation.pieces = derivation'.pieces) :
    derivation = derivation' := by
  have nothing : Apart [] := by simp [Apart]
  induction derivation generalizing derivation' with
  | single test =>
    cases derivation' with
    | single test' =>
      have parts : test.pieces ++ [] = test'.pieces ++ [] := by simpa [pieces] using same
      rw [(Test.eq_of_pieces_append parts nothing nothing).1]
    | joined test' joint rest =>
      have parts : test.pieces ++ [] = test'.pieces ++ joint.piece :: rest.pieces := by simpa [pieces] using same
      cases (Test.eq_of_pieces_append parts nothing (joint.apart _)).2
  | joined test joint rest ih =>
    cases derivation' with
    | single test' =>
      have parts : test.pieces ++ joint.piece :: rest.pieces = test'.pieces ++ [] := by simpa [pieces] using same
      cases (Test.eq_of_pieces_append parts (joint.apart _) nothing).2
    | joined test' joint' rest' =>
      obtain ⟨rfl, others⟩ := Test.eq_of_pieces_append same (joint.apart _) (joint'.apart _)
      obtain ⟨joints, rests⟩ := List.cons.inj others
      rw [Connective.piece_injective joints, ih rests]

/-- A condition is read whole, so what is left over of it is never looked at. -/
theorem ofPieces_eq_tests (filled : pieces ≠ []) : ofPieces site pieces = (tests site pieces).map Prod.fst := by
  rw [ofPieces, if_neg (by simpa using filled)]
  cases read : tests site pieces with
  | error failure => rfl
  | ok result =>
    obtain ⟨node, rest⟩ := result
    cases tests_reads_all read
    rfl

/-- Where all numbers can be read, only a malformation is a reason to refuse. -/
theorem refused_of_readable {failure : CompileFailure} (readable : Readable pieces)
    (failed : ofPieces site pieces = .error failure) :
    ∃ malformation position, failure = .diagnosed ⟨.malformed malformation, position, some site.source⟩ ∧
      (pieces = [] ∧ position = site.tag ∨ ∃ piece ∈ pieces, position = piece.position) := by
  by_cases told : Silent failure
  · obtain ⟨before, piece, after, rfl, bad, _⟩ := (ofPieces_silent_iff told).mp failed
    obtain ⟨number, unread, _⟩ := (valueOf_silent_iff told).mp bad
    have read := readable piece (by simp) number
    simp [unread] at read
  · obtain ⟨diagnostic, rfl⟩ : ∃ diagnostic, failure = .diagnosed diagnostic := by simpa [Silent] using told
    by_cases filled : pieces = []
    · subst filled
      cases failed
      exact ⟨.empty, site.tag, rfl, .inl ⟨rfl, rfl⟩⟩
    · obtain ⟨piece, member, malformation, _, rfl⟩ := blames_of_ofPieces filled failed
      exact ⟨malformation, piece.position, rfl, .inr ⟨piece, member, rfl⟩⟩

/-- A list of pieces is accepted exactly if it derives from the grammar. It does so in one way at most, and becomes the image
of the derivation. Otherwise it is refused as malformed at one of its pieces or, where it has none, at the tag. -/
theorem ofPieces_derives (site : Site) (pieces : List Piece) (readable : Readable pieces) :
    ((∃ node, ofPieces site pieces = .ok node) ↔ ∃ derivation : Derivation, derivation.pieces = pieces) ∧
      (∀ derivation : Derivation, derivation.pieces = pieces →
        (∀ other : Derivation, other.pieces = pieces → other = derivation) ∧ ofPieces site pieces = .ok derivation.node) ∧
      ((¬ ∃ derivation : Derivation, derivation.pieces = pieces) → ∃ malformation position,
        ofPieces site pieces = .error (.diagnosed ⟨.malformed malformation, position, some site.source⟩) ∧
          (pieces = [] ∧ position = site.tag ∨ ∃ piece ∈ pieces, position = piece.position)) ∧
      (∀ node rest, tests site pieces = .ok (node, rest) → rest = []) ∧
      (pieces ≠ [] → ofPieces site pieces = (tests site pieces).map Prod.fst) := by
  have read (derivation : Derivation) (same : derivation.pieces = pieces) : ofPieces site pieces = .ok derivation.node := by
    subst same
    exact ofPieces_ok_iff.mpr (tests_derivation readable)
  have derives (node : Node) (sound : ofPieces site pieces = .ok node) : ∃ derivation : Derivation, derivation.pieces = pieces := by
    obtain ⟨derivation, same, _⟩ := derivation_of_tests (ofPieces_ok_iff.mp sound)
    exact ⟨derivation, same⟩
  refine ⟨⟨fun ⟨node, sound⟩ => derives node sound, fun ⟨derivation, same⟩ => ⟨_, read derivation same⟩⟩, ?_, ?_,
    fun _ _ => tests_reads_all, ofPieces_eq_tests⟩
  · intro derivation same
    exact ⟨fun other same' => Derivation.pieces_injective (same'.trans same.symm), read derivation same⟩
  · intro underived
    cases outcome : ofPieces site pieces with
    | ok node => exact absurd (derives node outcome) underived
    | error failure =>
      obtain ⟨malformation, position, rfl, place⟩ := refused_of_readable readable outcome
      exact ⟨malformation, position, rfl, place⟩

/-- The word `exists` as a name and as a test, a truth value in another case, and both connectives. -/
def presence : Derivation :=
  .joined (.existence (.identifier "exists" (some ⟨1, 6⟩)) (some ⟨1, 13⟩)) (.and (some ⟨1, 20⟩))
    (.joined (.value (.identifier "True" none)) (.or (some ⟨1, 28⟩))
      (.single (.comparison (.number "15" (some ⟨1, 31⟩)) (.differs (some ⟨1, 34⟩)) (.string "15" (some ⟨1, 37⟩)))))

theorem ofPieces_derives_presence : Readable presence.pieces ∧ ofPieces ⟨none, rootName⟩ presence.pieces =
    .ok (.binary .and (.binary .differs (.variable "exists") (.variable "undefined"))
      (.binary .or (.constant .boolean (.bool true))
        (.binary .differs (.constant .number (.float ((numeral? "15").getD (.undefined 0)))) (.constant .string (.text "15"))))) := by
  have number : (numeral? "15").isSome = true := by
    rw [show "15" = toString 15 by decide, numeral_toString]
    rfl
  have readable : Readable presence.pieces := by
    intro piece member kind
    simp only [presence, Derivation.pieces, Test.pieces, Operand.piece, Connective.piece, Comparison.piece, List.cons_append,
      List.nil_append, List.mem_cons, List.not_mem_nil, or_false] at member
    rcases member with rfl | rfl | rfl | rfl | rfl | rfl | rfl | rfl <;> first | exact number | cases kind
  obtain ⟨_, unique, _⟩ := ofPieces_derives ⟨none, rootName⟩ presence.pieces readable
  refine ⟨readable, (unique presence rfl).2.trans ?_⟩
  have named : (Operand.identifier "exists" (some ⟨1, 6⟩)).node = .variable "exists" := by
    simp +decide [Operand.node, toLower_eq_iff]
  have affirmed : (Operand.identifier "True" none).node = .constant .boolean (.bool true) := by
    simp +decide [Operand.node, toLower_eq_iff]
  simp only [presence, Derivation.node, Test.node, named, affirmed]
  rfl

end Condition
end Stencil
