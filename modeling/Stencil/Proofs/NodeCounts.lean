import Mathlib
import Stencil.Proofs.ConditionGrammar
import Stencil.Proofs.InclusionTrails
import Stencil.Proofs.PartialInlining
import Stencil.Proofs.TokenSeam
import Stencil.Proofs.TreeTokens

/-! How many nodes a tree has. Every token adds its share to a draft when it is taken, whatever is open there, and the tags that
end something add nothing: the parts of a construct are counted with the tag that opens it. -/

namespace Stencil

namespace Condition
open Expression (Piece)

/-- How many tests ask whether a value exists. The word asks so right behind a value; elsewhere it is a name. -/
def existences : List Piece → Nat
  | first :: second :: rest =>
    (if first.kind ≠ .operator ∧ isExistence second then 1 else 0) + existences (second :: rest)
  | _ => 0

def Test.existences : Test → Nat
  | .existence _ _ => 1
  | .value _ | .comparison _ _ _ => 0

def Derivation.existences : Derivation → Nat
  | .single test => test.existences
  | .joined test _ rest => test.existences + rest.existences

theorem existences_joined (front : List Piece) (joint : Connective) (rest : List Piece) :
    existences (front ++ joint.piece :: rest) = existences front + existences rest := by
  have operator : joint.piece.kind = .operator := by cases joint <;> rfl
  have behind : existences (joint.piece :: rest) = existences rest := by
    cases rest with
    | nil => rfl
    | cons first rest => simp [existences, operator]
  induction front with
  | nil => simpa [existences] using behind
  | cons first front ih =>
    cases front with
    | nil =>
      have other : isExistence joint.piece = false := by simp [isExistence, operator]
      simp [existences, other, behind]
    | cons second front =>
      rw [List.cons_append, List.cons_append, existences, ← List.cons_append, ih, existences, Nat.add_assoc]

theorem Test.existences_pieces (test : Test) : Condition.existences test.pieces = test.existences := by
  cases test with
  | value operand => rfl
  | comparison left sign right => cases sign <;> simp [Condition.existences, pieces, existences, Comparison.piece, isExistence]
  | existence operand position => cases operand <;> rfl

theorem Derivation.existences_pieces (derivation : Derivation) :
    Condition.existences derivation.pieces = derivation.existences := by
  induction derivation with
  | single test => exact test.existences_pieces
  | joined test joint rest ih => rw [pieces, existences_joined, ih, test.existences_pieces, existences]

theorem Operand.count_node (operand : Operand) : operand.node.count = 1 := by
  cases operand with
  | identifier word position =>
    simp only [node]
    split
    · rfl
    split <;> rfl
  | string content position => rfl
  | number digits position => rfl

/-- Each piece is a node, and a test for existence has the name of what does not exist besides. -/
theorem Test.count_node (test : Test) : test.node.count = test.pieces.length + test.existences := by
  cases test with
  | value operand => simp [node, pieces, existences, operand.count_node]
  | comparison left sign right => simp [node, pieces, existences, Node.count, left.count_node, right.count_node]
  | existence operand position => simp [node, pieces, existences, Node.count, operand.count_node]

theorem Derivation.count_node (derivation : Derivation) :
    derivation.node.count = derivation.pieces.length + derivation.existences := by
  induction derivation with
  | single test => exact test.count_node
  | joined test joint rest ih =>
    simp only [node, Node.count, pieces, existences, List.length_append, List.length_cons, test.count_node, ih]
    omega

theorem count_ofPieces {site : Site} {pieces : List Piece} {condition : Node} (sound : ofPieces site pieces = .ok condition) :
    condition.count = pieces.length + existences pieces := by
  obtain ⟨derivation, rfl, rfl⟩ := derivation_of_tests (ofPieces_ok_iff.mp sound)
  rw [derivation.count_node, derivation.existences_pieces]

end Condition

/-- The tree that a registered source parses to by itself. -/
def Registry.treeOf? (registry : Registry) (name : String) : Option Node :=
  (registry.find? name).bind fun content => (parseSource registry content).result.toOption

def Token.weight (registry : Registry) (token : Token) : Nat :=
  match token.form with
  | .text _ | .variable _ => 1
  | .loop _ _ => 2
  | .choice pieces => 3 + pieces.length + Condition.existences pieces
  | .inclusion name => (registry.treeOf? name).elim 0 Node.count
  | .otherwise | .close | .bare => 0

theorem Node.countEach_append (first rest : List Node) : countEach (first ++ rest) = countEach first + countEach rest := by
  induction first with
  | nil => simp [countEach]
  | cons child first ih => simp [countEach, ih, Nat.add_assoc]

theorem Node.countEach_reverse (nodes : List Node) : countEach nodes.reverse = countEach nodes := by
  induction nodes with
  | nil => rfl
  | cons child nodes ih => simp [countEach, countEach_append, ih, Nat.add_comm]

def Opening.count : Opening → Nat
  | .loop _ _ => 2
  | .consequence condition => 3 + condition.count
  | .alternative condition first => 2 + condition.count + first.count

theorem Opening.count_close (opening : Opening) (position : Option Position) (nodes : List Node) :
    (opening.close position (.block nodes.reverse)).count = opening.count + Node.countEach nodes := by
  cases opening <;> simp only [close, count, Node.count, Node.emptyBlock, Node.countEach, Node.countEach_reverse] <;> omega

theorem weight_of_tree {registry : Registry} {name content : String} {position : Option Position} {tree : Node}
    (registered : registry.find? name = some content) (parsed : (parseSource registry content).result = .ok tree) :
    Token.weight registry ⟨position, .inclusion name⟩ = tree.count := by
  simp [Token.weight, Registry.treeOf?, registered, parsed, Except.toOption]

/-- A source has the same tokens under any name, but the places of its faults. -/
theorem tokens_renamed {source content : String} (sound : (tokensFrom (.ofSource source content)).2.1 = none) (other : String) :
    (tokensFrom (.ofSource other content)).1 = (tokensFrom (.ofSource source content)).1 ∧
      (tokensFrom (.ofSource other content)).2.1 = none := by
  have same : Cursor.Beyond .nothing [] (.ofSource source content) (.ofSource other content) :=
    ⟨(List.append_nil _).symm, Nat.le_refl 1, (Extent.shift_nothing _).symm⟩
  obtain ⟨tokens, fault⟩ := tokensFrom_beyond same sound
  have unmoved : Token.shift .nothing = id := funext Token.shift_nothing
  rw [unmoved, List.map_id] at tokens
  exact ⟨tokens, fault⟩

/-- What a partial becomes in its place is what its source parses to by itself. -/
theorem tree_of_expand {registry : Registry} {chain : List String} {name source : String} {position : Option Position} {tree : Node}
    (included : (expand registry chain name position source).result = .ok tree) :
    ∃ content, registry.find? name = some content ∧ (parseSource registry content).result = .ok tree := by
  obtain ⟨content, registered, _, parsed⟩ := expand_ok_iff.mp included
  obtain ⟨sound, nodes, rfl, taken⟩ := parse_ok.mp parsed
  obtain ⟨tokens, fault⟩ := tokens_renamed sound rootName
  have alone := Draft.acceptAll_cover (covers_expand registry (List.nil_subset (chain ++ [name]))) taken rootName
  refine ⟨content, registered, parse_ok.mpr ⟨fault, nodes, rfl, ?_⟩⟩
  exact (congrArg _ tokens).trans alone

namespace Draft
variable {registry : Registry} {chain : List String} {source : String}

def count (draft : Draft) : Nat :=
  Node.countEach draft.nodes +
    (draft.enclosures.map fun enclosure => enclosure.opening.count + Node.countEach enclosure.siblings).sum

theorem count_push (draft : Draft) (node : Node) : (draft.push node).count = draft.count + node.count := by
  simp only [count, push, Node.countEach]
  omega

theorem count_enter (draft : Draft) (opening : Opening) (position : Option Position) :
    (draft.enter opening position).count = draft.count + opening.count := by
  simp only [count, enter, Node.countEach, List.map_cons, List.sum_cons]
  omega

theorem Takes.count {draft next : Draft} {token : Token} (taken : Takes (expand registry chain) source draft token next) :
    next.count = draft.count + token.weight registry := by
  cases taken with
  | text position content => exact draft.count_push _
  | «variable» position path => exact draft.count_push _
  | @inclusion _ _ name tree included =>
    obtain ⟨content, registered, parsed⟩ := tree_of_expand included
    rw [count_push, weight_of_tree registered parsed]
  | loop position iterable binding => exact draft.count_enter _ position
  | choice sound =>
    rw [count_enter, Opening.count, Condition.count_ofPieces sound, ← Nat.add_assoc 3]
    rfl
  | otherwise nodes siblings condition start position outer =>
    simp only [Draft.count, Opening.count, Node.count, Node.countEach, Node.countEach_reverse, Token.weight, List.map_cons,
      List.sum_cons]
    omega
  | close nodes siblings opening start position outer =>
    simp only [Draft.count, Node.countEach, Opening.count_close, Token.weight, List.map_cons, List.sum_cons]
    omega

theorem acceptAll_count {draft final : Draft} {tokens : List Token}
    (taken : draft.acceptAll (expand registry chain) source tokens = .ok final) :
    final.count = draft.count + (tokens.map (Token.weight registry)).sum := by
  induction tokens generalizing draft with
  | nil =>
    cases taken
    rfl
  | cons token tokens ih =>
    obtain ⟨next, first, rest⟩ := acceptAll_cons_ok.mp taken
    rw [ih rest, first.count, List.map_cons, List.sum_cons, Nat.add_assoc]

/-- An `else` tag with nothing behind it makes no difference. -/
theorem acceptAll_idle {inclusion : Inclusion} {body : List Token} {nodes : List Node}
    (balanced : empty.acceptAll inclusion source body = .ok ⟨nodes, []⟩) (draft : Draft) (pieces : List Expression.Piece)
    (start divider closing : Option Position) (back : List Token) :
    draft.acceptAll inclusion source (⟨start, .choice pieces⟩ :: (body ++ ⟨divider, .otherwise⟩ :: ⟨closing, .close⟩ :: back)) =
      draft.acceptAll inclusion source (⟨start, .choice pieces⟩ :: (body ++ ⟨closing, .close⟩ :: back)) := by
  rw [acceptAll_cons, acceptAll_cons]
  cases accepted : (draft.accept inclusion source ⟨start, .choice pieces⟩).result with
  | error failure => rfl
  | ok next =>
    cases accept_ok_iff.mp accepted with
    | choice sound =>
      change acceptAll _ _ _ _ = acceptAll _ _ _ _
      rw [acceptAll_append, acceptAll_append, acceptAll_balanced balanced]
      rfl

end Draft

section
variable {registry : Registry} {chain : List String} {source : String}

/-- The tree of a stream has a root besides what its tokens add. -/
theorem count_parse {σ : Type} [TokenStream σ] {stream : σ} {tree : Node}
    (parsed : (parse registry chain source stream).1.result = .ok tree) :
    tree.count = 1 + ((TokenStream.drain stream).1.map (Token.weight registry)).sum := by
  obtain ⟨_, nodes, rfl, taken⟩ := parse_ok.mp parsed
  have held := Draft.acceptAll_count taken
  simp only [Draft.count, Draft.empty, Node.countEach, List.map_nil, List.sum_nil, Nat.add_zero, Nat.zero_add] at held
  rw [Node.count, Node.countEach_reverse, held]

theorem parse_joined {first second : List Token} {children children' : List Node}
    (parsed : (parse registry chain source first).1.result = .ok (.block children))
    (parsed' : (parse registry chain source second).1.result = .ok (.block children')) :
    (parse registry chain source (first ++ second)).1.result = .ok (.block (children ++ children')) := by
  obtain ⟨_, nodes, same, taken⟩ := parse_ok.mp parsed
  obtain ⟨_, nodes', same', taken'⟩ := parse_ok.mp parsed'
  cases same
  cases same'
  rw [TokenStream.drain_list] at taken taken'
  refine parse_ok.mpr ⟨by simp, nodes' ++ nodes, by simp, ?_⟩
  rw [TokenStream.drain_list]
  exact Draft.acceptAll_append_ok.mpr ⟨_, taken, Draft.acceptAll_balanced taken' _⟩

/-- Every token adds its share to the tree, and nothing else does but the root. So an `else` tag with nothing behind it does not
count, and where tokens that parse come after others that do, the trees make one with a single root. -/
theorem count_accounts_tokens (registry : Registry) (chain : List String) (source : String) :
    (∀ (tokens : List Token) tree, (parse registry chain source tokens).1.result = .ok tree →
      tree.count = 1 + (tokens.map (Token.weight registry)).sum ∧
      ∀ position name, ⟨position, .inclusion name⟩ ∈ tokens → ∃ content inner, registry.find? name = some content ∧
        (parseSource registry content).result = .ok inner ∧ Token.weight registry ⟨position, .inclusion name⟩ = inner.count) ∧
    (∀ content globals template, (Template.compile content registry globals).result = .ok template →
      template.nodeCount = 1 + ((tokensFrom (.ofSource rootName content)).1.map (Token.weight registry)).sum) ∧
    (∀ (front body back : List Token) pieces start divider closing inner, (parse registry chain source body).1.result = .ok inner →
      (parse registry chain source
          (front ++ ⟨start, .choice pieces⟩ :: (body ++ ⟨divider, .otherwise⟩ :: ⟨closing, .close⟩ :: back))).1.result =
        (parse registry chain source (front ++ ⟨start, .choice pieces⟩ :: (body ++ ⟨closing, .close⟩ :: back))).1.result) ∧
    ∀ (first second : List Token) tree tree', (parse registry chain source first).1.result = .ok tree →
      (parse registry chain source second).1.result = .ok tree' →
      ∃ whole, (parse registry chain source (first ++ second)).1.result = .ok whole ∧
        whole.count + 1 = tree.count + tree'.count := by
  refine ⟨?_, ?_, ?_, ?_⟩
  · intro tokens tree parsed
    refine ⟨by simpa using count_parse parsed, ?_⟩
    intro position name member
    obtain ⟨_, _, _, taken⟩ := parse_ok.mp parsed
    rw [TokenStream.drain_list] at taken
    obtain ⟨inner, included⟩ := Draft.included_of_acceptAll taken _ member (name, position) rfl
    obtain ⟨content, registered, alone⟩ := tree_of_expand included
    exact ⟨content, inner, registered, alone, weight_of_tree registered alone⟩
  · intro content globals template compiled
    obtain ⟨children, parsed, rfl⟩ := Template.compile_ok_iff.mp compiled
    exact count_parse parsed
  · intro front body back pieces start divider closing inner alone
    obtain ⟨_, nodes, _, taken⟩ := parse_ok.mp alone
    rw [TokenStream.drain_list] at taken
    rw [result_parse_list, result_parse_list, Draft.acceptAll_append, Draft.acceptAll_append]
    cases Draft.empty.acceptAll (expand registry chain) source front with
    | error failure => rfl
    | ok draft =>
      exact congrArg (· >>= fun draft => (Draft.finish draft source).result)
        (Draft.acceptAll_idle taken draft pieces start divider closing back)
  · intro first second tree tree' parsed parsed'
    obtain ⟨_, nodes, rfl, _⟩ := parse_ok.mp parsed
    obtain ⟨_, nodes', rfl, _⟩ := parse_ok.mp parsed'
    refine ⟨_, parse_joined parsed parsed', ?_⟩
    simp only [Node.count, Node.countEach_append]
    omega

end

section
open TreeTokens (nested nestedTree)

def greeting : Registry := ⟨[("p", "y\x7b\x7bv\x7d\x7d")]⟩

private theorem nested_parsed : (parse greeting [] rootName nested).1.result = .ok nestedTree := by cbv

private theorem greeting_compiled : (Template.compile "y\x7b\x7bv\x7d\x7d" greeting (.dict [])).result =
    .ok ⟨.block [.text "y", .variable "v"], greeting, .dict []⟩ := by cbv

/-- The partial counts as it does by itself, and the idle `else` not at all. -/
theorem count_accounts_tokens_nested :
    (nestedTree.count = 1 + (nested.map (Token.weight greeting)).sum ∧ nestedTree.count = 20) ∧
    (∃ content inner, greeting.find? "p" = some content ∧ (parseSource greeting content).result = .ok inner ∧
      Token.weight greeting ⟨none, .inclusion "p"⟩ = inner.count) ∧
    3 = 1 + ((tokensFrom (.ofSource rootName "y\x7b\x7bv\x7d\x7d")).1.map (Token.weight greeting)).sum ∧
    (parse greeting [] rootName (nested.take 2 ++ nested.drop 3)).1.result = .ok nestedTree ∧
    ∃ whole, (parse greeting [] rootName (nested ++ nested)).1.result = .ok whole ∧ whole.count + 1 = 40 := by
  obtain ⟨counts, templates, idle, joins⟩ := count_accounts_tokens greeting [] rootName
  obtain ⟨count, includes⟩ := counts nested nestedTree nested_parsed
  have size : nestedTree.count = 20 := rfl
  refine ⟨⟨count, size⟩, includes none "p" (by simp [nested]), templates _ _ _ greeting_compiled, ?_, ?_⟩
  · have alone : (parse greeting [] rootName ([⟨none, .text "x"⟩] : List Token)).1.result = .ok (.block [.text "x"]) := by cbv
    exact (idle [] _ (nested.drop 4) _ _ none none _ alone).symm.trans nested_parsed
  · exact joins nested nested _ _ nested_parsed nested_parsed

end
end Stencil
