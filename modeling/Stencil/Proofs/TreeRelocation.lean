import Stencil.Proofs.ReadingLocality
import Stencil.Proofs.TreeShape

/-! Trees of tokens that lie elsewhere. Only the loops of a source know where they stand; those of its partials stand in
other sources and stay where they are. -/

namespace Stencil

namespace Node

mutual
/-- The tree with the loops of its own source at other places. -/
def relocate (move : Position → Position) : Node → Node
  | .block children => .block (relocateEach move children)
  | .loop iterable binding body position => .loop iterable binding (relocate move body) (position.map move)
  | .choice condition consequence alternative =>
    .choice condition (relocate move consequence) (relocate move alternative)
  | node => node

/-- The same for what stands side by side, where a block is a partial. -/
def relocateEach (move : Position → Position) : List Node → List Node
  | [] => []
  | .block children :: others => .block children :: relocateEach move others
  | child :: others => relocate move child :: relocateEach move others
end

variable {move : Position → Position}

theorem relocateEach_cons (child : Node) (others : List Node) : relocateEach move (child :: others) =
    (if child.isBlock then child else child.relocate move) :: relocateEach move others := by
  cases child <;> rfl

theorem relocateEach_append (first rest : List Node) :
    relocateEach move (first ++ rest) = relocateEach move first ++ relocateEach move rest := by
  induction first with
  | nil => rfl
  | cons child others ih => rw [List.cons_append, relocateEach_cons, relocateEach_cons, ih, List.cons_append]

theorem relocateEach_reverse (nodes : List Node) :
    relocateEach move nodes.reverse = (relocateEach move nodes).reverse := by
  induction nodes with
  | nil => rfl
  | cons child others ih =>
    rw [List.reverse_cons, relocateEach_append, ih, relocateEach_cons, relocateEach_cons, List.reverse_cons]
    rfl

theorem relocate_body (move : Position → Position) (nodes : List Node) :
    (block nodes.reverse).relocate move = .block (relocateEach move nodes).reverse := by
  rw [relocate, relocateEach_reverse]

end Node

namespace Condition
open Expression (Piece)
variable {site site' : Site} {image : Piece → Piece}

/-- The image of a piece says the same, perhaps from elsewhere. -/
def Echoes (image : Piece → Piece) : Prop := ∀ piece, (image piece).kind = piece.kind ∧ (image piece).value = piece.value

private theorem Echoes.valueOf (echoes : Echoes image) {piece : Piece} {node : Node}
    (read : valueOf site piece = .ok node) : Condition.valueOf site' (image piece) = .ok node := by
  obtain ⟨kind, value⟩ := echoes piece
  unfold Condition.valueOf at read ⊢
  rw [kind, value]
  cases shape : piece.kind <;> simp only [shape] at read ⊢
  · exact read
  · exact read
  · exact read
  · cases read

private theorem Echoes.comparison (echoes : Echoes image) (piece : Piece) :
    comparison? (image piece) = comparison? piece := by
  simp [comparison?, echoes piece]

private theorem Echoes.connective (echoes : Echoes image) (piece : Piece) :
    connective? (image piece) = connective? piece := by
  simp [connective?, echoes piece]

private theorem Echoes.existence (echoes : Echoes image) (piece : Piece) : isExistence (image piece) = isExistence piece := by
  simp [isExistence, echoes piece]

private theorem Echoes.isTest (echoes : Echoes image) {front : List Piece} {node : Node} (tested : IsTest site front node) :
    IsTest site' (front.map image) node := by
  cases tested with
  | value read => exact .value (echoes.valueOf read)
  | comparison read compares other =>
    exact .comparison (echoes.valueOf read) ((echoes.comparison _).trans compares) (echoes.valueOf other)
  | existence read plain exists_ =>
    exact .existence (echoes.valueOf read) ((echoes.comparison _).trans plain) ((echoes.existence _).trans exists_)

/-- A condition that is sound is sound wherever it stands, and the same. -/
theorem Echoes.ofPieces (echoes : Echoes image) {pieces : List Piece} {node : Node}
    (sound : ofPieces site pieces = .ok node) : Condition.ofPieces site' (pieces.map image) = .ok node := by
  rw [ofPieces_ok_iff] at sound ⊢
  fun_induction tests site pieces generalizing node with
  | case1 => cases sound
  | case2 pieces left taken =>
    cases sound
    obtain ⟨front, same, tested, _⟩ := isTest_of_test taken
    rw [List.append_nil] at same
    exact same ▸ tests_single (echoes.isTest tested)
  | case3 => simp [Site.failAt] at sound
  | case4 => simp [Site.failAt] at sound
  | case5 pieces left joint rest taken operator joins more ih =>
    obtain ⟨front, same, tested, _⟩ := isTest_of_test taken
    cases read : tests site rest with
    | error failure => simp [read, bind, Except.bind] at sound
    | ok result =>
      obtain ⟨right, behind⟩ := result
      simp only [read, bind, Except.bind] at sound
      cases sound
      have filled : rest.map image ≠ [] := by simpa using more
      rw [same, List.map_append, List.map_cons,
        tests_cons (echoes.isTest tested) ((echoes.connective joint).trans joins) filled, ih read]
      rfl

end Condition

def Opening.relocate (move : Position → Position) : Opening → Opening
  | .alternative condition first => .alternative condition (first.relocate move)
  | opening => opening

def Enclosure.relocate (move : Position → Position) (enclosure : Enclosure) : Enclosure :=
  ⟨enclosure.opening.relocate move, enclosure.position.map move, Node.relocateEach move enclosure.siblings⟩

theorem Opening.close_relocate (move : Position → Position) (opening : Opening) (position : Option Position) (body : Node) :
    (opening.close position body).relocate move =
        (opening.relocate move).close (position.map move) (body.relocate move) ∧
      (opening.close position body).isBlock = false := by
  cases opening <;> exact ⟨rfl, rfl⟩

/-- What becomes of a tag does not depend on where it stands, and it is the tree of a whole source. -/
def Placeless (inclusion : Inclusion) : Prop :=
  ∀ name position source tree, (inclusion name position source).result = .ok tree →
    tree.isBlock = true ∧ ∀ position' source', (inclusion name position' source').result = .ok tree

theorem placeless_expand (registry : Registry) (chain : List String) : Placeless (expand registry chain) := by
  intro name position source tree included
  obtain ⟨content, registered, fresh, parsed⟩ := expand_ok_iff.mp included
  obtain ⟨_, nodes, rfl, _⟩ := parse_ok.mp parsed
  exact ⟨rfl, fun position' source' => expand_ok_iff.mpr ⟨content, registered, fresh, parsed⟩⟩

namespace Draft
variable {inclusion : Inclusion} {source : String} {extent : Extent}

def relocate (move : Position → Position) (draft : Draft) : Draft :=
  ⟨Node.relocateEach move draft.nodes, draft.enclosures.map (Enclosure.relocate move)⟩

theorem relocate_push (move : Position → Position) (draft : Draft) (node : Node) : (draft.push node).relocate move =
    (draft.relocate move).push (if node.isBlock then node else node.relocate move) := by
  simp [relocate, push, Node.relocateEach_cons]

theorem Takes.shift (placeless : Placeless inclusion) {draft next : Draft} {token : Token}
    (taken : Takes inclusion source draft token next) :
    Takes inclusion source (draft.relocate extent.shift) (token.shift extent) (next.relocate extent.shift) := by
  cases taken with
  | text position content =>
    rw [relocate_push]
    exact .text _ content
  | «variable» position path =>
    rw [relocate_push]
    exact .variable _ path
  | inclusion included =>
    obtain ⟨block, anywhere⟩ := placeless _ _ _ _ included
    rw [relocate_push, block]
    exact .inclusion (anywhere _ _)
  | loop position iterable binding => exact .loop _ iterable binding
  | choice sound =>
    have echoes : Condition.Echoes (Expression.Piece.shift extent) := fun _ => ⟨rfl, rfl⟩
    exact .choice (echoes.ofPieces sound)
  | otherwise nodes siblings condition start position outer =>
    have same := Node.relocate_body extent.shift nodes
    simp only [relocate, Enclosure.relocate, Opening.relocate, List.map_cons, same]
    exact .otherwise _ _ condition _ _ _
  | close nodes siblings opening start position outer =>
    obtain ⟨same, loose⟩ := opening.close_relocate extent.shift start (.block nodes.reverse)
    rw [Node.relocate_body] at same
    simp only [relocate, Enclosure.relocate, List.map_cons, Node.relocateEach_cons, loose, same]
    exact .close _ _ (opening.relocate extent.shift) _ _ _

/-- The tokens of a source give the same tree behind another text, with the loops of the source at their new places. -/
theorem acceptAll_shift (extent : Extent) (placeless : Placeless inclusion) {draft final : Draft} {tokens : List Token}
    (taken : draft.acceptAll inclusion source tokens = .ok final) :
    (draft.relocate extent.shift).acceptAll inclusion source (tokens.map (Token.shift extent)) =
      .ok (final.relocate extent.shift) := by
  induction tokens generalizing draft with
  | nil =>
    cases taken
    rfl
  | cons token tokens ih =>
    obtain ⟨next, first, rest⟩ := acceptAll_cons_ok.mp taken
    exact acceptAll_cons_ok.mpr ⟨_, first.shift placeless, ih rest⟩

end Draft
end Stencil
