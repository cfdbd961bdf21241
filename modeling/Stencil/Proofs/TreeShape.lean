import Stencil.Proofs.ConditionTests
import Stencil.Proofs.TokenRun

/-! The shape of trees that are made from tokens. Side by side stand texts, variables, partials, loops and choices; the
parts of loops and choices are blocks; what decides a choice holds only constants and variables. -/

namespace Stencil

namespace Node

def isBlock : Node → Bool
  | .block _ => true
  | _ => false

/-- The node is a condition: operators over constants and variables. -/
def Decides : Node → Prop
  | .constant _ _ | .variable _ => True
  | .binary _ left right => left.Decides ∧ right.Decides
  | _ => False

mutual
/-- The node stands in its place as the tags of some source would put it. -/
def Formed : Node → Prop
  | .block children => FormedEach children
  | .constant .text (.text _) => True
  | .variable _ => True
  | .loop _ _ (.block children) _ => FormedEach children
  | .choice condition (.block first) (.block second) => condition.Decides ∧ FormedEach first ∧ FormedEach second
  | _ => False

def FormedEach : List Node → Prop
  | [] => True
  | child :: children => child.Formed ∧ FormedEach children
end

theorem formedEach_iff {children : List Node} : FormedEach children ↔ ∀ child ∈ children, child.Formed := by
  induction children with
  | nil => simp [FormedEach]
  | cons child children ih => simp [FormedEach, ih]

end Node

namespace Condition
variable {site : Site}

private theorem decides_of_valueOf {piece : Expression.Piece} {node : Node} (read : valueOf site piece = .ok node) :
    node.Decides := by
  unfold valueOf at read
  split at read
  · split at read <;> cases read <;> trivial
  · cases read
    trivial
  · split at read <;> cases read
    trivial
  · cases read

private theorem decides_of_isTest {pieces : List Expression.Piece} {node : Node} (tested : IsTest site pieces node) :
    node.Decides := by
  cases tested with
  | value read => exact decides_of_valueOf read
  | comparison read compares other => exact ⟨decides_of_valueOf read, decides_of_valueOf other⟩
  | existence read plain exists_ => exact ⟨decides_of_valueOf read, trivial⟩

theorem decides_of_ofPieces {pieces : List Expression.Piece} {node : Node} (sound : ofPieces site pieces = .ok node) :
    node.Decides := by
  rw [ofPieces_ok_iff] at sound
  fun_induction tests site pieces generalizing node with
  | case1 => cases sound
  | case2 pieces left taken =>
    cases sound
    obtain ⟨_, _, tested, _⟩ := isTest_of_test taken
    exact decides_of_isTest tested
  | case3 => simp [Site.failAt] at sound
  | case4 => simp [Site.failAt] at sound
  | case5 pieces left joint rest taken operator joins more ih =>
    obtain ⟨_, _, tested, _⟩ := isTest_of_test taken
    cases read : tests site rest with
    | error failure => simp [read, bind, Except.bind] at sound
    | ok result =>
      obtain ⟨right, behind⟩ := result
      simp only [read, bind, Except.bind] at sound
      cases sound
      exact ⟨decides_of_isTest tested, ih read⟩

end Condition

def Opening.Formed : Opening → Prop
  | .loop _ _ => True
  | .consequence condition => condition.Decides
  | .alternative condition first => condition.Decides ∧ ∃ children, first = .block children ∧ Node.FormedEach children

theorem Opening.Formed.close {opening : Opening} (formed : opening.Formed) (position : Option Position)
    {children : List Node} (filled : Node.FormedEach children) : (opening.close position (.block children)).Formed := by
  cases opening with
  | loop iterable binding => exact filled
  | consequence condition => exact ⟨formed, filled, trivial⟩
  | alternative condition first =>
    obtain ⟨decides, children, rfl, held⟩ := formed
    exact ⟨decides, held, filled⟩

structure Draft.Formed (draft : Draft) : Prop where
  nodes : ∀ node ∈ draft.nodes, node.Formed
  enclosures : ∀ enclosure ∈ draft.enclosures, enclosure.opening.Formed ∧ ∀ node ∈ enclosure.siblings, node.Formed

namespace Draft.Formed
variable {inclusion : Inclusion} {source : String} {draft next final : Draft} {token : Token}

theorem push (formed : draft.Formed) {node : Node} (shaped : node.Formed) : (draft.push node).Formed :=
  ⟨List.forall_mem_cons.mpr ⟨shaped, formed.nodes⟩, formed.enclosures⟩

theorem enter (formed : draft.Formed) (opening : Opening) (position : Option Position) (shaped : opening.Formed) :
    (draft.enter opening position).Formed :=
  ⟨by simp [Draft.enter], List.forall_mem_cons.mpr ⟨⟨shaped, formed.nodes⟩, formed.enclosures⟩⟩

theorem takes (formed : draft.Formed) (taken : Takes inclusion source draft token next)
    (whole : ∀ name position tree, (inclusion name position source).result = .ok tree → tree.Formed) : next.Formed := by
  cases taken with
  | text position content => exact formed.push trivial
  | «variable» position path => exact formed.push trivial
  | inclusion included => exact formed.push (whole _ _ _ included)
  | loop position iterable binding => exact formed.enter (.loop iterable binding) position trivial
  | choice sound => exact formed.enter (.consequence _) _ (Condition.decides_of_ofPieces sound)
  | otherwise nodes siblings condition start position outer =>
    obtain ⟨⟨decides, before⟩, around⟩ := List.forall_mem_cons.mp formed.enclosures
    have first : Node.FormedEach nodes.reverse := Node.formedEach_iff.mpr (by simpa using formed.nodes)
    exact ⟨by simp, List.forall_mem_cons.mpr ⟨⟨⟨decides, _, rfl, first⟩, before⟩, around⟩⟩
  | close nodes siblings opening start position outer =>
    obtain ⟨⟨shaped, before⟩, around⟩ := List.forall_mem_cons.mp formed.enclosures
    have body : Node.FormedEach nodes.reverse := Node.formedEach_iff.mpr (by simpa using formed.nodes)
    exact ⟨List.forall_mem_cons.mpr ⟨shaped.close start body, before⟩, around⟩

theorem acceptAll (formed : draft.Formed) {tokens : List Token}
    (whole : ∀ name position tree, (inclusion name position source).result = .ok tree → tree.Formed)
    (taken : draft.acceptAll inclusion source tokens = .ok final) : final.Formed := by
  induction tokens generalizing draft with
  | nil =>
    cases taken
    exact formed
  | cons token tokens ih =>
    obtain ⟨next, first, rest⟩ := acceptAll_cons_ok.mp taken
    exact ih (formed.takes first whole) rest

end Draft.Formed

/-- Every tree that is parsed, with the partials in it, is in shape. -/
theorem formed_parse {σ : Type} [TokenStream σ] {registry : Registry} {chain : List String} {source : String} {stream : σ}
    {tree : Node} (parsed : (parse registry chain source stream).1.result = .ok tree) : tree.Formed := by
  induction chain using registry.chain_induction generalizing σ source stream tree with
  | step chain ih =>
    obtain ⟨_, nodes, rfl, taken⟩ := parse_ok.mp parsed
    have whole (name : String) (position : Option Position) (tree : Node)
        (included : (expand registry chain name position source).result = .ok tree) : tree.Formed := by
      obtain ⟨content, registered, fresh, inner⟩ := expand_ok_iff.mp included
      exact ih name content registered fresh inner
    have formed := Draft.Formed.acceptAll ⟨by simp [Draft.empty], by simp [Draft.empty]⟩ whole taken
    exact Node.formedEach_iff.mpr (by simpa using formed.nodes)

end Stencil
