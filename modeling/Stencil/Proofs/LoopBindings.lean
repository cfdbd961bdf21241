import Stencil.Proofs.TagSpelling
import Stencil.Proofs.TreeShape

/-! The names that loops bind. Each was read in a tag, where it may hold no point, and goes into the tree as it was read, also
from a partial. -/

namespace Stencil
open Text Scan

namespace Node

mutual
/-- The names that the loops of the tree bind. -/
def bindings : Node → List String
  | .block children => bindingsEach children
  | .constant _ _ | .variable _ | .stray _ => []
  | .binary _ left right => left.bindings ++ right.bindings
  | .loop _ binding body _ => binding :: body.bindings
  | .choice condition consequence alternative => condition.bindings ++ (consequence.bindings ++ alternative.bindings)

def bindingsEach : List Node → List String
  | [] => []
  | child :: children => child.bindings ++ bindingsEach children
end

theorem mem_bindingsEach {children : List Node} {name : String} :
    name ∈ bindingsEach children ↔ ∃ child ∈ children, name ∈ child.bindings := by
  induction children with
  | nil => simp [bindingsEach]
  | cons child children ih => simp [bindingsEach, ih]

theorem bindings_of_decides : {condition : Node} → condition.Decides → condition.bindings = []
  | .constant _ _, _ | .variable _, _ => rfl
  | .binary _ left right, decides => by
    rw [bindings, bindings_of_decides decides.1, bindings_of_decides decides.2]
    rfl

end Node

namespace Token

/-- A name that is a whole path, of one segment. -/
def Plain (name : String) : Prop := name ≠ "" ∧ '.' ∉ name.toList

def Form.binding? : Form → Option String
  | .loop _ binding => some binding
  | _ => none

private theorem gives_readBinding : Gives readBinding Plain := by
  refine (gives_readWhile isBindingChar).bind ?_
  intro name kept
  apply Gives.after
  intro cursor
  split
  · exact gives_unexpected _ _
  next sound =>
    apply gives_pure
    refine ⟨?_, ?_⟩
    · intro empty
      simp [empty] at sound
    · intro point
      exact absurd (kept '.' point) (by decide)

private theorem gives_readLoop_plain : Gives readLoop fun form => ∀ name ∈ form.binding?, Plain name := by
  apply Gives.after
  intro _
  apply Gives.after
  intro iterable
  split
  · exact gives_unexpected _ _
  apply Gives.after
  intro _
  apply Gives.after
  intro _
  apply Gives.after
  intro _
  split
  · apply Gives.after
    intro _
    refine gives_readBinding.bind fun binding plain => ?_
    apply Gives.after
    intro _
    apply Gives.after
    intro _
    apply gives_pure
    simpa [Form.binding?] using plain
  · exact gives_unexpected _ _

theorem plain_of_mem_tokensFrom {cursor : Cursor} {token : Token} (member : token ∈ (tokensFrom cursor).1) :
    ∀ name ∈ token.form.binding?, Plain name := by
  intro name binds
  obtain ⟨there, after, _, read⟩ := read_of_mem_tokensFrom member
  obtain ⟨position, form⟩ := token
  cases form with
  | loop iterable binding =>
    obtain ⟨_, _, same, formed⟩ := read_some read
    cases same
    obtain ⟨inner, _, taken, _⟩ := control_of_readForm formed rfl
    exact gives_readLoop_plain inner _ after taken name binds
  | _ => cases binds

end Token

def Opening.bindings : Opening → List String
  | .loop _ binding => [binding]
  | .consequence condition => condition.bindings
  | .alternative condition first => condition.bindings ++ first.bindings

theorem Opening.mem_bindings_close {opening : Opening} {position : Option Position} {children : List Node} {name : String} :
    name ∈ (opening.close position (.block children)).bindings ↔
      name ∈ opening.bindings ∨ name ∈ Node.bindingsEach children := by
  cases opening <;> simp [close, bindings, Node.bindings, Node.emptyBlock, Node.bindingsEach, or_assoc]

namespace Draft
variable {inclusion : Inclusion} {source : String} {draft next final : Draft} {token : Token}

/-- Every loop in the draft, open or not, binds such a name. -/
structure Binds (plain : String → Prop) (draft : Draft) : Prop where
  nodes : ∀ node ∈ draft.nodes, ∀ name ∈ node.bindings, plain name
  enclosures : ∀ enclosure ∈ draft.enclosures, (∀ name ∈ enclosure.opening.bindings, plain name) ∧
    ∀ node ∈ enclosure.siblings, ∀ name ∈ node.bindings, plain name

namespace Binds
variable {plain : String → Prop}

theorem body (binds : draft.Binds plain) : ∀ name ∈ Node.bindingsEach draft.nodes.reverse, plain name := by
  intro name member
  obtain ⟨node, inside, member⟩ := Node.mem_bindingsEach.mp member
  exact binds.nodes node (List.mem_reverse.mp inside) name member

theorem push (binds : draft.Binds plain) {node : Node} (sound : ∀ name ∈ node.bindings, plain name) :
    (draft.push node).Binds plain :=
  ⟨List.forall_mem_cons.mpr ⟨sound, binds.nodes⟩, binds.enclosures⟩

theorem enter (binds : draft.Binds plain) (opening : Opening) (position : Option Position)
    (sound : ∀ name ∈ opening.bindings, plain name) : (draft.enter opening position).Binds plain :=
  ⟨by simp [Draft.enter], List.forall_mem_cons.mpr ⟨⟨sound, binds.nodes⟩, binds.enclosures⟩⟩

theorem takes (binds : draft.Binds plain) (taken : Takes inclusion source draft token next)
    (own : ∀ name ∈ token.form.binding?, plain name)
    (whole : ∀ name position tree, (inclusion name position source).result = .ok tree → ∀ name ∈ tree.bindings, plain name) :
    next.Binds plain := by
  cases taken with
  | text position content => exact binds.push (by simp [Node.text, Node.bindings])
  | «variable» position path => exact binds.push (by simp [Node.bindings])
  | inclusion included => exact binds.push (whole _ _ _ included)
  | loop position iterable binding =>
    exact binds.enter _ position (List.forall_mem_singleton.mpr (own binding rfl))
  | @choice _ _ _ condition sound =>
    have loopless : condition.bindings = [] := Node.bindings_of_decides (Condition.decides_of_ofPieces sound)
    exact binds.enter _ _ (by simp [Opening.bindings, loopless])
  | otherwise nodes siblings condition start position outer =>
    obtain ⟨⟨decides, before⟩, around⟩ := List.forall_mem_cons.mp binds.enclosures
    exact ⟨by simp, List.forall_mem_cons.mpr ⟨⟨List.forall_mem_append.mpr ⟨decides, binds.body⟩, before⟩, around⟩⟩
  | close nodes siblings opening start position outer =>
    obtain ⟨⟨opened, before⟩, around⟩ := List.forall_mem_cons.mp binds.enclosures
    refine ⟨List.forall_mem_cons.mpr ⟨?_, before⟩, around⟩
    intro name member
    exact (Opening.mem_bindings_close.mp member).elim (opened name) (binds.body name)

theorem acceptAll (binds : draft.Binds plain) {tokens : List Token} (own : ∀ token ∈ tokens, ∀ name ∈ token.form.binding?, plain name)
    (whole : ∀ name position tree, (inclusion name position source).result = .ok tree → ∀ name ∈ tree.bindings, plain name)
    (taken : draft.acceptAll inclusion source tokens = .ok final) : final.Binds plain := by
  induction tokens generalizing draft with
  | nil =>
    cases taken
    exact binds
  | cons token tokens ih =>
    obtain ⟨next, first, rest⟩ := acceptAll_cons_ok.mp taken
    obtain ⟨mine, others⟩ := List.forall_mem_cons.mp own
    exact ih (binds.takes first mine whole) others rest

end Binds
end Draft

/-- Every loop in a tree that is parsed from a source, or from a partial in it, binds a plain name. -/
theorem plain_bindings_of_parse {registry : Registry} {chain : List String} {source content : String} {tree : Node}
    (parsed : (parse registry chain source (Lexer.ofSource source content)).1.result = .ok tree) :
    ∀ name ∈ tree.bindings, Token.Plain name := by
  induction chain using registry.chain_induction generalizing source content tree with
  | step chain ih =>
    obtain ⟨_, nodes, rfl, taken⟩ := parse_ok.mp parsed
    have whole (name : String) (position : Option Position) (tree : Node)
        (included : (expand registry chain name position source).result = .ok tree) : ∀ name ∈ tree.bindings, Token.Plain name := by
      obtain ⟨inner, registered, fresh, within⟩ := expand_ok_iff.mp included
      exact ih name inner registered fresh within
    have read (token : Token) (member : token ∈ (TokenStream.drain (Lexer.ofSource source content)).1) :
        ∀ name ∈ token.form.binding?, Token.Plain name := Token.plain_of_mem_tokensFrom member
    have blank : Draft.empty.Binds Token.Plain := ⟨by simp [Draft.empty], by simp [Draft.empty]⟩
    exact (blank.acceptAll read whole taken).body

end Stencil
