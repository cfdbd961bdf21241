import Mathlib
import Stencil.Proofs.DraftContext
import Stencil.Proofs.EquivalentTrees
import Stencil.Proofs.SourceTokens
import Stencil.Proofs.TreeRelocation
import Stencil.Template

/-! A partial may be written out where it is included. Its tokens balance among themselves, so they add the nodes of its
tree to whatever is open there; and what is included in it can be included with fewer partials above it as well. -/

namespace Stencil

/-- What the one gives somewhere, the other gives everywhere. -/
def Covers (wider narrower : Inclusion) : Prop :=
  ∀ name position source tree, (narrower name position source).result = .ok tree →
    ∀ position' source', (wider name position' source').result = .ok tree

namespace Draft
variable {wider narrower : Inclusion} {source : String} {draft next final : Draft}

theorem Takes.cover (covers : Covers wider narrower) {token : Token} (taken : Takes narrower source draft token next)
    (source' : String) : Takes wider source' draft token next := by
  cases taken with
  | text position content => exact .text position content
  | «variable» position path => exact .variable position path
  | inclusion included => exact .inclusion (covers _ _ _ _ included _ _)
  | loop position iterable binding => exact .loop position iterable binding
  | choice sound =>
    have echoes : Condition.Echoes id := fun _ => ⟨rfl, rfl⟩
    exact .choice (by simpa using echoes.ofPieces sound)
  | otherwise nodes siblings condition start position outer => exact .otherwise nodes siblings condition start position outer
  | close nodes siblings opening start position outer => exact .close nodes siblings opening start position outer

theorem acceptAll_cover (covers : Covers wider narrower) {tokens : List Token}
    (taken : draft.acceptAll narrower source tokens = .ok final) (source' : String) :
    draft.acceptAll wider source' tokens = .ok final := by
  induction tokens generalizing draft with
  | nil => exact taken
  | cons token tokens ih =>
    obtain ⟨next, first, rest⟩ := acceptAll_cons_ok.mp taken
    exact acceptAll_cons_ok.mpr ⟨next, first.cover covers source', ih rest⟩

end Draft

/-- With fewer partials being expanded, whatever was a tree stays that tree. -/
theorem covers_expand (registry : Registry) {chain longer : List String} (fewer : chain ⊆ longer) :
    Covers (expand registry chain) (expand registry longer) := by
  induction longer using registry.chain_induction generalizing chain with
  | step longer ih =>
    intro name position source tree included position' source'
    obtain ⟨content, registered, fresh, parsed⟩ := expand_ok_iff.mp included
    obtain ⟨sound, nodes, rfl, taken⟩ := parse_ok.mp parsed
    have inner := ih name content registered fresh (List.append_subset.mpr
      ⟨List.subset_append_of_subset_left _ fewer, List.subset_append_right ..⟩ : chain ++ [name] ⊆ longer ++ [name])
    refine expand_ok_iff.mpr ⟨content, registered, fun used => fresh (fewer used), ?_⟩
    exact parse_ok.mpr ⟨sound, nodes, rfl, Draft.acceptAll_cover inner taken name⟩

/-- The tokens of a partial in the place of its tag, and the tree that they make. -/
theorem parse_inlined {registry : Registry} {chain : List String} {source name : String} {front back : List Token}
    {place : Option Position} {tree : Node}
    (parsed : (parse registry chain source (front ++ ⟨place, .inclusion name⟩ :: back)).1.result = .ok tree) :
    ∃ content inlined ended flat, registry.find? name = some content ∧
      tokensFrom (.ofSource name content) = (inlined, none, ended) ∧
      (parse registry chain source (front ++ inlined ++ back)).1.result = .ok flat ∧
      tree.Equivalent flat := by
  obtain ⟨_, nodes, rfl, taken⟩ := parse_ok.mp parsed
  rw [TokenStream.drain_list] at taken
  obtain ⟨before, first, taken⟩ := Draft.acceptAll_append_ok.mp taken
  obtain ⟨between, included, rest⟩ := Draft.acceptAll_cons_ok.mp taken
  cases included with
  | inclusion included =>
    obtain ⟨content, registered, fresh, parsed⟩ := expand_ok_iff.mp included
    obtain ⟨sound, inner, rfl, alone⟩ := parse_ok.mp parsed
    -- With the partial no longer above them, its tokens do to the outer draft what they did to an empty one.
    have covers := covers_expand registry (List.subset_append_left chain [name])
    have written := Draft.acceptAll_balanced (Draft.acceptAll_cover covers alone source) before
    have same : (before.push (.block inner.reverse)).Equivalent ⟨inner ++ before.nodes, before.enclosures⟩ := by
      refine ⟨?_, List.forall₂_same.mpr fun enclosure _ => .refl enclosure⟩
      simpa [Draft.push] using (Node.EquivalentEach.refl before.nodes.reverse).append (.dissolve inner.reverse)
    obtain ⟨⟨flat, enclosures⟩, rest, texts, closed⟩ := Draft.acceptAll_equivalent rest same
    cases closed
    refine ⟨content, _, _, .block flat.reverse, registered, Prod.ext rfl (Prod.ext sound rfl), ?_, texts.block⟩
    refine parse_ok.mpr ⟨by simp, flat, rfl, ?_⟩
    rw [TokenStream.drain_list, List.append_assoc]
    exact Draft.acceptAll_append_ok.mpr ⟨before, first, Draft.acceptAll_append_ok.mpr ⟨_, written, rest⟩⟩

namespace Template

def RendersAlike (one two : Template) (data : Value) (session : Session) : Prop :=
  (∃ text after, one.render data session = .ok (.text text) after ∧ two.render data session = .ok (.text text) after) ∨
    ∃ path place after, one.render data session = .error (.notIterable path place) after ∧
      two.render data session = .error (.notIterable path place) after

/-- Tokens that parse with a tag for a partial among them parse with the tokens of the partial in its place, and render
alike. -/
theorem render_inlined {registry : Registry} {chain : List String} {source name : String} {front back : List Token}
    {place : Option Position} {tree : Node}
    (parsed : (parse registry chain source (front ++ ⟨place, .inclusion name⟩ :: back)).1.result = .ok tree) :
    ∃ content inlined ended flat, registry.find? name = some content ∧
      tokensFrom (.ofSource name content) = (inlined, none, ended) ∧
      (parse registry chain source (front ++ inlined ++ back)).1.result = .ok flat ∧
      ∀ globals data session, RendersAlike ⟨tree, registry, globals⟩ ⟨flat, registry, globals⟩ data session := by
  obtain ⟨content, inlined, ended, flat, registered, read, parsed', same⟩ := parse_inlined parsed
  refine ⟨content, inlined, ended, flat, registered, read, parsed', ?_⟩
  intro globals data session
  obtain ⟨_, nodes, rfl, _⟩ := parse_ok.mp parsed
  have agrees : render ⟨.block nodes.reverse, registry, globals⟩ data session =
      render ⟨flat, registry, globals⟩ data session := congrFun (same (.forRender data globals)) session
  unfold RendersAlike
  rw [← agrees]
  cases ran : render ⟨.block nodes.reverse, registry, globals⟩ data session with
  | ok value after =>
    obtain ⟨text, rfl, _⟩ := Node.evaluate_block_ok_iff.mp ran
    exact .inl ⟨text, after, rfl, rfl⟩
  | error failure after =>
    obtain ⟨_, path, place, rfl, _⟩ := Node.halts_of_error _ (formed_parse parsed) _ _ _ _ ran
    exact .inr ⟨path, place, after, rfl, rfl⟩

def opened : List Token :=
  [⟨some ⟨1, 0⟩, .loop "xs" "x"⟩, ⟨some ⟨1, 18⟩, .choice [⟨.identifier, "x", none⟩]⟩, ⟨none, .inclusion "p"⟩,
   ⟨none, .otherwise⟩, ⟨none, .close⟩, ⟨none, .close⟩]

def rows : String := "\x7b\x7bx\x7d\x7d\x7b% for y as z %\x7d\x7b% end %\x7d"

private theorem rows_read :
    Token.read? (.into "p" rows 0) = .ok (some ⟨some ⟨1, 0⟩, .variable "x"⟩) (.into "p" rows 5) ∧
      Token.read? (.into "p" rows 5) = .ok (some ⟨some ⟨1, 5⟩, .loop "y" "z"⟩) (.into "p" rows 21) ∧
      Token.read? (.into "p" rows 21) = .ok (some ⟨some ⟨1, 21⟩, .close⟩) (.into "p" rows 30) ∧
      Token.read? (.into "p" rows 30) = .ok none (.into "p" rows 30) := by
  refine ⟨?_, ?_, ?_, ?_⟩ <;> cbv

private theorem rows_tokens : tokensFrom (.into "p" rows 0) =
    ([⟨some ⟨1, 0⟩, .variable "x"⟩, ⟨some ⟨1, 5⟩, .loop "y" "z"⟩, ⟨some ⟨1, 21⟩, .close⟩], none,
      ⟨.into "p" rows 30, none⟩) := by
  obtain ⟨item, loop, close, ended⟩ := rows_read
  rw [tokensFrom_token item, tokensFrom_token loop, tokensFrom_token close, tokensFrom_done ended]

private theorem rows_included (source : String) : (expand ⟨[("p", rows)]⟩ [] "p" none source).result =
    .ok (.block [.variable "x", .loop "y" "z" (.block []) (some ⟨1, 5⟩)]) :=
  expand_ok_iff.mpr ⟨rows, rfl, List.not_mem_nil, parse_of_tokens rows_tokens rfl⟩

def openedTree : Node :=
  .block [.loop "xs" "x" (.block [.choice (.variable "x")
    (.block [.block [.variable "x", .loop "y" "z" (.block []) (some ⟨1, 5⟩)]]) (.block [])]) (some ⟨1, 0⟩)]

theorem render_inlined_opened : (parse ⟨[("p", rows)]⟩ [] rootName opened).1.result = .ok openedTree ∧
    ∃ content inlined ended flat, Registry.find? ⟨[("p", rows)]⟩ "p" = some content ∧
      tokensFrom (.ofSource "p" content) = (inlined, none, ended) ∧
      (parse ⟨[("p", rows)]⟩ [] rootName (opened.take 2 ++ inlined ++ opened.drop 3)).1.result = .ok flat ∧
      ∀ globals data session,
        RendersAlike ⟨openedTree, ⟨[("p", rows)]⟩, globals⟩ ⟨flat, ⟨[("p", rows)]⟩, globals⟩ data session := by
  have condition : Condition.ofPieces ⟨some ⟨1, 18⟩, rootName⟩ [⟨.identifier, "x", none⟩] = .ok (.variable "x") := by cbv
  have parsed : (parse ⟨[("p", rows)]⟩ [] rootName opened).1.result = .ok openedTree := by
    refine parse_ok.mpr ⟨by simp, [_], rfl, ?_⟩
    rw [TokenStream.drain_list]
    refine Draft.acceptAll_cons_ok.mpr ⟨_, .loop _ _ _, Draft.acceptAll_cons_ok.mpr ⟨_, .choice condition, ?_⟩⟩
    exact Draft.acceptAll_cons_ok.mpr ⟨_, .inclusion (rows_included rootName), rfl⟩
  have split : opened = opened.take 2 ++ ⟨none, .inclusion "p"⟩ :: opened.drop 3 := rfl
  rw [split] at parsed
  exact ⟨parsed, render_inlined parsed⟩

end Template
end Stencil
