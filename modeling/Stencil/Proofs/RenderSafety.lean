import Mathlib
import Stencil.Proofs.EvaluationReach
import Stencil.Proofs.SourceExtent
import Stencil.Proofs.SourceTokens

/-! What can come of rendering a template that was compiled, whatever the data. Its tree is in shape, so each round of a loop
gives a text and whatever is met is a node; all that can go wrong is that a loop is to go over something without items. -/

namespace Stencil.Template

/-- A template renders to a text, or it comes to a loop over something that holds no items and fails there. -/
theorem render_safe {content : String} {partials : Registry} {globals : Value} {template : Template}
    (compiled : (compile content partials globals).result = .ok template) (data : Value) (session : Session) :
    (∃ text after, template.render data session = .ok (.text text) after) ∨
      ∃ within path place after, template.root.StopsAt (.forRender data globals) session within path place after ∧
        template.render data session = .error (.notIterable path place) after := by
  obtain ⟨children, parsed, rfl⟩ := compile_ok_iff.mp compiled
  simp only [render]
  cases ran : Node.evaluate (.forRender data globals) (.block children) session with
  | ok output after =>
    obtain ⟨text, rfl, _⟩ := Node.evaluate_block_ok_iff.mp ran
    exact .inl ⟨text, after, rfl⟩
  | error failure after =>
    obtain ⟨within, path, place, rfl, stops⟩ := Node.halts_of_error _ (formed_parse parsed) _ _ _ _ ran
    exact .inr ⟨within, path, place, after, stops, rfl⟩

def roster : String := "a\x7b% for xs as x %\x7d\x7b% end %\x7d"

private theorem roster_read :
    Token.read? (.into rootName roster 0) = .ok (some ⟨some ⟨1, 0⟩, .text "a"⟩) (.into rootName roster 1) ∧
      Token.read? (.into rootName roster 1) = .ok (some ⟨some ⟨1, 1⟩, .loop "xs" "x"⟩) (.into rootName roster 18) ∧
      Token.read? (.into rootName roster 18) = .ok (some ⟨some ⟨1, 18⟩, .close⟩) (.into rootName roster 27) ∧
      Token.read? (.into rootName roster 27) = .ok none (.into rootName roster 27) := by
  refine ⟨?_, ?_, ?_, ?_⟩ <;> cbv

private theorem roster_tokens : tokensFrom (.into rootName roster 0) =
    ([⟨some ⟨1, 0⟩, .text "a"⟩, ⟨some ⟨1, 1⟩, .loop "xs" "x"⟩, ⟨some ⟨1, 18⟩, .close⟩], none,
      ⟨.into rootName roster 27, none⟩) := by
  obtain ⟨text, loop, close, ended⟩ := roster_read
  rw [tokensFrom_token text, tokensFrom_token loop, tokensFrom_token close, tokensFrom_done ended]

private theorem roster_parsed : (parse .empty [] rootName (Lexer.ofSource rootName roster)).1.result =
    .ok (.block [.text "a", .loop "xs" "x" (.block []) (some ⟨1, 1⟩)]) := parse_of_tokens roster_tokens rfl

/-- A text holds no items, though it has characters. -/
theorem render_safe_roster : ∃ template, (compile roster .empty (.dict [])).result = .ok template ∧ ∀ session,
    ∃ within path place after,
      template.root.StopsAt (.forRender (.dict [(.text "xs", .text "bc")]) (.dict [])) session within path place after ∧
        template.render (.dict [(.text "xs", .text "bc")]) session = .error (.notIterable path place) after := by
  have compiled : (compile roster .empty (.dict [])).result = .ok _ := compile_ok_iff.mpr ⟨_, roster_parsed, rfl⟩
  refine ⟨_, compiled, ?_⟩
  intro session
  rcases render_safe compiled (.dict [(.text "xs", .text "bc")]) session with ⟨text, after, done⟩ | stopped
  · cases done
  · exact stopped

end Stencil.Template
