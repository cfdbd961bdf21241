import Mathlib
import Stencil.Proofs.DraftContext
import Stencil.Proofs.RelocatedEvaluation
import Stencil.Proofs.TokenSeam

/-! Two sources in one. Unless a tag opens across the seam, the template of both renders what the template of the first and
then that of the second render on the same data, and fails where they do. -/

namespace Stencil

/-- The children of two trees side by side, where texts that meet are one. -/
inductive Meets : List Node → List Node → List Node → Prop
  | beside (first second : List Node) : Meets first second (first ++ second)
  | merged (front back : List Node) (before after : String) :
      Meets (front ++ [.text before]) (.text after :: back) (front ++ .text (before ++ after) :: back)

theorem Meets.evaluateEach {first second whole : List Node} (meets : Meets first second whole) (environment : Environment) :
    Node.evaluateEach environment whole = Node.evaluateEach environment (first ++ second) := by
  cases meets with
  | beside => rfl
  | merged front back before after =>
    rw [List.append_assoc, Node.evaluateEach_append, Node.evaluateEach_append]
    simp only [List.cons_append, List.nil_append, Node.evaluateEach, Node.text, Node.evaluate, pure_bind, bind_assoc,
      Value.plain, Text.points_append, List.append_assoc]

namespace Draft
variable {inclusion : Inclusion} {source : String}

private theorem flat_of_onto {before nodes : List Node} {draft : Draft} (flat : onto ⟨before, []⟩ draft = ⟨nodes, []⟩) :
    ∃ added, draft = ⟨added, []⟩ ∧ nodes = added ++ before := by
  obtain ⟨added, _ | ⟨enclosure, _ | ⟨next, outer⟩⟩⟩ := draft
  · cases flat
    exact ⟨added, rfl, rfl⟩
  · cases flat
  · cases flat

theorem acceptAll_joins {first second whole : List Token} {nodes nodes' : List Node} (joins : Joins first second whole)
    (one : empty.acceptAll inclusion source first = .ok ⟨nodes, []⟩)
    (two : empty.acceptAll inclusion source second = .ok ⟨nodes', []⟩) :
    ∃ all, empty.acceptAll inclusion source whole = .ok ⟨all, []⟩ ∧ Meets nodes.reverse nodes'.reverse all.reverse := by
  cases joins with
  | beside =>
    refine ⟨nodes' ++ nodes, acceptAll_append_ok.mpr ⟨_, one, acceptAll_balanced two ⟨nodes, []⟩⟩, ?_⟩
    rw [List.reverse_append]
    exact .beside _ _
  | merged front back place place' before after =>
    obtain ⟨⟨start, around⟩, taken, last⟩ := acceptAll_append_ok.mp one
    obtain ⟨next, pushed, done⟩ := acceptAll_cons_ok.mp last
    cases done
    cases accept_ok_iff.mpr pushed
    obtain ⟨next, pushed', rest⟩ := acceptAll_cons_ok.mp two
    cases accept_ok_iff.mpr pushed'
    -- The text at the head of the second lies at the bottom of its draft, so the rest is complete without it.
    obtain ⟨added, alone, rfl⟩ : ∃ added, empty.acceptAll inclusion source back = .ok ⟨added, []⟩ ∧
        nodes' = added ++ [.text after] := by
      have flat : (onto ⟨[.text after], []⟩ empty).acceptAll inclusion source back = .ok ⟨nodes', []⟩ := rest
      rw [acceptAll_flat] at flat
      cases done : empty.acceptAll inclusion source back with
      | error failure =>
        rw [done] at flat
        cases flat
      | ok draft =>
        rw [done] at flat
        obtain ⟨added, rfl, split⟩ := flat_of_onto (Except.ok.inj flat)
        exact ⟨added, rfl, split⟩
    refine ⟨added ++ .text (before ++ after) :: start, ?_, ?_⟩
    · refine acceptAll_append_ok.mpr ⟨_, taken, acceptAll_cons_ok.mpr ⟨_, .text _ _, ?_⟩⟩
      exact acceptAll_balanced alone ⟨_, []⟩
    · have meets := Meets.merged start.reverse added.reverse before after
      simpa [push] using meets

end Draft

theorem parse_append {registry : Registry} {chain : List String} {source first second : String}
    {children children' : List Node} (apart : ¬ OpensAcross first.toList second.toList)
    (parsed : (parse registry chain source (Lexer.ofSource source first)).1.result = .ok (.block children))
    (parsed' : (parse registry chain source (Lexer.ofSource source second)).1.result = .ok (.block children')) :
    ∃ whole, (parse registry chain source (Lexer.ofSource source (first ++ second))).1.result = .ok (.block whole) ∧
      Meets children (Node.relocateEach (Extent.of first.toList).shift children') whole := by
  obtain ⟨sound, nodes, same, taken⟩ := parse_ok.mp parsed
  obtain ⟨sound', nodes', same', taken'⟩ := parse_ok.mp parsed'
  cases same
  cases same'
  obtain ⟨joins, fault⟩ := tokensFrom_append apart sound sound'
  have moved := Draft.acceptAll_shift (.of first.toList) (placeless_expand registry chain) taken'
  obtain ⟨all, done, meets⟩ := Draft.acceptAll_joins joins taken moved
  rw [← Node.relocateEach_reverse] at meets
  exact ⟨all.reverse, parse_ok.mpr ⟨fault, all, rfl, done⟩, meets⟩

namespace Template

/-- Rendering the whole comes to rendering one template and then the other on the same data: to both texts, to the failure
of the first, or to that of the second, further on by an extent unless a partial holds the loop it is about. -/
def RendersBoth (extent : Extent) (one two whole : Template) (data : Value) (session : Session) : Prop :=
  match one.render data session with
  | .error failure after =>
    (∃ path place, failure = .notIterable path place) ∧ whole.render data session = .error failure after
  | .ok output middle => ∃ text, output = .text text ∧
    match two.render data middle with
    | .error failure after => ∃ within path place, failure = .notIterable path place ∧
        two.root.StopsAt (.forRender data two.globals) middle within path place after ∧
        whole.render data session = .error (.notIterable path (if within then place else place.map extent.shift)) after
    | .ok more after => ∃ text', more = .text text' ∧ whole.render data session = .ok (.text (text ++ text')) after

/-- Two sources that compile, and across whose seam no tag opens, compile as one and render as both. -/
theorem render_append {first second : String} {partials : Registry} {globals : Value} {one two : Template}
    (compiled : (compile first partials globals).result = .ok one)
    (compiled' : (compile second partials globals).result = .ok two) (apart : ¬ OpensAcross first.toList second.toList) :
    ∃ whole, (compile (first ++ second) partials globals).result = .ok whole ∧
      ∀ data session, RendersBoth (.of first.toList) one two whole data session := by
  obtain ⟨children, parsed, rfl⟩ := compile_ok_iff.mp compiled
  obtain ⟨children', parsed', rfl⟩ := compile_ok_iff.mp compiled'
  obtain ⟨all, parsedAll, meets⟩ := parse_append apart parsed parsed'
  refine ⟨_, compile_ok_iff.mpr ⟨all, parsedAll, rfl⟩, ?_⟩
  intro data session
  have both := (meets.evaluateEach (.forRender data globals)).trans (Node.evaluateEach_append _ _ _)
  unfold RendersBoth
  simp only [render]
  cases ran : Node.evaluate (.forRender data globals) (.block children) session with
  | error failure after =>
    obtain ⟨_, path, place, same, _⟩ := Node.halts_of_error _ (formed_parse parsed) _ _ _ _ ran
    refine ⟨⟨path, place, same⟩, Node.evaluate_block_error_iff.mpr ?_⟩
    rw [both, Evaluating.then_error_iff]
    exact .inl (Node.evaluate_block_error_iff.mp ran)
  | ok output middle =>
    obtain ⟨text, rfl, one⟩ := Node.evaluate_block_ok_iff.mp ran
    refine ⟨text, rfl, ?_⟩
    cases ran' : Node.evaluate (.forRender data globals) (.block children') middle with
    | error failure after =>
      obtain ⟨within, path, place, rfl, stops⟩ := Node.halts_of_error _ (formed_parse parsed') _ _ _ _ ran'
      refine ⟨within, path, place, rfl, stops, Node.evaluate_block_error_iff.mpr ?_⟩
      have moved := (stops.relocate (Extent.of first.toList).shift).fails
      rw [Node.relocate] at moved
      rw [both, Evaluating.then_error_iff]
      exact .inr ⟨text, middle, one, Evaluating.then_error_iff.mpr (.inl (Node.evaluate_block_error_iff.mp moved))⟩
    | ok more after =>
      obtain ⟨text', rfl, two⟩ := Node.evaluate_block_ok_iff.mp ran'
      refine ⟨text', rfl, Node.evaluate_block_ok_iff.mpr ⟨_, rfl, ?_⟩⟩
      rw [both, Evaluating.then_ok_iff]
      exact ⟨text, middle, one, Evaluating.then_ok_iff.mpr
        ⟨text', after, Node.evaluateEach_relocate _ children' _ _ _ _ two, rfl⟩⟩

def heading : String := "a\x7b\x7bx\x7d\x7d\nb"

def listing : String := "c\x7b% for y as z %\x7d\x7b\x7bz\x7d\x7d\x7b% end %\x7d"

private theorem heading_parsed : (parse .empty [] rootName (Lexer.ofSource rootName heading)).1.result =
    .ok (.block [.text "a", .variable "x", .text "\nb"]) := by cbv

private abbrev listingAt (count : Nat) : Cursor := Cursor.forwardBy count (.ofSource rootName listing)

private theorem listing_read :
    Token.read? (listingAt 0) = .ok (some ⟨some ⟨1, 0⟩, .text "c"⟩) (listingAt 1) ∧
      Token.read? (listingAt 1) = .ok (some ⟨some ⟨1, 1⟩, .loop "y" "z"⟩) (listingAt 17) ∧
      Token.read? (listingAt 17) = .ok (some ⟨some ⟨1, 17⟩, .variable "z"⟩) (listingAt 22) ∧
      Token.read? (listingAt 22) = .ok (some ⟨some ⟨1, 22⟩, .close⟩) (listingAt 31) ∧
      Token.read? (listingAt 31) = .ok none (listingAt 31) := by
  refine ⟨?_, ?_, ?_, ?_, ?_⟩ <;> cbv

private theorem listing_tokens : tokensFrom (listingAt 0) =
    ([⟨some ⟨1, 0⟩, .text "c"⟩, ⟨some ⟨1, 1⟩, .loop "y" "z"⟩, ⟨some ⟨1, 17⟩, .variable "z"⟩, ⟨some ⟨1, 22⟩, .close⟩], none,
      ⟨listingAt 31, none⟩) := by
  obtain ⟨text, loop, item, close, ended⟩ := listing_read
  rw [tokensFrom_token text, tokensFrom_token loop, tokensFrom_token item, tokensFrom_token close, tokensFrom_done ended]

private theorem listing_parsed : (parse .empty [] rootName (Lexer.ofSource rootName listing)).1.result =
    .ok (.block [.text "c", .loop "y" "z" (.block [.variable "z"]) (some ⟨1, 1⟩)]) := parse_of_tokens listing_tokens rfl

theorem render_append_listing : ∃ one two,
    (compile heading .empty (.dict [])).result = .ok one ∧ (compile listing .empty (.dict [])).result = .ok two ∧
      ¬ OpensAcross heading.toList listing.toList ∧
      ∃ whole, (compile (heading ++ listing) .empty (.dict [])).result = .ok whole ∧ ∀ session,
        whole.render (.dict [(.text "y", .list [.text "d", .text "e"])]) session =
          .ok (.text "a\nbcde") (session.record (.finished "y" 2)) := by
  have one : (compile heading .empty (.dict [])).result = .ok _ := compile_ok_iff.mpr ⟨_, heading_parsed, rfl⟩
  have two : (compile listing .empty (.dict [])).result = .ok _ := compile_ok_iff.mpr ⟨_, listing_parsed, rfl⟩
  have apart : ¬ OpensAcross heading.toList listing.toList := by simp [OpensAcross, heading]
  obtain ⟨whole, compiled, both⟩ := render_append one two apart
  refine ⟨_, _, one, two, apart, whole, compiled, ?_⟩
  intro session
  obtain ⟨text, same, text', same', rendered⟩ := both (.dict [(.text "y", .list [.text "d", .text "e"])]) session
  cases same
  cases same'
  exact rendered

end Template
end Stencil
