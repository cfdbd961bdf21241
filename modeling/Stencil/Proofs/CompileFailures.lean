import Mathlib
import Stencil.Proofs.ConditionTests
import Stencil.Proofs.SourceTokens

/-! What can come of compiling besides a template. A fault in a source is diagnosed, with one exception: digits are read as
a number whatever system they belong to, and a number with a digit outside the systems of ten has no value. Compiling fails
over such a number exactly if it is met before any other fault. -/

namespace Stencil
open Text Number
open Template (compile_error_iff)

namespace CompileFailures

def closing : Token := ⟨none, .close⟩

/-- Tokens that `end` tags complete to a whole source. -/
def Completable (registry : Registry) (chain : List String) (source : String) (tokens : List Token) : Prop :=
  ∃ count tree, (parse registry chain source (tokens ++ List.replicate count closing)).1.result = .ok tree

/-- A number with a digit outside the systems of ten, in a condition that is sound up to there. -/
def Breaks (site : Condition.Site) (text : String) (pieces : List Expression.Piece) : Prop :=
  ∃ before piece after, pieces = before ++ piece :: after ∧ piece.kind = .number ∧ piece.value = text ∧
    (∃ c ∈ text.toList, isDigit c = true ∧ decimalValue? c = none) ∧
    ∃ node, Condition.ofPieces site (before ++ [Condition.anyName]) = .ok node

/-- Such a number is met in a source, in its own text or in a partial, before anything else is wrong. -/
inductive Meets (registry : Registry) (text : String) : List String → String → String → Prop
  | here {chain : List String} {source content : String} {before after : List Token} {token : Token}
      {pieces : List Expression.Piece}
      (read : (tokensFrom (.ofSource source content)).1 = before ++ token :: after)
      (sound : Completable registry chain source before) (tag : token.form = .choice pieces)
      (breaks : Breaks ⟨token.position, source⟩ text pieces) : Meets registry text chain source content
  | within {chain : List String} {source content name inner : String} {before after : List Token} {token : Token}
      (read : (tokensFrom (.ofSource source content)).1 = before ++ token :: after)
      (sound : Completable registry chain source before) (tag : token.form = .inclusion name)
      (registered : registry.find? name = some inner) (fresh : name ∉ chain)
      (met : Meets registry text (chain ++ [name]) name inner) : Meets registry text chain source content

private theorem close_all (inclusion : Inclusion) (source : String) (draft : Draft) :
    ∃ nodes, draft.acceptAll inclusion source (List.replicate draft.enclosures.length closing) = .ok ⟨nodes, []⟩ := by
  obtain ⟨nodes, enclosures⟩ := draft
  induction enclosures generalizing nodes with
  | nil => exact ⟨nodes, rfl⟩
  | cons enclosure outer ih =>
    obtain ⟨opening, start, siblings⟩ := enclosure
    obtain ⟨final, closed⟩ := ih (opening.close start (.block nodes.reverse) :: siblings)
    exact ⟨final, Draft.acceptAll_cons_ok.mpr ⟨_, .close nodes siblings opening start none outer, closed⟩⟩

theorem completable_iff {registry : Registry} {chain : List String} {source : String} {tokens : List Token} :
    Completable registry chain source tokens ↔
      ∃ draft, Draft.empty.acceptAll (expand registry chain) source tokens = .ok draft := by
  constructor
  · intro ⟨count, tree, parsed⟩
    obtain ⟨_, nodes, _, taken⟩ := parse_ok.mp parsed
    rw [TokenStream.drain_list] at taken
    obtain ⟨draft, taken, _⟩ := Draft.acceptAll_append_ok.mp taken
    exact ⟨draft, taken⟩
  · intro ⟨draft, taken⟩
    obtain ⟨nodes, closed⟩ := close_all (expand registry chain) source draft
    refine ⟨draft.enclosures.length, .block nodes.reverse, parse_ok.mpr ⟨by simp, nodes, rfl, ?_⟩⟩
    rw [TokenStream.drain_list]
    exact Draft.acceptAll_append_ok.mpr ⟨draft, taken, closed⟩

private theorem parse_silent {registry : Registry} {chain : List String} {source content : String}
    {failure : CompileFailure} (silent : Condition.Silent failure) :
    (parse registry chain source (Lexer.ofSource source content)).1.result = .error failure ↔
      ∃ before token after draft, (tokensFrom (.ofSource source content)).1 = before ++ token :: after ∧
        Draft.empty.acceptAll (expand registry chain) source before = .ok draft ∧
        (draft.accept (expand registry chain) source token).result = .error failure := by
  rw [parse_error, or_iff_left]
  · rfl
  intro ⟨draft, _, failed⟩
  cases fault : (TokenStream.drain (Lexer.ofSource source content)).2.1 with
  | some diagnostic =>
    rw [fault] at failed
    cases failed
    exact silent diagnostic rfl
  | none =>
    rw [fault] at failed
    obtain ⟨nodes, enclosures⟩ := draft
    cases enclosures with
    | nil => cases failed
    | cons enclosure outer =>
      cases failed
      exact silent _ rfl

private theorem breaks_iff {site : Condition.Site} {text : String} {pieces : List Expression.Piece}
    (read : ∀ piece ∈ pieces, Expression.Piece.Sound piece) :
    Breaks site text pieces ↔ Condition.ofPieces site pieces = .error (.unreadableNumber text) := by
  have silent : Condition.Silent (.unreadableNumber text) := by simp [Condition.Silent]
  rw [Condition.ofPieces_silent_iff silent]
  constructor
  · intro ⟨before, piece, after, split, number, written, digits, sound⟩
    have run := read piece (by simp [split]) number
    have unread := (numeral_eq_none_iff run).mpr (written ▸ digits)
    exact ⟨before, piece, after, split, (Condition.valueOf_silent_iff silent).mpr ⟨number, unread, by rw [written]⟩, sound⟩
  · intro ⟨before, piece, after, split, bad, sound⟩
    obtain ⟨number, unread, written⟩ := (Condition.valueOf_silent_iff silent).mp bad
    cases written
    have run := read piece (by simp [split]) number
    exact ⟨before, piece, after, split, number, rfl, (numeral_eq_none_iff run).mp unread, sound⟩

private theorem sound_pieces {cursor : Cursor} {before after : List Token} {token : Token}
    {pieces : List Expression.Piece} (read : (tokensFrom cursor).1 = before ++ token :: after)
    (tag : token.form = .choice pieces) : ∀ piece ∈ pieces, Expression.Piece.Sound piece := by
  have sound := sound_of_mem_tokensFrom (show token ∈ (tokensFrom cursor).1 by simp [read])
  rwa [tag] at sound

private theorem meets_of_parse {registry : Registry} {chain : List String} {source content : String}
    {failure : CompileFailure} (silent : Condition.Silent failure)
    (failed : (parse registry chain source (Lexer.ofSource source content)).1.result = .error failure) :
    ∃ text, failure = .unreadableNumber text ∧ Meets registry text chain source content := by
  induction chain using registry.chain_induction generalizing source content with
  | step chain ih =>
    obtain ⟨before, token, after, draft, read, taken, refused⟩ := (parse_silent silent).mp failed
    have sound : Completable registry chain source before := completable_iff.mpr ⟨draft, taken⟩
    cases Draft.refuses_of_accept refused with
    | misplaced tag imbalance => exact absurd rfl (silent _)
    | choice broken =>
      obtain ⟨_, piece, _, _, bad, _⟩ := (Condition.ofPieces_silent_iff silent).mp broken
      obtain ⟨_, _, rfl⟩ := (Condition.valueOf_silent_iff silent).mp bad
      exact ⟨piece.value, rfl, .here read sound rfl ((breaks_iff (sound_pieces read rfl)).mpr broken)⟩
    | inclusion inside =>
      rcases expand_error_iff.mp inside with ⟨-, told⟩ | ⟨inner, registered, ⟨-, told⟩ | ⟨fresh, inside⟩⟩
      · exact absurd told (silent _)
      · exact absurd told (silent _)
      · obtain ⟨text, same, met⟩ := ih _ inner registered fresh inside
        exact ⟨text, same, .within read sound rfl registered fresh met⟩
    | bare position => exact (sound_of_mem_tokensFrom (show ⟨position, .bare⟩ ∈ _ by rw [read]; simp)).elim

private theorem parse_of_meets {registry : Registry} {chain : List String} {source content text : String}
    (met : Meets registry text chain source content) :
    (parse registry chain source (Lexer.ofSource source content)).1.result = .error (.unreadableNumber text) := by
  have silent : Condition.Silent (.unreadableNumber text) := by simp [Condition.Silent]
  induction met with
  | here read sound tag breaks =>
    obtain ⟨draft, taken⟩ := completable_iff.mp sound
    have broken := (breaks_iff (sound_pieces read tag)).mp breaks
    apply (parse_silent silent).mpr
    refine ⟨_, _, _, draft, read, taken, ?_⟩
    simp only [Draft.accept, tag, Compilation.result_bind, Compilation.result_ofExcept, broken]
    rfl
  | within read sound tag registered fresh met ih =>
    obtain ⟨draft, taken⟩ := completable_iff.mp sound
    apply (parse_silent silent).mpr
    refine ⟨_, _, _, draft, read, taken, ?_⟩
    simp only [Draft.accept, tag, Compilation.result_bind, result_expand, registered, fresh, if_false, ih]
    rfl

/-- Compiling gives a template or a diagnosed failure, unless a number with a digit outside the systems of ten is met
before anything else is wrong; then it fails over the text of that number. -/
theorem compile_diagnosed_iff (content : String) (partials : Registry) (globals : Value) :
    (((∃ template, (Template.compile content partials globals).result = .ok template) ∨
        ∃ diagnostic, (Template.compile content partials globals).result = .error (.diagnosed diagnostic)) ↔
      ¬ ∃ text, Meets partials text [] rootName content) ∧
    ∀ text, (Template.compile content partials globals).result = .error (.unreadableNumber text) ↔
      Meets partials text [] rootName content := by
  have unreadable (text : String) : (Template.compile content partials globals).result = .error (.unreadableNumber text) ↔
      Meets partials text [] rootName content := by
    rw [compile_error_iff]
    constructor
    · intro failed
      obtain ⟨_, same, met⟩ := meets_of_parse (by simp [Condition.Silent]) failed
      cases same
      exact met
    · exact parse_of_meets
  refine ⟨⟨?_, ?_⟩, unreadable⟩
  · rintro (⟨template, compiled⟩ | ⟨diagnostic, failed⟩) ⟨text, met⟩
    · simp [(unreadable text).mpr met] at compiled
    · simp [(unreadable text).mpr met] at failed
  · intro unmet
    cases outcome : (Template.compile content partials globals).result with
    | ok template => exact .inl ⟨template, rfl⟩
    | error failure =>
      by_cases told : ∃ diagnostic, failure = .diagnosed diagnostic
      · obtain ⟨diagnostic, rfl⟩ := told
        exact .inr ⟨diagnostic, rfl⟩
      · have silent : Condition.Silent failure := fun diagnostic same => told ⟨diagnostic, same⟩
        obtain ⟨text, _, met⟩ := meets_of_parse silent (compile_error_iff.mp outcome)
        exact absurd ⟨text, met⟩ unmet

def raisedDigit : String := "\x7b% if ² %\x7dx\x7b% end %\x7d"

private theorem raisedDigit_read : ∃ rest, (tokensFrom (.ofSource rootName raisedDigit)).1 =
    ⟨some ⟨1, 0⟩, .choice [⟨.number, "²", some ⟨1, 6⟩⟩]⟩ :: rest := by
  have read : Token.read? (.ofSource rootName raisedDigit) = .ok (some ⟨some ⟨1, 0⟩, .choice [⟨.number, "²", some ⟨1, 6⟩⟩]⟩)
      (Cursor.forwardBy 10 (.ofSource rootName raisedDigit)) := by cbv
  exact ⟨_, by rw [tokensFrom_token read]⟩

theorem raisedDigit_undiagnosed : ¬ ((∃ template, (Template.compile raisedDigit .empty (.dict [])).result = .ok template) ∨
    ∃ diagnostic, (Template.compile raisedDigit .empty (.dict [])).result = .error (.diagnosed diagnostic)) := by
  have breaks (site : Condition.Site) : Breaks site "²" [⟨.number, "²", some ⟨1, 6⟩⟩] := by
    have named : Condition.ofPieces site [Condition.anyName] = .ok (.variable "x") := by cbv
    exact ⟨[], _, [], rfl, rfl, rfl, ⟨'²', by decide⟩, _, named⟩
  have met : Meets .empty "²" [] rootName raisedDigit := by
    obtain ⟨rest, read⟩ := raisedDigit_read
    exact .here (show _ = [] ++ _ :: rest from read) (completable_iff.mpr ⟨.empty, rfl⟩) rfl (breaks _)
  have failed : (Template.compile raisedDigit .empty (.dict [])).result = .error (.unreadableNumber "²") :=
    compile_error_iff.mpr (parse_of_meets met)
  simp [failed]

end CompileFailures
end Stencil
