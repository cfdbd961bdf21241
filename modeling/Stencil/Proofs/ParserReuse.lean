import Mathlib
import Stencil.Proofs.DescentSimulation

/-! Parsers that are used again. A call that fails may leave nodes on the stack and the source in the middle of a block. The
next call begins there as a new parser would: its marks are all above what was left. -/

namespace Stencil

namespace Parser

section
variable {σ : Type} [TokenStream σ]

/-- The parser after so many calls, whatever came of them. -/
def afterCalls (parser : Parser σ) : Nat → Parser σ
  | 0 => parser
  | count + 1 => (parser.afterCalls count).parse.2

theorem kept_afterCalls (parser : Parser σ) (count : Nat) : (parser.afterCalls count).source = parser.source ∧
    (parser.afterCalls count).registry = parser.registry ∧ (parser.afterCalls count).chain = parser.chain := by
  induction count with
  | zero => exact ⟨rfl, rfl, rfl⟩
  | succ count ih => exact ih

theorem parse_ended {parser : Parser σ} (ended : TokenStream.next parser.stream = .ok none parser.stream) :
    parser.parse = (pure .emptyBlock, parser) := by
  rw [parse, Descent.blocks_done ended]
  rfl

theorem afterCalls_ended {parser : Parser σ} (ended : TokenStream.next parser.stream = .ok none parser.stream)
    (count : Nat) : parser.afterCalls count = parser := by
  induction count with
  | zero => rfl
  | succ count ih => rw [afterCalls, ih, parse_ended ended]

end

/-- However often a parser was called before, and whatever came of that, it makes of the rest of its source what a new parser
makes of it. A call that succeeds leaves the stack as it found it, and nothing of the source for the calls after it. -/
theorem parse_reuse (parser : Parser Lexer) (count : Nat) :
    let before := parser.afterCalls count
    let fresh : Parser Lexer := ⟨⟨before.lexer, []⟩, parser.source, parser.registry, parser.chain⟩
    before.parse.1 = fresh.parse.1 ∧ before.parse.2.lexer = fresh.parse.2.lexer ∧
      (before.parse.1, before.parse.2.lexer) = Stencil.parse parser.registry parser.chain parser.source before.lexer ∧
      ∀ tree, before.parse.1.result = .ok tree → before.parse.2.stack = before.stack ∧
        ∀ more, (before.parse.2.afterCalls more).parse = (pure .emptyBlock, before.parse.2) := by
  intro before fresh
  obtain ⟨source, registry, chain⟩ := kept_afterCalls parser count
  have same := parse_eq before
  rw [source, registry, chain] at same
  obtain ⟨outcome, lexer⟩ := Prod.ext_iff.mp (same.trans (parse_eq fresh).symm)
  refine ⟨outcome, lexer, same, ?_⟩
  intro tree made
  obtain ⟨height, last, ended⟩ := Descent.leaves_blocks _ _ [] before.toDescent made
  have idle : before.parse.2.lexer.next = .ok none before.parse.2.lexer := Lexer.next_of_ended ended
  refine ⟨height, fun more => ?_⟩
  rw [afterCalls_ended idle, parse_ended idle]

/-- A loop that an `else` tag cuts off, and some text behind it. -/
def cutOff : String := "\x7b%for xs as x%\x7da\x7b%else%\x7db"

def interrupted : Parser Lexer := .ofSource .empty [] rootName cutOff

private def cutOffAt (offset : Nat) : Lexer := ⟨.into rootName cutOff offset, none⟩

private theorem cutOff_next :
    (cutOffAt 0).next = .ok (some ⟨some ⟨1, 0⟩, .loop "xs" "x"⟩) (cutOffAt 15) ∧
      (cutOffAt 15).next = .ok (some ⟨some ⟨1, 15⟩, .text "a"⟩) (cutOffAt 16) ∧
      (cutOffAt 16).next = .ok (some ⟨some ⟨1, 16⟩, .otherwise⟩) (cutOffAt 24) ∧
      (cutOffAt 24).next = .ok (some ⟨some ⟨1, 24⟩, .text "b"⟩) (cutOffAt 25) ∧
      (cutOffAt 25).next = .ok none (cutOffAt 25) := by
  refine ⟨?_, ?_, ?_, ?_, ?_⟩ <;> cbv

private theorem cutOff_collected (inclusion : Inclusion) (opened : Token) :
    Descent.collect inclusion rootName opened "for" [.close] 0 ⟨cutOffAt 15, []⟩ =
      .fail (.diagnosed ⟨.unbalanced (.inside "else" "for" ["end"]), some ⟨1, 16⟩, some rootName⟩) ⟨cutOffAt 24, [.text "a"]⟩ := by
  obtain ⟨_, text, otherwise, _⟩ := cutOff_next
  rw [Descent.collect_some text, Descent.node]
  dsimp only [Token.ending?]
  rw [Descent.Step.bind_done, Descent.collect_some otherwise]
  rfl

private theorem cutOff_parsed : interrupted.parse =
    (.diagnose (.unbalanced (.inside "else" "for" ["end"])) (some ⟨1, 16⟩) rootName,
      ⟨⟨cutOffAt 24, [.text "a"]⟩, rootName, .empty, []⟩) := by
  obtain ⟨loop, _⟩ := cutOff_next
  have opens (inclusion : Inclusion) :
      Descent.node inclusion rootName ⟨some ⟨1, 0⟩, .loop "xs" "x"⟩ ⟨cutOffAt 15, []⟩ =
        .fail (.diagnosed ⟨.unbalanced (.inside "else" "for" ["end"]), some ⟨1, 16⟩, some rootName⟩)
          ⟨cutOffAt 24, [.text "a"]⟩ := by
    rw [Descent.node]
    dsimp only [List.length_nil]
    rw [cutOff_collected]
    rfl
  rw [parse, Descent.blocks_some loop]
  dsimp only [Token.ending?, interrupted, ofSource]
  rw [opens]
  rfl

private theorem cutOff_resumed (stack : List Node) :
    (⟨⟨cutOffAt 24, stack⟩, rootName, .empty, []⟩ : Parser Lexer).parse =
      (pure (.block [.text "b"]), ⟨⟨cutOffAt 25, stack⟩, rootName, .empty, []⟩) := by
  obtain ⟨_, _, _, text, ended⟩ := cutOff_next
  rw [parse, Descent.blocks_text text, Descent.blocks_done ended]
  rfl

/-- What came before the `else` tag stays on the stack, and it is in none of the trees. -/
theorem parse_reuse_cutOff :
    interrupted.parse.1.result =
        .error (.diagnosed ⟨.unbalanced (.inside "else" "for" ["end"]), some ⟨1, 16⟩, some rootName⟩) ∧
      (interrupted.afterCalls 1).stack = [.text "a"] ∧
      (interrupted.afterCalls 1).parse.1.result = .ok (.block [.text "b"]) ∧
      (interrupted.afterCalls 2).stack = [.text "a"] ∧
      ∀ more, ((interrupted.afterCalls 2).afterCalls more).parse.1 = pure .emptyBlock := by
  have first := cutOff_parsed
  have second := cutOff_resumed [.text "a"]
  have once : interrupted.afterCalls 1 = ⟨⟨cutOffAt 24, [.text "a"]⟩, rootName, .empty, []⟩ := by
    rw [afterCalls, afterCalls, first]
  have made : (interrupted.afterCalls 1).parse.1.result = .ok (.block [.text "b"]) := by
    rw [once, second]
    rfl
  obtain ⟨_, _, _, reused⟩ := parse_reuse interrupted 1
  obtain ⟨height, idle⟩ := reused _ made
  refine ⟨by rw [first]; rfl, by rw [once], made, ?_, fun more => ?_⟩
  · rw [afterCalls, height, once]
  · rw [afterCalls, idle]

end Parser
end Stencil
