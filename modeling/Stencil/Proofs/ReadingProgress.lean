import Mathlib
import Stencil.Proofs.Lookahead
import Stencil.Proofs.ParserReuse

/-! Progress, also through failures. Asking for a token takes something away from the source as long as it lasts, and so does
calling a parser. So both are at the end after as many calls as there are characters, whatever came of the calls. -/

namespace Stencil

/-- What gets smaller at every step until it halts has not more steps to go than its size. -/
theorem first_halt (size : Nat → Nat) (Halts : Nat → Prop) (smaller : ∀ step, ¬ Halts step → size (step + 1) < size step) :
    ∃ first ≤ size 0, Halts first ∧ ∀ earlier < first, ¬ Halts earlier := by
  classical
  have spent (count : Nat) (going : ∀ earlier < count, ¬ Halts earlier) : size count + count ≤ size 0 := by
    induction count with
    | zero => exact Nat.le_refl _
    | succ count ih =>
      have before := ih fun earlier less => going earlier (Nat.lt_succ_of_lt less)
      have next := smaller count (going count (Nat.lt_succ_self count))
      omega
  have halts : ∃ count, Halts count := by
    by_contra never
    have long := spent (size 0 + 1) fun earlier _ => not_exists.mp never earlier
    omega
  have within := spent (Nat.find halts) fun _ => Nat.find_min halts
  exact ⟨Nat.find halts, by omega, Nat.find_spec halts, fun _ => Nat.find_min halts⟩

namespace Lexer

theorem size_ofSource (source content : String) : (ofSource source content).size = content.length := by
  simp [size, ofSource, Cursor.ofSource, String.length_toList]

theorem afterCalls_append (lexer : Lexer) (calls more : List Call) :
    lexer.afterCalls (calls ++ more) = (lexer.afterCalls calls).afterCalls more := by
  induction calls generalizing lexer with
  | nil => rfl
  | cons call calls ih =>
    rw [List.cons_append, afterCalls, afterCalls]
    split <;> exact ih _

theorem next_shortens (lexer : Lexer) : (lexer.afterCalls [.next]).size < lexer.size ∨ next lexer = .ok none lexer := by
  cases lexer.upshot with
  | held kept taken =>
    rw [afterCalls_given taken]
    exact .inl (by simp [afterCalls, Call.leaves, size, kept])
  | done _ _ taken => exact .inr taken
  | token free moves inside taken =>
    rw [afterCalls_given taken]
    simp only [afterCalls, Call.leaves, size, free, Cursor.rest_forwardBy, List.length_drop, Option.isSome_none]
    exact .inl (by simp; omega)
  | fault free moves inside failed =>
    rw [afterCalls_failed failed]
    simp only [afterCalls, size, free, Cursor.rest_forwardBy, List.length_drop]
    exact .inl (by simp; omega)

theorem afterCalls_idle {lexer : Lexer} (idle : next lexer = .ok none lexer) (count : Nat) :
    lexer.afterCalls (.replicate count .next) = lexer := by
  induction count with
  | zero => rfl
  | succ count ih =>
    rw [List.replicate_succ, afterCalls_given idle]
    exact ih

/-- Reading ends within as many calls as there are characters, and then for good. -/
theorem ends_afterCalls (source content : String) : ∃ first ≤ content.length, ∀ count,
    (∃ after, ((ofSource source content).afterCalls (.replicate count .next)).next = .ok none after) ↔ first ≤ count := by
  let lexerAt (count : Nat) := (ofSource source content).afterCalls (.replicate count .next)
  have further (count more : Nat) : lexerAt (count + more) = (lexerAt count).afterCalls (.replicate more .next) := by
    rw [← afterCalls_append, List.replicate_append_replicate]
  obtain ⟨first, within, ⟨_, ended⟩, before⟩ :=
    first_halt (fun count => (lexerAt count).size) (fun count => ∃ after, (lexerAt count).next = .ok none after)
      fun count going => by
        rw [further count 1]
        exact (next_shortens _).resolve_right fun ended => going ⟨_, ended⟩
  have idle := ended
  rw [eq_of_ended ended] at idle
  refine ⟨first, Nat.le_trans within (Nat.le_of_eq (size_ofSource source content)), fun count => ⟨?_, ?_⟩⟩
  · intro already
    exact Nat.le_of_not_lt fun early => before count early already
  · intro behind
    have stays := (further first (count - first)).trans (afterCalls_idle idle _)
    rw [Nat.add_sub_cancel' behind] at stays
    exact ⟨_, (congrArg next stays).trans idle⟩

end Lexer

namespace Draft

theorem complete_shortens (inclusion : Inclusion) (source : String) (draft : Draft) (lexer : Lexer) :
    (draft.complete inclusion source lexer).2.size < lexer.size ∨
      draft.complete inclusion source lexer = (draft.finish source, lexer) := by
  fun_induction draft.complete inclusion source lexer with
  | case1 draft lexer problem rest failed =>
    have shortens := lexer.next_shortens
    rw [Lexer.afterCalls_failed failed] at shortens
    exact .inl (shortens.resolve_right fun ended => by cases ended.symm.trans failed)
  | case2 draft lexer rest taken => exact .inr (congrArg (Prod.mk _) (Lexer.eq_of_ended taken))
  | case3 draft lexer token rest taken accepted failure refused => exact .inl (Lexer.next_smaller taken)
  | case4 draft lexer token rest taken accepted next kept completed left finished ih =>
    have smaller := Lexer.next_smaller taken
    rw [finished] at ih
    rcases ih with shorter | ended
    · exact .inl (Nat.lt_trans shorter smaller)
    · cases ended
      exact .inl smaller

end Draft

namespace Parser

theorem parse_shortens (parser : Parser Lexer) :
    parser.parse.2.lexer.size < parser.lexer.size ∨ parser.parse.1 = pure .emptyBlock := by
  have same := parse_eq parser
  rw [Stencil.parse] at same
  rcases Draft.complete_shortens (expand parser.registry parser.chain) parser.source .empty parser.lexer with shorter | ended
  · rw [← same] at shorter
    exact .inl shorter
  · rw [ended] at same
    exact .inr (congrArg Prod.fst same)

theorem succeeds_afterCalls (parser : Parser Lexer) : ∃ count ≤ parser.lexer.size,
    (∀ earlier < count, ∃ failure, (parser.afterCalls earlier).parse.1.result = .error failure) ∧
    ∃ children, (parser.afterCalls count).parse.1.result = .ok (.block children) := by
  obtain ⟨count, within, ⟨tree, made⟩, before⟩ :=
    first_halt (fun count => (parser.afterCalls count).lexer.size)
      (fun count => ∃ tree, (parser.afterCalls count).parse.1.result = .ok tree)
      fun count going => (parse_shortens _).resolve_right fun ended => going ⟨_, congrArg Compilation.result ended⟩
  refine ⟨count, within, ?_, ?_⟩
  · intro earlier less
    cases failed : (parser.afterCalls earlier).parse.1.result with
    | error failure => exact ⟨failure, rfl⟩
    | ok tree => cases before earlier less ⟨tree, failed⟩
  · have parsed := (congrArg (Compilation.result ∘ Prod.fst) (parse_eq (parser.afterCalls count))).symm.trans made
    obtain ⟨_, _, shape, _⟩ := parse_ok.mp parsed
    exact ⟨_, made.trans (congrArg _ shape)⟩

end Parser

/-- Asking for a token that is not held reads something before the end, more than one character if it fails. So, failures or
not, a lexer is at the end for good after as many calls as its source has characters; and a parser fails no more often than that
before it makes a tree. -/
theorem reading_progresses (registry : Registry) (chain : List String) (source content : String) :
    (∀ lexer : Lexer, lexer.held = none → lexer.cursor.atEnd = false → ∃ count ≤ lexer.cursor.rest.length,
      (∃ token, 1 ≤ count ∧ lexer.next = .ok (some token) ⟨lexer.cursor.forwardBy count, none⟩) ∨
        ∃ problem, 2 ≤ count ∧ lexer.next = .error problem ⟨lexer.cursor.forwardBy count, none⟩) ∧
    (∃ first ≤ content.length, ∀ count,
      (∃ after, ((Lexer.ofSource source content).afterCalls (.replicate count .next)).next = .ok none after) ↔ first ≤ count) ∧
    let parser := Parser.ofSource registry chain source content
    ∃ count ≤ content.length,
      (∀ earlier < count, ∃ failure, (parser.afterCalls earlier).parse.1.result = .error failure) ∧
      ∃ children, (parser.afterCalls count).parse.1.result = .ok (.block children) := by
  refine ⟨?_, Lexer.ends_afterCalls source content, ?_⟩
  · intro lexer free more
    cases lexer.upshot with
    | held kept _ => cases free.symm.trans kept
    | done _ ended _ => simp [Cursor.atEnd, ended] at more
    | token _ moves inside taken => exact ⟨_, inside, .inl ⟨_, moves, taken⟩⟩
    | fault _ moves inside failed => exact ⟨_, inside, .inr ⟨_, moves, failed⟩⟩
  · intro parser
    obtain ⟨count, within, succeeds⟩ := parser.succeeds_afterCalls
    exact ⟨count, Nat.le_trans within (Nat.le_of_eq (Lexer.size_ofSource source content)), succeeds⟩

section
open Lexer (keyless keyless_next)

def puzzled : Parser Lexer := .ofSource .empty [] rootName keyless

private theorem puzzled_parsed : puzzled.parse =
    (.ofExcept (.error (.diagnosed ⟨.unknownKeyword "x" ["for", "if", "else", "end"], some ⟨1, 3⟩, some rootName⟩)),
      ⟨⟨⟨.into rootName keyless 4, none⟩, []⟩, rootName, .empty, []⟩) := by
  obtain ⟨text, refused, _⟩ := keyless_next
  rw [Parser.parse, Descent.blocks_text text, Descent.blocks_fault refused]
  rfl

private theorem puzzled_resumed : (puzzled.afterCalls 1).parse.1 = pure (.block [.text " b"]) := by
  obtain ⟨_, _, text, ended⟩ := keyless_next
  rw [Parser.afterCalls, Parser.afterCalls, puzzled_parsed, Parser.parse, Descent.blocks_text text, Descent.blocks_done ended]
  rfl

/-- The tag without a keyword fails one call, of the lexer and of a parser. -/
theorem reading_progresses_keyless :
    let lexer : Lexer := ⟨.into rootName keyless 1, none⟩
    (lexer.cursor.atEnd = false ∧ ∃ problem, lexer.next = .error problem ⟨lexer.cursor.forwardBy 3, none⟩) ∧
      (∀ count, (∃ after, ((Lexer.ofSource rootName keyless).afterCalls (.replicate count .next)).next = .ok none after) ↔
        3 ≤ count) ∧
      (∃ failure, puzzled.parse.1.result = .error failure) ∧
      (puzzled.afterCalls 1).parse.1.result = .ok (.block [.text " b"]) := by
  intro lexer
  obtain ⟨first, refused, second, done⟩ := keyless_next
  obtain ⟨moves, ⟨last, _, ends⟩, count, _, fails, children, makes⟩ := reading_progresses .empty [] rootName keyless
  have start : Lexer.ofSource rootName keyless = ⟨.into rootName keyless 0, none⟩ := rfl
  have leaves (count : Nat) : (Lexer.ofSource rootName keyless).afterCalls (.replicate (count + 2) .next) =
      (⟨.into rootName keyless 4, none⟩ : Lexer).afterCalls (.replicate count .next) := by
    rw [start, List.replicate_succ, Lexer.afterCalls_given first]
    exact Lexer.afterCalls_failed refused .next _
  refine ⟨⟨rfl, ?_⟩, ?_, ?_⟩
  · obtain ⟨_, _, ⟨_, _, taken⟩ | ⟨problem, _, failed⟩⟩ := moves lexer rfl rfl
    · cases taken.symm.trans refused
    · have moved := failed.symm.trans refused
      injection moved with _ moved
      exact ⟨problem, failed.trans (congrArg _ moved)⟩
  · have within : last ≤ 3 := (ends 3).mp ⟨_, by
      rw [leaves 1]
      exact (congrArg Lexer.next (Lexer.afterCalls_given second .next [])).trans done⟩
    have beyond : ¬ last ≤ 2 := fun early => by
      obtain ⟨_, ended⟩ := (ends 2).mpr early
      rw [leaves 0] at ended
      cases ended.symm.trans second
    rwa [show last = 3 by omega] at ends
  · have within : count ≤ 1 := Nat.le_of_not_lt fun early => by
      obtain ⟨_, failed⟩ := fails 1 early
      cases (congrArg Compilation.result puzzled_resumed).symm.trans failed
    cases count with
    | zero => cases (congrArg (Compilation.result ∘ Prod.fst) puzzled_parsed).symm.trans makes
    | succ count => exact ⟨fails 0 (Nat.succ_pos count), congrArg Compilation.result puzzled_resumed⟩

end
end Stencil
