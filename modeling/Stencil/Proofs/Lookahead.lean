import Mathlib
import Stencil.Proofs.ReadingFaults

/-! Looking ahead. A lexer may be asked for the token that comes next, or whether there is one, before the token is taken. What
is looked at is put back, so it makes no difference to what is taken; and a call that fails leaves nothing but a lexer in the
place where it stopped. -/

namespace Stencil
open Diagnostic

namespace Cursor

theorem offset_forwardBy {cursor : Cursor} {count : Nat} (inside : count ≤ cursor.rest.length) :
    (cursor.forwardBy count).offset = cursor.offset + count := by
  rw [offset, offset, before_forwardBy, List.length_append, List.length_reverse, List.length_take_of_le inside, Nat.add_comm]

theorem offset_into {source content : String} {count : Nat} (inside : count ≤ content.length) :
    (into source content count).offset = count := by
  have whole : (ofSource source content).rest.length = content.length := String.length_toList
  rw [offset_forwardBy (whole ▸ inside)]
  exact Nat.zero_add count

theorem eq_into_of_ahead {source content : String} {there : Cursor} (ahead : (ofSource source content).Ahead there) :
    there = into source content there.offset := by
  obtain ⟨count, inside, rfl⟩ := ahead
  rw [offset_into (String.length_toList ▸ inside)]

end Cursor

namespace Lexer

inductive Call where
  | peek
  | next
  | atEnd
  deriving DecidableEq, Repr

inductive Answer where
  | token (found : Option Token)
  | ended (flag : Bool)
  deriving DecidableEq, Repr

namespace Call

def answer : Call → EStateM Diagnostic Lexer Answer
  | .peek => do return .token (← Lexer.peek)
  | .next => do return .token (← Lexer.next)
  | .atEnd => do return .ended (← Lexer.atEnd)

def tells (found : Option Token) : Call → Answer
  | .peek | .next => .token found
  | .atEnd => .ended found.isNone

/-- What becomes of a lexer that has given this out: whoever only looks puts it back. -/
def leaves (found : Option Token) (after : Lexer) : Call → Lexer
  | .next => after
  | .peek | .atEnd => { after with held := found }

end Call

/-- The lexer after these calls, whatever came of them. -/
def afterCalls (lexer : Lexer) : List Call → Lexer
  | [] => lexer
  | call :: calls =>
    match call.answer lexer with
    | .ok _ after | .error _ after => after.afterCalls calls

def taken (lexer : Lexer) : List Call → List (Option Token)
  | [] => []
  | .next :: calls =>
    match next lexer with
    | .ok found after => found :: after.taken calls
    | .error _ _ => []
  | look :: calls =>
    match look.answer lexer with
    | .ok _ after => after.taken calls
    | .error _ _ => []

variable {lexer after : Lexer} {found : Option Token} {problem : Diagnostic} {call look : Call} {answer : Answer}

theorem free_of_next (given : next lexer = .ok found after) : lexer.cursor.Ahead after.cursor ∧ after.held = none := by
  cases lexer.upshot with
  | held _ taken =>
    cases taken.symm.trans given
    exact ⟨.refl _, rfl⟩
  | done free _ taken =>
    cases taken.symm.trans given
    exact ⟨.refl _, free⟩
  | token _ _ inside taken =>
    cases taken.symm.trans given
    exact ⟨⟨_, inside, rfl⟩, rfl⟩
  | fault _ _ _ failed => cases failed.symm.trans given

theorem free_of_fault (failed : next lexer = .error problem after) : lexer.cursor.Ahead after.cursor ∧ after.held = none := by
  cases lexer.upshot with
  | fault _ _ inside failed' =>
    cases failed'.symm.trans failed
    exact ⟨⟨_, inside, rfl⟩, rfl⟩
  | held _ taken => cases taken.symm.trans failed
  | done _ _ taken => cases taken.symm.trans failed
  | token _ _ _ taken => cases taken.symm.trans failed

theorem answer_of_next (given : next lexer = .ok found after) (call : Call) :
    call.answer lexer = .ok (call.tells found) (call.leaves found after) := by
  obtain ⟨cursor, held⟩ := lexer
  cases held with
  | some token =>
    cases given
    cases call <;> rfl
  | none =>
    obtain ⟨there, read, rfl⟩ := next_ok_iff.mp given
    have looked : peek ⟨cursor, none⟩ = .ok found ⟨there, found⟩ := by simp only [peek, read]
    cases call <;> simp [Call.answer, Lexer.next, Lexer.atEnd, bind, EStateM.bind, looked, Call.tells, Call.leaves] <;> rfl

theorem answer_of_fault (failed : next lexer = .error problem after) (call : Call) :
    call.answer lexer = .error problem after := by
  obtain ⟨cursor, held⟩ := lexer
  cases held with
  | some token => cases failed
  | none =>
    rw [next_fresh] at failed
    cases read : Token.read? cursor with
    | ok found there => simp [read] at failed
    | error cause there =>
      rw [read] at failed
      cases failed
      have looked : peek ⟨cursor, none⟩ = .error problem ⟨there, none⟩ := by simp only [peek, read]
      cases call <;> simp [Call.answer, Lexer.next, Lexer.atEnd, bind, EStateM.bind, looked]

theorem next_of_answer (given : call.answer lexer = .ok answer after) :
    ∃ found between, next lexer = .ok found between ∧ answer = call.tells found ∧ after = call.leaves found between := by
  cases taken : next lexer with
  | ok found between =>
    cases (answer_of_next taken call).symm.trans given
    exact ⟨found, between, rfl, rfl, rfl⟩
  | error problem between => cases (answer_of_fault taken call).symm.trans given

theorem fault_of_answer (failed : call.answer lexer = .error problem after) : next lexer = .error problem after := by
  cases taken : next lexer with
  | ok found between => cases (answer_of_next taken call).symm.trans failed
  | error cause between =>
    cases (answer_of_fault taken call).symm.trans failed
    rfl

theorem leaves_look (looks : look ≠ .next) (found : Option Token) (after : Lexer) :
    look.leaves found after = { after with held := found } := by
  cases look <;> simp_all [Call.leaves]

theorem afterCalls_given (given : next lexer = .ok found after) (call : Call) (calls : List Call) :
    lexer.afterCalls (call :: calls) = (call.leaves found after).afterCalls calls := by
  rw [afterCalls, answer_of_next given]

theorem afterCalls_failed (failed : next lexer = .error problem after) (call : Call) (calls : List Call) :
    lexer.afterCalls (call :: calls) = after.afterCalls calls := by
  rw [afterCalls, answer_of_fault failed]

/-- What was put back comes next, be it a token or the end. -/
theorem next_of_look (given : next lexer = .ok found after) : next { after with held := found } = .ok found after := by
  have free := (free_of_next given).2
  obtain ⟨cursor, held⟩ := after
  cases free
  cases found with
  | some token => rfl
  | none => exact next_of_ended given

/-- Looks at what was looked at before leave the lexer as it is. -/
theorem looks_again (given : next lexer = .ok found after) {looks : List Call} (only : .next ∉ looks) :
    Lexer.afterCalls { after with held := found } looks = { after with held := found } ∧
      ∀ look ∈ looks, look.answer { after with held := found } = .ok (look.tells found) { after with held := found } := by
  have again (look : Call) (member : look ∈ looks) :
      look.answer { after with held := found } = .ok (look.tells found) { after with held := found } := by
    have looked := answer_of_next (next_of_look given) look
    rwa [leaves_look (fun same => only (same ▸ member))] at looked
  refine ⟨?_, again⟩
  clear only
  induction looks with
  | nil => rfl
  | cons look looks ih =>
    rw [afterCalls, again look List.mem_cons_self]
    exact ih fun other member => again other (List.mem_cons_of_mem look member)

theorem taken_eq (lexer : Lexer) (calls : List Call) : lexer.taken calls = lexer.taken (.replicate (calls.count .next) .next) := by
  induction calls generalizing lexer with
  | nil => rfl
  | cons call calls ih =>
    by_cases takes : call = .next
    · subst takes
      rw [List.count_cons_self, List.replicate_succ, taken, taken]
      split
      next found after _ => rw [ih after]
      next => rfl
    · have step : lexer.taken (call :: calls) = match call.answer lexer with
          | .ok _ after => after.taken calls
          | .error _ _ => [] := by
        cases call with
        | next => exact absurd rfl takes
        | _ => rfl
      rw [List.count_cons_of_ne takes, step]
      cases given : next lexer with
      | error problem after =>
        rw [answer_of_fault given]
        cases calls.count .next with
        | zero => rfl
        | succ count => simp only [List.replicate_succ, taken, given]
      | ok found after =>
        rw [answer_of_next given, leaves_look takes]
        dsimp only
        rw [ih]
        cases calls.count .next with
        | zero => rfl
        | succ count => simp only [List.replicate_succ, taken, given, next_of_look given]

@[simp] theorem cursor_leaves (call : Call) (found : Option Token) (after : Lexer) :
    (call.leaves found after).cursor = after.cursor := by
  cases call <;> rfl

/-- Calls go on from where the lexer stands, those that fail among them. -/
theorem ahead_afterCalls (lexer : Lexer) (calls : List Call) : lexer.cursor.Ahead (lexer.afterCalls calls).cursor := by
  induction calls generalizing lexer with
  | nil => exact .refl _
  | cons call calls ih =>
    cases given : next lexer with
    | ok found after =>
      have further := ih (call.leaves found after)
      rw [cursor_leaves] at further
      rw [afterCalls_given given]
      exact (free_of_next given).1.trans further
    | error problem after =>
      rw [afterCalls_failed given]
      exact (free_of_fault given).1.trans (ih after)

/-- Whatever a lexer was asked before, looking ahead does not change what is taken from it. A look tells what the next call
of `next` returns, however many looks come between, and these leave the lexer as it is. A call that fails does so as `next` does,
and what it leaves is the lexer that has read the source up to there and holds no token. -/
theorem lookahead_transparent (source content : String) (earlier : List Call) :
    let lexer := (ofSource source content).afterCalls earlier
    (∀ calls, lexer.taken calls = lexer.taken (.replicate (calls.count .next) .next)) ∧
    (∀ (look : Call) answer after, look ≠ .next → look.answer lexer = .ok answer after → ∃ found, answer = look.tells found ∧
      ∀ looks, .next ∉ looks → after.afterCalls looks = after ∧
        (∀ other ∈ looks, other.answer after = .ok (other.tells found) after) ∧
        (after.afterCalls looks).next = .ok found ⟨after.cursor, none⟩) ∧
    ∀ (call : Call) problem after, call.answer lexer = .error problem after →
      lexer.next = .error problem after ∧ after = ⟨.into source content after.cursor.offset, none⟩ := by
  intro lexer
  refine ⟨taken_eq lexer, ?_, ?_⟩
  · intro look answer after looks given
    obtain ⟨found, between, taken, told, rfl⟩ := next_of_answer given
    rw [leaves_look looks]
    refine ⟨found, told, ?_⟩
    intro others only
    obtain ⟨stays, again⟩ := looks_again taken only
    have free := (free_of_next taken).2
    obtain ⟨cursor, held⟩ := between
    cases free
    refine ⟨stays, again, ?_⟩
    rw [stays]
    exact next_of_look taken
  · intro call problem after failed
    have taken := fault_of_answer failed
    obtain ⟨further, free⟩ := free_of_fault taken
    obtain ⟨cursor, held⟩ := after
    cases free
    have ahead := (ahead_afterCalls (ofSource source content) earlier).trans further
    exact ⟨taken, by rw [← Cursor.eq_into_of_ahead ahead]⟩

def keyless : String := "a\x7b%x b"

theorem keyless_next :
    next ⟨.into rootName keyless 0, none⟩ = .ok (some ⟨some ⟨1, 0⟩, .text "a"⟩) ⟨.into rootName keyless 1, none⟩ ∧
      next ⟨.into rootName keyless 1, none⟩ = .error
        ⟨.unknownKeyword "x" ["for", "if", "else", "end"], some ⟨1, 3⟩, some rootName⟩ ⟨.into rootName keyless 4, none⟩ ∧
      next ⟨.into rootName keyless 4, none⟩ = .ok (some ⟨some ⟨1, 4⟩, .text " b"⟩) ⟨.into rootName keyless 6, none⟩ ∧
      next ⟨.into rootName keyless 6, none⟩ = .ok none ⟨.into rootName keyless 6, none⟩ := by
  refine ⟨?_, ?_, ?_, ?_⟩ <;> cbv

/-- Looking at the tag fails, and the rest of it is a text. -/
theorem lookahead_transparent_keyless :
    (ofSource rootName keyless).taken [.peek, .next, .atEnd, .next] = [some ⟨some ⟨1, 0⟩, .text "a"⟩] ∧
      (∃ problem after, Call.atEnd.answer ((ofSource rootName keyless).afterCalls [.peek, .next]) = .error problem after ∧
        ((ofSource rootName keyless).afterCalls [.peek, .next]).next = .error problem after ∧
        after = ⟨.into rootName keyless 4, none⟩) ∧
      (((ofSource rootName keyless).afterCalls [.peek, .next, .atEnd, .peek]).afterCalls [.atEnd, .peek]).next =
        .ok (some ⟨some ⟨1, 4⟩, .text " b"⟩) ⟨.into rootName keyless 6, none⟩ := by
  obtain ⟨first, refused, second, _⟩ := keyless_next
  have start : ofSource rootName keyless = ⟨.into rootName keyless 0, none⟩ := rfl
  have once : (ofSource rootName keyless).afterCalls [.peek, .next] = ⟨.into rootName keyless 1, none⟩ := by
    rw [start, afterCalls_given first, Call.leaves, afterCalls_given (next_of_look first)]
    rfl
  have behind : (ofSource rootName keyless).afterCalls [.peek, .next, .atEnd] = ⟨.into rootName keyless 4, none⟩ := by
    rw [start, afterCalls_given first, Call.leaves, afterCalls_given (next_of_look first), Call.leaves,
      afterCalls_failed refused]
    rfl
  have looked : (ofSource rootName keyless).afterCalls [.peek, .next, .atEnd, .peek] =
      ⟨.into rootName keyless 6, some ⟨some ⟨1, 4⟩, .text " b"⟩⟩ := by
    rw [start, afterCalls_given first, Call.leaves, afterCalls_given (next_of_look first), Call.leaves,
      afterCalls_failed refused, afterCalls_given second]
    rfl
  obtain ⟨sound, _, _⟩ := lookahead_transparent rootName keyless []
  obtain ⟨_, _, stops⟩ := lookahead_transparent rootName keyless [.peek, .next]
  obtain ⟨_, looks, _⟩ := lookahead_transparent rootName keyless [.peek, .next, .atEnd]
  rw [once] at stops ⊢
  rw [behind] at looks
  rw [looked]
  refine ⟨?_, ?_, ?_⟩
  · refine (sound _).trans ?_
    change taken ⟨.into rootName keyless 0, none⟩ [.next, .next] = _
    simp only [taken, first, refused]
  · have failed := answer_of_fault refused .atEnd
    exact ⟨_, _, failed, stops _ _ _ failed⟩
  · obtain ⟨found, told, again⟩ := looks .peek _ _ (by decide) (answer_of_next second .peek)
    cases told
    exact (again [.atEnd, .peek] (by decide)).2.2

end Lexer
end Stencil
