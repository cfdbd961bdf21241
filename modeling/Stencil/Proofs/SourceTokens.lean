import Mathlib.Data.List.TakeWhile
import Stencil.Proofs.NumeralDigits
import Stencil.Proofs.TokenRun

/-! The tokens of a source. They are what reading one token gives, over and over from where the one before ended. Every one
says what it is, and a number in a condition is a run of digits. -/

namespace Stencil
open Text Number Scan

namespace Scan
variable {α β : Type}

def Gives (step : Scan α) (post : α → Prop) : Prop := ∀ cursor value after, step cursor = .ok value after → post value

theorem Gives.bind {step : Scan α} {next : α → Scan β} {middle : α → Prop} {post : β → Prop} (first : Gives step middle)
    (rest : ∀ value, middle value → Gives (next value) post) : Gives (step >>= next) post := by
  intro cursor value after done
  obtain ⟨between, there, taken, finished⟩ := bind_eq_ok done
  exact rest between (first cursor between there taken) there value after finished

theorem Gives.after {step : Scan α} {next : α → Scan β} {post : β → Prop} (rest : ∀ value, Gives (next value) post) :
    Gives (step >>= next) post :=
  Gives.bind (fun _ _ _ _ => trivial) fun value (_ : True) => rest value

theorem gives_pure {value : α} {post : α → Prop} (holds : post value) : Gives (pure value) post := by
  intro cursor _ _ done
  cases done
  exact holds

theorem gives_failAt (position : Position) (cause : Diagnostic.Cause) (post : α → Prop) :
    Gives (failAt position cause) post := by
  intro _ _ _ done
  cases done

theorem gives_fail (cause : Diagnostic.Cause) (post : α → Prop) : Gives (fail cause) post :=
  .after fun _ => gives_failAt _ _ _

theorem gives_unexpected (expected : String) (post : α → Prop) : Gives (unexpected expected) post :=
  .after fun _ => gives_fail _ _

theorem gives_readWhile (keep : Char → Bool) : Gives (readWhile keep) fun text => ∀ c ∈ text.toList, keep c = true := by
  intro cursor text after done
  cases done
  simpa using fun c => List.mem_takeWhile_imp

end Scan

namespace Expression

/-- A piece that, if it is a number, is a run of digits. -/
def Piece.Sound (piece : Piece) : Prop := piece.kind = .number → PointedDigits piece.value.toList

private theorem pointedDigits_of_readNumber {cursor after : Cursor} {c : Char} {text : String}
    (ahead : cursor.next? = some c) (digit : isDigit c = true) (done : readNumber cursor = .ok text after) :
    PointedDigits text.toList := by
  obtain ⟨whole, middle, read, done⟩ := bind_eq_ok done
  have digits := gives_readWhile isDigit cursor whole middle read
  have filled : whole.toList ≠ [] := by
    cases read
    obtain ⟨rest, split⟩ : ∃ rest, cursor.rest = c :: rest := List.head?_eq_some_iff.mp ahead
    simp [split, digit]
  obtain ⟨_, _, got, done⟩ := bind_eq_ok done
  cases got
  split at done
  next point =>
    obtain ⟨mark, behind, advanced, done⟩ := bind_eq_ok done
    obtain ⟨places, last, read, done⟩ := bind_eq_ok done
    have fraction := gives_readWhile isDigit behind places last read
    have same : mark = '.' := by
      simp only [Bool.and_eq_true, decide_eq_true_eq] at point
      obtain ⟨_, _, got, advanced⟩ := bind_eq_ok advanced
      cases got
      simp only [point.1] at advanced
      cases advanced
      rfl
    have written : text.toList = whole.toList ++ '.' :: places.toList := by
      cases done
      simp [same]
    exact ⟨_, filled, digits, .inr ⟨_, fraction, written⟩⟩
  next =>
    cases done
    exact ⟨_, filled, digits, .inl rfl⟩

theorem gives_readPiece : Gives readPiece Piece.Sound := by
  intro cursor piece after done
  obtain ⟨_, _, got, done⟩ := bind_eq_ok done
  cases got
  cases found : cursor.next?.bind kindOf? with
  | none =>
    simp only [found] at done
    cases done
  | some kind =>
    simp only [found] at done
    obtain ⟨value, middle, read, done⟩ := bind_eq_ok done
    cases done
    intro same
    subst same
    obtain ⟨c, ahead, begins⟩ := Option.bind_eq_some_iff.mp found
    refine pointedDigits_of_readNumber ahead ?_ read
    unfold kindOf? at begins
    repeat' split at begins
    all_goals cases begins
    assumption

theorem gives_readAll : Gives readAll fun pieces => ∀ piece ∈ pieces, Piece.Sound piece := by
  intro cursor pieces final done
  fun_induction readAll cursor generalizing pieces final with
  | case1 => cases done
  | case2 =>
    cases done
    simp
  | case3 => cases done
  | case4 => cases done
  | case5 cursor start _ _ piece after taken pieces final more ih =>
    cases done
    simpa using ⟨gives_readPiece start piece after taken, ih pieces final more⟩

end Expression

namespace Token

def Form.Sound : Form → Prop
  | .choice pieces => ∀ piece ∈ pieces, Expression.Piece.Sound piece
  | .bare => False
  | _ => True

private theorem gives_closeControl {form : Form} (sound : form.Sound) : Gives (closeControl form) Form.Sound :=
  .after fun _ => .after fun _ => gives_pure sound

private theorem gives_readLoop : Gives readLoop Form.Sound := by
  apply Gives.after
  intro _
  apply Gives.after
  intro iterable
  split
  · exact gives_unexpected _ _
  apply Gives.after
  intro _
  apply Gives.after
  intro _
  apply Gives.after
  intro _
  split
  · exact .after fun _ => .after fun binding => gives_closeControl trivial
  · exact gives_unexpected _ _

private theorem gives_readControl : Gives readControl Form.Sound := by
  apply Gives.after
  intro _
  apply Gives.after
  intro _
  apply Gives.after
  intro _
  split
  · exact gives_fail _ _
  apply Gives.after
  intro word
  split
  next keyword _ =>
    cases keyword with
    | loop => exact gives_readLoop
    | choice => exact Expression.gives_readAll.bind fun pieces sound => gives_pure sound
    | otherwise => exact gives_closeControl trivial
    | close => exact gives_closeControl trivial
  · exact gives_failAt _ _ _

theorem gives_readForm : Gives readForm Form.Sound := by
  apply Gives.after
  intro cursor
  split
  · exact .after fun _ => .after fun _ => .after fun _ => .after fun _ => .after fun _ => gives_pure trivial
  split
  · exact gives_readControl
  split
  · exact .after fun _ => .after fun _ => .after fun _ => .after fun _ => .after fun _ => gives_pure trivial
  · exact .after fun _ => .after fun _ => gives_pure trivial

theorem gives_read : Gives read? fun token? => ∀ token, token? = some token → token.form.Sound := by
  apply Gives.after
  intro cursor
  split
  · exact gives_pure (by simp)
  · refine gives_readForm.bind fun form sound => gives_pure ?_
    rintro _ ⟨⟩
    exact sound

end Token

namespace Lexer

theorem next_fresh (cursor : Cursor) : next ⟨cursor, none⟩ =
    match Token.read? cursor with
    | .ok token after => .ok token ⟨after, none⟩
    | .error problem after => .error problem ⟨after, none⟩ := by
  change EStateM.bind peek _ _ = _
  simp only [EStateM.bind, peek]
  cases Token.read? cursor <;> rfl

theorem next_ok_iff {cursor : Cursor} {found : Option Token} {after : Lexer} : next ⟨cursor, none⟩ = .ok found after ↔
    ∃ there, Token.read? cursor = .ok found there ∧ after = ⟨there, none⟩ := by
  rw [next_fresh]
  cases Token.read? cursor with
  | error problem there => simp
  | ok found' there => simp [eq_comm]

end Lexer

/-- The tokens from a place on, what goes wrong after them, and where the reading ends. -/
abbrev tokensFrom (cursor : Cursor) : List Token × Option Diagnostic × Lexer := TokenStream.drain (⟨cursor, none⟩ : Lexer)

section
variable {cursor after : Cursor}

theorem tokensFrom_fault {problem : Diagnostic} (failed : Token.read? cursor = .error problem after) :
    tokensFrom cursor = ([], some problem, ⟨after, none⟩) := by
  have stopped : TokenStream.next (⟨cursor, none⟩ : Lexer) = .error problem ⟨after, none⟩ := by
    rw [show TokenStream.next = Lexer.next from rfl, Lexer.next_fresh, failed]
  exact TokenStream.drain_fault stopped

theorem tokensFrom_done (ended : Token.read? cursor = .ok none after) : tokensFrom cursor = ([], none, ⟨after, none⟩) := by
  have stopped : TokenStream.next (⟨cursor, none⟩ : Lexer) = .ok none ⟨after, none⟩ := by
    rw [show TokenStream.next = Lexer.next from rfl, Lexer.next_fresh, ended]
  exact TokenStream.drain_done stopped

theorem tokensFrom_token {token : Token} (read : Token.read? cursor = .ok (some token) after) :
    tokensFrom cursor = (token :: (tokensFrom after).1, (tokensFrom after).2) := by
  have taken : TokenStream.next (⟨cursor, none⟩ : Lexer) = .ok (some token) ⟨after, none⟩ := by
    rw [show TokenStream.next = Lexer.next from rfl, Lexer.next_fresh, read]
  exact TokenStream.drain_token taken

end

/-- One step of reading for each token, and each step shortens what is left. -/
theorem tokensFrom_induction {motive : Cursor → Prop}
    (fault : ∀ cursor problem after, Token.read? cursor = .error problem after → motive cursor)
    (done : ∀ cursor after, Token.read? cursor = .ok none after → motive cursor)
    (token : ∀ cursor token after, Token.read? cursor = .ok (some token) after → motive after → motive cursor)
    (cursor : Cursor) : motive cursor := by
  induction size : cursor.rest.length using Nat.strongRecOn generalizing cursor with
  | ind length ih =>
    cases read : Token.read? cursor with
    | error problem after => exact fault cursor problem after read
    | ok found after =>
      cases found with
      | none => exact done cursor after read
      | some found => exact token cursor found after read (ih _ (size ▸ Token.consumes_read read) after rfl)

/-- A source parses to what its tokens leave in the draft. -/
theorem parse_of_tokens {registry : Registry} {chain : List String} {source content : String} {tokens : List Token}
    {ended : Lexer} {nodes : List Node} (read : tokensFrom (.ofSource source content) = (tokens, none, ended))
    (taken : Draft.empty.acceptAll (expand registry chain) source tokens = .ok ⟨nodes, []⟩) :
    (parse registry chain source (Lexer.ofSource source content)).1.result = .ok (.block nodes.reverse) := by
  have drained : TokenStream.drain (Lexer.ofSource source content) = (tokens, none, ended) := read
  exact parse_ok.mpr ⟨by rw [drained], nodes, rfl, by rw [drained]; exact taken⟩

theorem sound_of_mem_tokensFrom {cursor : Cursor} {token : Token} (member : token ∈ (tokensFrom cursor).1) :
    token.form.Sound := by
  induction cursor using tokensFrom_induction with
  | fault cursor problem after failed => simp [tokensFrom_fault failed] at member
  | done cursor after ended => simp [tokensFrom_done ended] at member
  | token cursor first after read ih =>
    rw [tokensFrom_token read] at member
    rcases List.mem_cons.mp member with rfl | later
    · exact Token.gives_read cursor _ after read token rfl
    · exact ih later

end Stencil
