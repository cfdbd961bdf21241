import Stencil.Token.Tag

/-! A source as a sequence of tokens, read one at a time. Text runs up to the first place where a tag opens. -/

namespace Stencil
open Scan

namespace Token

def opensTag : List Char → Bool
  | '{' :: c :: _ => c == '{' || c == '%' || c == '>'
  | _ => false

/-- The longest beginning in which no tag opens, not even one that the character after it completes. -/
def plainText : List Char → List Char
  | [] => []
  | c :: rest => if opensTag (c :: rest) then [] else c :: plainText rest

def readText : Scan Form := do
  let run := plainText (← get).rest
  modify (Cursor.forwardBy run.length)
  return .text (String.ofList run)

def readForm : Scan Form := do
  let cursor ← get
  if cursor.startsWith variableOpen then readVariable
  else if cursor.startsWith controlOpen then readControl
  else if cursor.startsWith inclusionOpen then readInclusion
  else readText

def read? : Scan (Option Token) := do
  let cursor ← get
  if cursor.atEnd then return none
  else return some ⟨some cursor.position, ← readForm⟩

theorem opensTag_eq (chars : List Char) : opensTag chars =
    (variableOpen.isPrefixOf chars || controlOpen.isPrefixOf chars || inclusionOpen.isPrefixOf chars) := by
  unfold opensTag variableOpen controlOpen inclusionOpen
  split
  · simp [List.isPrefixOf, BEq.comm (a := '{'), BEq.comm (a := '%'), BEq.comm (a := '>')]
  next unopened =>
    rcases chars with _ | ⟨a, _ | ⟨b, rest⟩⟩
    · rfl
    · simp [List.isPrefixOf]
    · have other : a ≠ '{' := fun same => unopened b rest (same ▸ rfl)
      simp [List.isPrefixOf, other.symm]

theorem consumes_readForm {cursor : Cursor} (more : cursor.atEnd = false) : Consumes readForm cursor := by
  apply Consumes.after_get
  split
  · exact consumes_readVariable cursor
  split
  · exact consumes_readControl cursor
  split
  · exact consumes_readInclusion cursor
  next noVariable noControl noInclusion =>
    intro _ after done
    cases done
    have plain : opensTag cursor.rest = false := by
      simp only [Cursor.startsWith, Bool.not_eq_true] at noVariable noControl noInclusion
      simp [opensTag_eq, noVariable, noControl, noInclusion]
    cases ahead : cursor.rest with
    | nil => simp [Cursor.atEnd, ahead] at more
    | cons c rest =>
      rw [ahead] at plain
      simp only [Cursor.rest_forwardBy, ahead, plainText, plain, List.length_cons, List.length_drop]
      simp only [Bool.false_eq_true, if_false, List.length_cons]
      omega

theorem consumes_read {cursor after : Cursor} {token : Token} (done : read? cursor = .ok (some token) after) :
    after.rest.length < cursor.rest.length := by
  obtain ⟨_, _, got, done⟩ := bind_eq_ok done
  cases got
  split at done
  · cases done
  next more =>
    obtain ⟨form, middle, taken, done⟩ := bind_eq_ok done
    cases done
    exact consumes_readForm (by simpa using more) form _ taken

end Token

/-- A token that has been looked at but not taken is held. -/
structure Lexer where
  cursor : Cursor
  held : Option Token
  deriving Repr

namespace Lexer

def ofSource (source content : String) : Lexer := ⟨.ofSource source content, none⟩

/-- The next token, which stays next. -/
def peek : EStateM Diagnostic Lexer (Option Token) := fun lexer =>
  match lexer.held with
  | some token => .ok (some token) lexer
  | none =>
    match Token.read? lexer.cursor with
    | .ok token after => .ok token ⟨after, token⟩
    | .error problem after => .error problem ⟨after, none⟩

def next : EStateM Diagnostic Lexer (Option Token) := do
  let token ← peek
  modify fun lexer => { lexer with held := none }
  return token

def atEnd : EStateM Diagnostic Lexer Bool := do
  return (← peek).isNone

def size (lexer : Lexer) : Nat := lexer.cursor.rest.length + if lexer.held.isSome then 1 else 0

theorem next_smaller {lexer after : Lexer} {token : Token} (done : next lexer = .ok (some token) after) :
    after.size < lexer.size := by
  obtain ⟨cursor, held⟩ := lexer
  cases held with
  | some token =>
    cases done
    simp [size]
  | none =>
    change EStateM.bind peek _ _ = _ at done
    cases taken : Token.read? cursor with
    | error problem between => simp [EStateM.bind, peek, taken] at done
    | ok found between =>
      simp only [EStateM.bind, peek, taken] at done
      cases done
      simpa [size] using Token.consumes_read taken

/-- To look whether there is a next token before it is taken changes nothing. -/
theorem look_then_next (lexer : Lexer) :
    (do if ← atEnd then return none else next : EStateM Diagnostic Lexer (Option Token)) lexer = next lexer := by
  obtain ⟨cursor, held⟩ := lexer
  cases held with
  | some token => rfl
  | none =>
    change EStateM.bind atEnd _ _ = EStateM.bind peek _ _
    simp only [EStateM.bind, atEnd, bind, pure, EStateM.pure, peek]
    cases read : Token.read? cursor with
    | error problem after => rfl
    | ok found after => cases found <;> rfl

end Lexer
end Stencil
