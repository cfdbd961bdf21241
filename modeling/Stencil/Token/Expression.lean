import Stencil.Scan
import Stencil.Token.Basic
import Stencil.Text.Digit

/-! The condition of an `if` tag, read up to and over the mark that closes the tag. Its pieces may stand apart or side
by side: a string between quotes of either kind, a number, an operator of two characters, an identifier. -/

namespace Stencil
open Diagnostic Text

namespace Expression

def isQuote (c : Char) : Bool := c = '\'' || c = '"'

def isOperatorStart (c : Char) : Bool := c = '=' || c = '!' || c = '&' || c = '|'

/-- The second character of the operator that a character begins. -/
def partner (c : Char) : Char := if c = '!' then '=' else c

def isIdentifierStart (c : Char) : Bool := isLetter c || c = '_'

/-- Identifiers hold points, so a path is one identifier. -/
def isIdentifierChar (c : Char) : Bool := isAlphanumeric c || c = '_' || c = '.'

def kindOf? (c : Char) : Option Kind :=
  if isQuote c then some .string
  else if isDigit c then some .number
  else if isOperatorStart c then some .operator
  else if isIdentifierStart c then some .identifier
  else none

open Scan

def readString : Scan String := do
  let quote ← advance
  let content ← readWhile (· ≠ quote)
  let _ ← advance
  return content

/-- Digits and, where a point with a digit behind it follows, that point and the digits after it. -/
def readNumber : Scan String := do
  let whole ← readWhile isDigit
  let cursor ← get
  if cursor.next? = some '.' && (cursor.look 1).any isDigit then
    let point ← advance
    let places ← readWhile isDigit
    return whole.push point ++ places
  else return whole

def readOperator : Scan String := do
  let start := (← get).position
  let first ← advance
  let expected := String.ofList [first, partner first]
  let cursor ← get
  if cursor.next? = some (partner first) then
    let _ ← advance
    return expected
  else failAt start (.unknownOperator (String.ofList [first] ++ cursor.nextText) expected)

def readValue : Kind → Scan String
  | .string => readString
  | .number => readNumber
  | .operator => readOperator
  | .identifier => readWhile isIdentifierChar

def readPiece : Scan Piece := do
  let cursor ← get
  match cursor.next?.bind kindOf? with
  | none => unexpected "an expression token"
  | some kind => return ⟨kind, ← readValue kind, some cursor.position⟩

section
variable {cursor : Cursor} {c : Char}

private theorem onward_readString : Onward readString :=
  onward_advance.bind fun _ => (onward_readWhile _).bind fun _ => onward_advance.bind fun _ => onward_pure _

private theorem consumes_readString (cursor : Cursor) : Consumes readString cursor :=
  (consumes_advance cursor).bind fun _ => (onward_readWhile _).bind fun _ => onward_advance.bind fun _ => onward_pure _

private theorem onward_places (whole : String) : Onward (do
    let cursor ← get
    if cursor.next? = some '.' && (cursor.look 1).any isDigit then
      let point ← advance
      let places ← readWhile isDigit
      return whole.push point ++ places
    else return whole) := by
  apply onward_get.bind
  intro _
  split
  · exact onward_advance.bind fun _ => (onward_readWhile _).bind fun _ => onward_pure _
  · exact onward_pure _

private theorem onward_readNumber : Onward readNumber := (onward_readWhile _).bind onward_places

private theorem consumes_readNumber (ahead : cursor.next? = some c) (digit : isDigit c) : Consumes readNumber cursor :=
  (consumes_readWhile ahead digit).bind onward_places

private theorem onward_second (start : Position) (first : Char) : Onward (do
    let expected := String.ofList [first, partner first]
    let cursor ← get
    if cursor.next? = some (partner first) then
      let _ ← advance
      return expected
    else failAt start (.unknownOperator (String.ofList [first] ++ cursor.nextText) expected)) := by
  apply onward_get.bind
  intro _
  split
  · exact onward_advance.bind fun _ => onward_pure _
  · exact onward_failAt _ _

private theorem onward_readOperator : Onward readOperator :=
  onward_get.bind fun _ => onward_advance.bind (onward_second _)

private theorem consumes_readOperator (cursor : Cursor) : Consumes readOperator cursor :=
  .after_get ((consumes_advance cursor).bind (onward_second _))

private theorem onward_readValue (kind : Kind) : Onward (readValue kind) := by
  cases kind
  · exact onward_readWhile _
  · exact onward_readString
  · exact onward_readNumber
  · exact onward_readOperator

private theorem consumes_readValue {kind : Kind} (ahead : cursor.next? = some c) (begins : kindOf? c = some kind) :
    Consumes (readValue kind) cursor := by
  unfold kindOf? at begins
  repeat' split at begins
  all_goals cases begins
  · exact consumes_readString cursor
  next digit => exact consumes_readNumber ahead digit
  · exact consumes_readOperator cursor
  next start =>
    apply consumes_readWhile ahead
    simp only [isIdentifierStart, Bool.or_eq_true] at start
    simp only [isIdentifierChar, isAlphanumeric, Bool.or_eq_true]
    exact .inl (start.imp_left fun letter => .inl (.inl letter))

theorem onward_readPiece : Onward readPiece := by
  apply onward_get.bind
  intro cursor
  split
  · exact onward_unexpected _
  · exact (onward_readValue _).bind fun _ => onward_pure _

theorem consumes_readPiece (cursor : Cursor) : Consumes readPiece cursor := by
  apply Consumes.after_get
  split
  · exact consumes_unexpected _ _
  next found =>
    obtain ⟨c, ahead, begins⟩ := Option.bind_eq_some_iff.mp found
    exact (consumes_readValue ahead begins).bind fun _ => onward_pure _

end
end Expression
end Stencil
