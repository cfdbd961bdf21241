import Stencil.Token.Expression

/-! Tags: a variable between double braces, a partial after an angle bracket, and control tags between percent signs,
which a keyword begins. No tag is read past the mark that closes it. -/

namespace Stencil
open Diagnostic Text Scan

namespace Expression

def controlClose : List Char := ['%', '}']

def readAll (cursor : Cursor) : EStateM.Result Diagnostic Cursor (List Piece) :=
  let start := cursor.pastWhile isBlank
  if start.atEnd then fail (.endOfInput .expressionEnd) start
  else if start.startsWith controlClose then .ok [] (start.forwardBy 2)
  else match _taken : readPiece start with
    | .error problem after => .error problem after
    | .ok piece after =>
      match readAll after with
      | .error problem final => .error problem final
      | .ok pieces final => .ok (piece :: pieces) final
termination_by cursor.rest.length
decreasing_by
  have shorter := consumes_readPiece start piece after _taken
  have skipped := (List.dropWhile_sublist isBlank (l := cursor.rest)).length_le
  simp only [start, Cursor.rest_pastWhile] at shorter
  omega

theorem onward_readAll : Onward (readAll : Scan (List Piece)) := by
  intro cursor
  have skipped (cursor : Cursor) : (cursor.pastWhile isBlank).rest.length ≤ cursor.rest.length :=
    onward_skipBlanks cursor
  unfold stop
  fun_induction readAll cursor with
  | case1 cursor start atEnd => exact skipped cursor
  | case2 cursor start _ _ =>
    simp only [Cursor.rest_forwardBy, List.length_drop]
    exact Nat.le_trans (Nat.sub_le _ _) (skipped cursor)
  | case3 cursor start _ _ problem after taken =>
    have moved := onward_readPiece start
    simp only [stop, taken] at moved
    exact Nat.le_trans moved (skipped cursor)
  | case4 cursor start _ _ piece after taken problem final more ih =>
    have moved := onward_readPiece.ok taken
    simp only [more] at ih
    exact Nat.le_trans ih (Nat.le_trans moved (skipped cursor))
  | case5 cursor start _ _ piece after taken pieces final more ih =>
    have moved := onward_readPiece.ok taken
    simp only [more] at ih
    exact Nat.le_trans ih (Nat.le_trans moved (skipped cursor))

end Expression

namespace Token
open Expression (controlClose)

inductive Keyword where
  | loop
  | choice
  | otherwise
  | close
  deriving DecidableEq, Repr

namespace Keyword

def text : Keyword → String
  | .loop => "for"
  | .choice => "if"
  | .otherwise => "else"
  | .close => "end"

def all : List Keyword := [.loop, .choice, .otherwise, .close]

def ofText? (word : String) : Option Keyword := all.find? fun keyword => keyword.text = word

end Keyword

def variableOpen : List Char := ['{', '{']
def variableClose : List Char := ['}', '}']
def inclusionOpen : List Char := ['{', '>']
def inclusionClose : List Char := ['}']
def controlOpen : List Char := ['{', '%']

def isNameEnd (c : Char) : Bool := isBlank c || c = '}'

/-- The name a loop binds is a single key, so it holds no points. -/
def isBindingChar (c : Char) : Bool := isAlphanumeric c || c = '_'

def readName (expected : String) : Scan String := do
  let name ← readWhile fun c => !isNameEnd c
  if name = "" then unexpected expected else return name

def readVariable : Scan Form := do
  expect variableOpen
  skipBlanks
  let path ← readName "a variable name"
  skipBlanks
  expect variableClose
  return .variable path

def readInclusion : Scan Form := do
  expect inclusionOpen
  skipBlanks
  let name ← readName "a partial name"
  skipBlanks
  expect inclusionClose
  return .inclusion name

def closeControl (form : Form) : Scan Form := do
  skipBlanks
  expect controlClose
  return form

/-- The name at hand may end at white space, at a percent sign or with the source. -/
def readBinding : Scan String := do
  let binding ← readWhile isBindingChar
  let cursor ← get
  if binding = "" || cursor.next?.any fun c => !isBlank c && c ≠ '%' then unexpected "a binding name"
  else return binding

def readLoop : Scan Form := do
  skipBlanks
  let iterable ← readWhile fun c => !isBlank c && c ≠ '%'
  if iterable = "" then unexpected "an iterable name"
  else
    skipBlanks
    expect ['a', 's']
    if (← get).next?.any isBlank then
      skipBlanks
      let binding ← readBinding
      closeControl (.loop iterable binding)
    else unexpected "whitespace after 'as'"

def readKeyword : Keyword → Scan Form
  | .loop => readLoop
  | .choice => do return .choice (← Expression.readAll)
  | .otherwise => closeControl .otherwise
  | .close => closeControl .close

def readControl : Scan Form := do
  expect controlOpen
  skipBlanks
  let cursor ← get
  if cursor.atEnd then fail (.endOfInput .keyword)
  else
    let word ← readWhile Expression.isIdentifierChar
    match Keyword.ofText? word with
    | some keyword => readKeyword keyword
    | none => failAt cursor.position (.unknownKeyword word (Keyword.all.map Keyword.text))

private theorem onward_readName (expected : String) : Onward (readName expected) := by
  apply (onward_readWhile _).bind
  intro _
  split
  · exact onward_unexpected _
  · exact onward_pure _

private theorem onward_closeControl (form : Form) : Onward (closeControl form) :=
  onward_skipBlanks.bind fun _ => (onward_expect _).bind fun _ => onward_pure _

private theorem onward_readBinding : Onward readBinding := by
  apply (onward_readWhile _).bind
  intro _
  apply onward_get.bind
  intro _
  split
  · exact onward_unexpected _
  · exact onward_pure _

private theorem onward_readLoop : Onward readLoop := by
  apply onward_skipBlanks.bind
  intro _
  apply (onward_readWhile _).bind
  intro _
  split
  · exact onward_unexpected _
  apply onward_skipBlanks.bind
  intro _
  apply (onward_expect _).bind
  intro _
  apply onward_get.bind
  intro _
  split
  · exact onward_skipBlanks.bind fun _ => onward_readBinding.bind fun _ => onward_closeControl _
  · exact onward_unexpected _

private theorem onward_readKeyword (keyword : Keyword) : Onward (readKeyword keyword) := by
  cases keyword
  · exact onward_readLoop
  · exact Expression.onward_readAll.bind fun _ => onward_pure _
  · exact onward_closeControl _
  · exact onward_closeControl _

theorem consumes_readVariable (cursor : Cursor) : Consumes readVariable cursor :=
  (consumes_expect cursor (by decide)).bind fun _ => onward_skipBlanks.bind fun _ => (onward_readName _).bind fun _ =>
    onward_skipBlanks.bind fun _ => (onward_expect _).bind fun _ => onward_pure _

theorem consumes_readInclusion (cursor : Cursor) : Consumes readInclusion cursor :=
  (consumes_expect cursor (by decide)).bind fun _ => onward_skipBlanks.bind fun _ => (onward_readName _).bind fun _ =>
    onward_skipBlanks.bind fun _ => (onward_expect _).bind fun _ => onward_pure _

theorem consumes_readControl (cursor : Cursor) : Consumes readControl cursor := by
  apply (consumes_expect cursor (by decide)).bind
  intro _
  apply onward_skipBlanks.bind
  intro _
  apply onward_get.bind
  intro _
  split
  · exact onward_fail _
  apply (onward_readWhile _).bind
  intro word
  split
  · exact onward_readKeyword _
  · exact onward_failAt _ _

end Token
end Stencil
