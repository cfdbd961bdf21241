import Stencil.Position

/-! A place in a source being read, with the line and the column of the next character. -/

namespace Stencil

structure Cursor where
  source : String
  /-- What has been read, the nearest character first. -/
  before : List Char
  rest : List Char
  line : Nat
  column : Nat
  deriving DecidableEq, Repr

namespace Cursor

def ofSource (source content : String) : Cursor := ⟨source, [], content.toList, 1, 0⟩

def offset (cursor : Cursor) : Nat := cursor.before.length

def position (cursor : Cursor) : Position := ⟨cursor.line, cursor.column⟩

def atEnd (cursor : Cursor) : Bool := cursor.rest.isEmpty

def next? (cursor : Cursor) : Option Char := cursor.rest.head?

def nextText (cursor : Cursor) : String := String.ofList (cursor.rest.take 1)

def look (cursor : Cursor) (ahead : Nat) : Option Char := cursor.rest[ahead]?

def startsWith (cursor : Cursor) (literal : List Char) : Bool := literal.isPrefixOf cursor.rest

/-- One character on. The end stays where it is. -/
def forward (cursor : Cursor) : Cursor :=
  match cursor.rest with
  | [] => cursor
  | c :: rest =>
    { cursor with
      before := c :: cursor.before
      rest := rest
      line := if c = '\n' then cursor.line + 1 else cursor.line
      column := if c = '\n' then 0 else cursor.column + 1 }

def forwardBy : Nat → Cursor → Cursor
  | 0, cursor => cursor
  | count + 1, cursor => forwardBy count cursor.forward

def pastWhile (keep : Char → Bool) (cursor : Cursor) : Cursor :=
  cursor.forwardBy (cursor.rest.takeWhile keep).length

@[simp] theorem rest_forward (cursor : Cursor) : cursor.forward.rest = cursor.rest.tail := by
  unfold forward
  split <;> simp_all

@[simp] theorem rest_forwardBy (count : Nat) (cursor : Cursor) :
    (forwardBy count cursor).rest = cursor.rest.drop count := by
  induction count generalizing cursor with
  | zero => rfl
  | succ count ih => simp [forwardBy, ih]

@[simp] theorem rest_pastWhile (keep : Char → Bool) (cursor : Cursor) :
    (cursor.pastWhile keep).rest = cursor.rest.dropWhile keep := by
  simp only [pastWhile, rest_forwardBy]
  induction cursor.rest with
  | nil => rfl
  | cons c rest ih => by_cases kept : keep c <;> simp [List.takeWhile, List.dropWhile, kept, ih]

end Cursor

end Stencil
