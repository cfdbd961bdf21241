import Stencil.Position

/-! Tokens: the pieces of a template's source. Text stands for itself; every other token is one tag. A token read from a
source has a position there; one made otherwise may have none. -/

namespace Stencil

namespace Expression

inductive Kind where
  | identifier
  | string
  | number
  | operator
  deriving DecidableEq, Repr

/-- A piece of the condition in an `if` tag. A string has lost its quotes. -/
structure Piece where
  kind : Kind
  value : String
  position : Option Position
  deriving DecidableEq, Repr

end Expression

namespace Token

inductive Form where
  | text (content : String)
  | variable (path : String)
  | inclusion (name : String)
  | loop (iterable binding : String)
  | choice (condition : List Expression.Piece)
  | otherwise
  | close
  /-- A token that says nothing but where it stands. No source has one. -/
  | bare
  deriving DecidableEq, Repr

end Token

structure Token where
  position : Option Position
  form : Token.Form
  deriving DecidableEq, Repr

end Stencil
