/-! Places in a template's source: lines count from one, columns from zero, both in characters. -/

namespace Stencil

structure Position where
  line : Int
  column : Int
  deriving DecidableEq, Repr

namespace Position

def text (position : Position) : String :=
  "line " ++ toString position.line ++ ", column " ++ toString position.column

end Position
end Stencil
