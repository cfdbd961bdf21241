import Stencil.Number.Binary64
import Stencil.Text.CodePoint

/-! The data a template works on. -/

namespace Stencil
open Number Text

inductive Value where
  | null
  | bool (flag : Bool)
  | int (number : Int)
  | float (number : Binary64)
  | text (content : List CodePoint)
  | bytes (content : List UInt8)
  | list (items : List Value)
  | tuple (items : List Value)
  /-- Entries in the order in which their keys came first. -/
  | dict (entries : List (Value × Value))
  /-- A sequence that can be gone through once, known by its number; what is left of it is kept elsewhere. -/
  | stream (id : Nat)
  | missing
  deriving Repr, Inhabited

namespace Value

def kind : Value → String
  | .null => "NoneType"
  | .bool _ => "bool"
  | .int _ => "int"
  | .float _ => "float"
  | .text _ => "str"
  | .bytes _ => "bytes"
  | .list _ => "list"
  | .tuple _ => "tuple"
  | .dict _ => "dict"
  | .stream _ => "generator"
  | .missing => "_NotFound"

/-- Empty values, zeros, the null value and missing ones count as false. A stream is true even when nothing is left
of it. -/
def truthy : Value → Bool
  | .null | .missing => false
  | .bool flag => flag
  | .int number => number ≠ 0
  | .float number => !number.isZero
  | .text content => !content.isEmpty
  | .bytes content => !content.isEmpty
  | .list items | .tuple items => !items.isEmpty
  | .dict entries => !entries.isEmpty
  | .stream _ => true

end Value
end Stencil
