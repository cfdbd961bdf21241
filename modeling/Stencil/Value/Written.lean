import Stencil.Value.Basic
import Stencil.Number.Shortest
import Stencil.Text.Quoted

/-! The texts of values: in full, with quotes, as they stand inside a collection, and plain, as they stand in the
output. -/

namespace Stencil
open Text

namespace Value

def separated (parts : List String) : String := String.intercalate ", " parts

mutual
def written : Value → String
  | .null => "None"
  | .bool flag => if flag then "True" else "False"
  | .int number => toString number
  | .float number => number.text
  | .text content => quotedPoints content
  | .bytes content => quotedBytes content
  | .list items => "[" ++ separated (writtenEach items) ++ "]"
  | .tuple items => "(" ++ separated (writtenEach items) ++ (if items.length = 1 then ",)" else ")")
  | .dict entries => "\x7b" ++ separated (writtenEntries entries) ++ "\x7d"
  | .stream id => "<stream " ++ toString id ++ ">"
  | .missing => "NOT_FOUND"

def writtenEach : List Value → List String
  | [] => []
  | item :: items => written item :: writtenEach items

def writtenEntries : List (Value × Value) → List String
  | [] => []
  | (key, value) :: entries => (written key ++ ": " ++ written value) :: writtenEntries entries
end

/-- What a value adds to the output: a text adds itself, and null and missing values add nothing. -/
def plain : Value → List CodePoint
  | .null | .missing => []
  | .text content => content
  | value => value.written

end Value
end Stencil
