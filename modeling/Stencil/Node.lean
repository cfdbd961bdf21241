import Stencil.Position
import Stencil.Value.Same

/-! The tree of a template. Its constants may hold any value and any node may stand in any place; trees made from a
source hold only what their tags say. -/

namespace Stencil

namespace Node

inductive Origin where
  | text
  | string
  | number
  | boolean
  deriving DecidableEq, Repr

inductive Operator where
  | equals
  | differs
  | and
  | or
  deriving DecidableEq, Repr

end Node

inductive Node where
  | block (children : List Node)
  | constant (origin : Node.Origin) (value : Value)
  | variable (path : String)
  | binary (operator : Node.Operator) (left right : Node)
  | loop (iterable binding : String) (body : Node) (position : Option Position)
  | choice (condition consequence alternative : Node)
  /-- A plain value where a node should be. -/
  | stray (value : Value)
  deriving Repr, Inhabited

namespace Node

def text (content : String) : Node := .constant .text (.text content)

def emptyBlock : Node := .block []

mutual
def count : Node → Nat
  | .block children => 1 + countEach children
  | .binary _ left right => 1 + left.count + right.count
  | .loop _ _ body _ => 1 + body.count
  | .choice condition consequence alternative => 1 + condition.count + consequence.count + alternative.count
  | .constant _ _ | .variable _ | .stray _ => 1

def countEach : List Node → Nat
  | [] => 0
  | child :: children => child.count + countEach children
end

mutual
/-- Equality of trees, for which it does not matter where a loop stood in its source. -/
def alike : Node → Node → Bool
  | .block left, .block right => alikeEach left right
  | .constant origin value, .constant origin' value' => origin = origin' && value.alike value'
  | .variable path, .variable path' => path = path'
  | .binary operator left right, .binary operator' left' right' =>
    operator = operator' && left.alike left' && right.alike right'
  | .loop iterable binding body _, .loop iterable' binding' body' _ =>
    iterable = iterable' && binding = binding' && body.alike body'
  | .choice condition consequence alternative, .choice condition' consequence' alternative' =>
    condition.alike condition' && consequence.alike consequence' && alternative.alike alternative'
  | .stray value, .stray value' => value.alike value'
  | _, _ => false

def alikeEach : List Node → List Node → Bool
  | [], [] => true
  | left :: lefts, right :: rights => left.alike right && alikeEach lefts rights
  | _, _ => false
end

end Node
end Stencil
