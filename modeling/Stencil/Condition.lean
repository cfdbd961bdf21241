import Stencil.Failure
import Stencil.Node
import Stencil.Number.Numeral
import Stencil.Token.Basic

/-! Conditions. A test is a value, two values compared, or a value that exists. Tests are joined by connectives of equal
rank, each of which takes all that follows as its right operand. -/

namespace Stencil
open Diagnostic Number

namespace Condition

open Expression (Piece)

/-- The name that nothing binds unless the data does. A value exists if it differs from what this name stands for. -/
def absentName : String := "undefined"

structure Site where
  tag : Option Position
  source : String

namespace Site

def failAt {α : Type} (site : Site) (position : Option Position) (malformation : Malformation) : Except CompileFailure α :=
  .error (.diagnosed ⟨.malformed malformation, position, some site.source⟩)

end Site

def truthValue? (word : String) : Option Bool :=
  let lower := word.toList.map Char.toLower
  if lower = ['t', 'r', 'u', 'e'] then some true
  else if lower = ['f', 'a', 'l', 's', 'e'] then some false
  else none

def valueOf (site : Site) (piece : Piece) : Except CompileFailure Node :=
  match piece.kind with
  | .identifier =>
    match truthValue? piece.value with
    | some flag => .ok (.constant .boolean (.bool flag))
    | none => .ok (.variable piece.value)
  | .string => .ok (.constant .string (.text piece.value))
  | .number =>
    match numeral? piece.value with
    | some number => .ok (.constant .number (.float number))
    | none => .error (.unreadableNumber piece.value)
  | .operator => site.failAt piece.position (.operatorAsValue piece.value)

def comparison? (piece : Piece) : Option Node.Operator :=
  if piece.kind = .operator then
    if piece.value = "==" then some .equals else if piece.value = "!=" then some .differs else none
  else none

def connective? (piece : Piece) : Option Node.Operator :=
  if piece.kind = .operator then
    if piece.value = "&&" then some .and else if piece.value = "||" then some .or else none
  else none

def isExistence (piece : Piece) : Bool := piece.kind = .identifier && piece.value = "exists"

def test (site : Site) : List Piece → Except CompileFailure (Node × List Piece)
  | [] => site.failAt site.tag .noValue
  | first :: rest => do
    let left ← valueOf site first
    match rest with
    | [] => return (left, [])
    | follower :: rest =>
      match comparison? follower with
      | some operator =>
        match rest with
        | [] => site.failAt follower.position (.noRightOperand follower.value)
        | second :: rest => return (.binary operator left (← valueOf site second), rest)
      | none =>
        if isExistence follower then return (.binary .differs left (.variable absentName), rest)
        else return (left, follower :: rest)

theorem test_shorter {site : Site} {pieces rest : List Piece} {node : Node} (done : test site pieces = .ok (node, rest)) :
    rest.length < pieces.length := by
  cases pieces with
  | nil => cases done
  | cons first more =>
    simp only [test, bind, Except.bind] at done
    split at done
    · cases done
    split at done
    · cases done; simp
    split at done
    · split at done
      · cases done
      · split at done
        · cases done
        · cases done; simp; omega
    · split at done <;> cases done <;> simp only [List.length_cons] <;> omega

def tests (site : Site) (pieces : List Piece) : Except CompileFailure (Node × List Piece) :=
  match _taken : test site pieces with
  | .error failure => .error failure
  | .ok (left, []) => .ok (left, [])
  | .ok (left, joint :: rest) =>
    match connective? joint with
    | none => site.failAt joint.position (.noConnective joint.value)
    | some operator =>
      if rest.isEmpty then site.failAt joint.position (.noRightOperand joint.value)
      else do
        let (right, rest) ← tests site rest
        return (.binary operator left right, rest)
termination_by pieces.length
decreasing_by
  have shorter := test_shorter _taken
  simp only [List.length_cons] at shorter
  omega

def ofPieces (site : Site) (pieces : List Piece) : Except CompileFailure Node :=
  if pieces.isEmpty then site.failAt site.tag .empty
  else do
    let (node, rest) ← tests site pieces
    match rest with
    | [] => return node
    | extra :: _ => site.failAt extra.position (.leftOver extra.value)

end Condition
end Stencil
