import Stencil.Value.Basic

/-! Equality of values. Inside collections the truth values are the numbers one and zero and an undefined number is
equal to itself; at the top, truth values and numbers are kept apart, as are values of different kinds. -/

namespace Stencil
open Number

namespace Value

def ofFlag (flag : Bool) : Int := if flag then 1 else 0

mutual
/-- Equality as collections see it, for their elements and their keys. -/
def alike : Value → Value → Bool
  | .null, .null => true
  | .missing, .missing => true
  | .bool left, .bool right => left = right
  | .bool left, .int right => ofFlag left = right
  | .bool left, .float right => right.equalsInt (ofFlag left)
  | .int left, .bool right => left = ofFlag right
  | .int left, .int right => left = right
  | .int left, .float right => right.equalsInt left
  | .float left, .bool right => left.equalsInt (ofFlag right)
  | .float left, .int right => left.equalsInt right
  | .float left, .float right => left = right || left.equals right
  | .text left, .text right => left = right
  | .bytes left, .bytes right => left = right
  | .list left, .list right => alikeEach left right
  | .tuple left, .tuple right => alikeEach left right
  | .dict left, .dict right => left.length = right.length && alikeEntries left right
  | .stream left, .stream right => left = right
  | _, _ => false

def alikeEach : List Value → List Value → Bool
  | [], [] => true
  | left :: lefts, right :: rights => alike left right && alikeEach lefts rights
  | _, _ => false

/-- Every entry on the left has an entry of the same key and value on the right. -/
def alikeEntries : List (Value × Value) → List (Value × Value) → Bool
  | [], _ => true
  | (key, value) :: lefts, right =>
    (match right.find? (fun entry => alike key entry.1) with
      | some entry => alike value entry.2
      | none => false) && alikeEntries lefts right
end

/-- Equality as conditions see it. Numbers compare by value, whatever their kind; a truth value equals only a truth
value, a missing value only a missing one. -/
def strictEquals : Value → Value → Bool
  | .float left, .float right => left.equals right
  | .bool _, .int _ | .bool _, .float _ | .int _, .bool _ | .float _, .bool _ => false
  | left, right => alike left right

/-- Puts a value under a key. A key that is there already stays as it was first written, and in its place. -/
def put (key value : Value) : List (Value × Value) → List (Value × Value)
  | [] => [(key, value)]
  | (other, held) :: rest => if alike other key then (other, value) :: rest else (other, held) :: put key value rest

def dictOf (pairs : List (Value × Value)) : Value :=
  .dict (pairs.foldl (fun entries (key, value) => put key value entries) [])

end Value
end Stencil
