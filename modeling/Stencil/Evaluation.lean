import Stencil.Environment
import Stencil.Failure
import Stencil.Node
import Stencil.Session
import Stencil.Value.Same

/-! What a tree comes to in an environment. Loops may draw from streams, so an evaluation changes what is left of them,
also where it fails. -/

namespace Stencil
open Text

abbrev Evaluating := EStateM RenderFailure Session

namespace Evaluating

def draw (id : Nat) : Evaluating (Option Value) := do
  match (← get).remaining id with
  | [] => return none
  | value :: rest =>
    modify fun session => { session with streams := session.streams.set id rest }.record (.drawn id value)
    return some value

def overItems (round : Value → Evaluating Value) : List Value → Evaluating (List Value)
  | [] => return []
  | item :: items => do
    let part ← round item
    return part :: (← overItems round items)

/-- One round for each value that the stream still holds when its turn comes. No more rounds are possible than the
stream held values at first. -/
def overStream (round : Value → Evaluating Value) (id : Nat) : Nat → Evaluating (List Value)
  | 0 => return []
  | rounds + 1 => do
    match ← draw id with
    | none => return []
    | some item =>
      let part ← round item
      return part :: (← overStream round id rounds)

/-- The texts of all rounds in one. Whatever is no text has no place there. -/
def joinRounds (index : Nat) : List Value → Evaluating (List CodePoint)
  | [] => return []
  | .text content :: parts => do return content ++ (← joinRounds (index + 1) parts)
  | part :: _ => throw (.notText index part.kind)

def overAll (path : String) (position : Option Position) (round : Value → Evaluating Value) (source : Value) :
    Evaluating (List Value) := do
  match source with
  | .list items => overItems round items
  | .tuple items => overItems round items
  | .stream id => overStream round id ((← get).remaining id).length
  | _ => throw (.notIterable path position)

def runLoop (path : String) (position : Option Position) (round : Value → Evaluating Value) (source : Value) :
    Evaluating Value := do
  let parts ← overAll path position round source
  modify fun session => session.record (.finished path parts.length)
  return .text (← joinRounds 0 parts)

end Evaluating

namespace Node
open Evaluating

mutual
def evaluate (environment : Environment) : Node → Evaluating Value
  | .block children => do return .text (← evaluateEach environment children)
  | .constant _ value => return value
  | .variable path => return environment.resolve path
  | .binary .equals left right => do
    let first ← evaluate environment left
    let second ← evaluate environment right
    return .bool (first.strictEquals second)
  | .binary .differs left right => do
    let first ← evaluate environment left
    let second ← evaluate environment right
    return .bool !(first.strictEquals second)
  | .binary .and left right => do
    let first ← evaluate environment left
    if first.truthy then return .bool (← evaluate environment right).truthy else return .bool false
  | .binary .or left right => do
    let first ← evaluate environment left
    if first.truthy then return .bool true else return .bool (← evaluate environment right).truthy
  | .loop iterable binding body position =>
    runLoop iterable position (fun item => evaluate (environment.bind binding item) body) (environment.resolve iterable)
  | .choice condition consequence alternative => do
    let decided ← evaluate environment condition
    if decided.truthy then evaluate environment consequence else evaluate environment alternative
  | .stray value => throw (.notANode value)

def evaluateEach (environment : Environment) : List Node → Evaluating (List CodePoint)
  | [] => return []
  | child :: children => do
    let value ← evaluate environment child
    return value.plain ++ (← evaluateEach environment children)
end

end Node
end Stencil
