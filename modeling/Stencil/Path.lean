import Stencil.Value.Basic

/-! Dotted paths: each segment is a key of what the segments before it lead to. -/

namespace Stencil

namespace Path

/-- The parts between the points. There is one more of them than there are points. -/
def split : List Char → List (List Char)
  | [] => [[]]
  | c :: rest => if c = '.' then [] :: split rest else (split rest).modifyHead (c :: ·)

def segments (path : String) : List String := (split path.toList).map String.ofList

end Path

namespace Value

def isMissing : Value → Bool
  | .missing => true
  | _ => false

def isKey (name : String) : Value → Bool
  | .text content => content = Text.points name
  | _ => false

/-- What a collection of named values holds under a name. Nothing else holds anything. -/
def child (name : String) : Value → Value
  | .dict entries => ((entries.find? fun entry => isKey name entry.1).map Prod.snd).getD .missing
  | _ => .missing

def follow (value : Value) (segments : List String) : Value :=
  segments.foldl (fun current segment => current.child segment) value

def lookup (value : Value) (path : String) : Value := value.follow (Path.segments path)

end Value
end Stencil
