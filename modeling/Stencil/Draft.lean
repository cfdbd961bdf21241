import Stencil.Compilation
import Stencil.Node

/-! A tree in the making: the nodes of the innermost open block, and the constructs around it whose end tags have not
come yet. -/

namespace Stencil
open Diagnostic

/-- A construct that is open, and the part of it that is being filled. -/
inductive Opening where
  | loop (iterable binding : String)
  | consequence (condition : Node)
  | alternative (condition consequence : Node)

namespace Opening

def keyword : Opening → String
  | .loop _ _ => "for"
  | .consequence _ => "if"
  | .alternative _ _ => "if"

def close (opening : Opening) (position : Option Position) (body : Node) : Node :=
  match opening with
  | .loop iterable binding => .loop iterable binding body position
  | .consequence condition => .choice condition body .emptyBlock
  | .alternative condition first => .choice condition first body

end Opening

structure Enclosure where
  opening : Opening
  /-- The place of the tag that opened it. -/
  position : Option Position
  /-- What stands before it in its own block, the nearest first. -/
  siblings : List Node

structure Draft where
  /-- The nearest first. -/
  nodes : List Node
  /-- The innermost first. -/
  enclosures : List Enclosure

namespace Draft

def empty : Draft := ⟨[], []⟩

def push (draft : Draft) (node : Node) : Draft := { draft with nodes := node :: draft.nodes }

def body (draft : Draft) : Node := .block draft.nodes.reverse

def enter (draft : Draft) (opening : Opening) (position : Option Position) : Draft :=
  ⟨[], ⟨opening, position, draft.nodes⟩ :: draft.enclosures⟩

/-- An `else` tag ends the first part of an `if` block and has no place elsewhere. -/
def otherwise (draft : Draft) (position : Option Position) (source : String) : Compilation Draft :=
  match draft.enclosures with
  | [] => .diagnose (.unbalanced (.outside "else")) position source
  | ⟨.consequence condition, start, siblings⟩ :: outer =>
    return ⟨[], ⟨.alternative condition draft.body, start, siblings⟩ :: outer⟩
  | ⟨opening, _, _⟩ :: _ => .diagnose (.unbalanced (.inside "else" opening.keyword ["end"])) position source

def close (draft : Draft) (position : Option Position) (source : String) : Compilation Draft :=
  match draft.enclosures with
  | [] => .diagnose (.unbalanced (.outside "end")) position source
  | ⟨opening, start, siblings⟩ :: outer => return ⟨opening.close start draft.body :: siblings, outer⟩

def finish (draft : Draft) (source : String) : Compilation Node :=
  match draft.enclosures with
  | [] => return draft.body
  | ⟨opening, start, _⟩ :: _ => .diagnose (.unterminated opening.keyword) start source

end Draft
end Stencil
