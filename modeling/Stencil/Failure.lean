import Stencil.Diagnostic
import Stencil.Value.Written

/-! Why a template cannot be made from its source, and why one that was made cannot be rendered. -/

namespace Stencil
open Text

inductive ExitCode where
  | success
  | renderError
  | compileError
  | inputError
  deriving DecidableEq, Repr

def ExitCode.number : ExitCode → Nat
  | .success => 0
  | .renderError => 1
  | .compileError => 2
  | .inputError => 3

inductive CompileFailure where
  | diagnosed (diagnostic : Diagnostic)
  /-- Digits that belong to no positional system are read as a number but stand for none. -/
  | unreadableNumber (text : String)
  | bareToken (position : Option Position)
  deriving DecidableEq, Repr

def CompileFailure.message : CompileFailure → String
  | .diagnosed diagnostic => diagnostic.message
  | .unreadableNumber text => "could not convert string to float: " ++ quoted text
  | .bareToken (some position) =>
    "Unexpected token: Token(position=Position(line=" ++ toString position.line ++ ", column=" ++
      toString position.column ++ "))"
  | .bareToken none => "Unexpected token: Token(position=None)"

inductive RenderFailure where
  | notIterable (path : String) (position : Option Position)
  | notANode (value : Value)
  /-- One round of a loop gave something other than text. -/
  | notText (round : Nat) (kind : String)
  deriving Repr

def RenderFailure.message : RenderFailure → String
  | .notIterable path position =>
    "Cannot resolve name " ++ quoted path ++ " to an iterable for loop" ++ Diagnostic.placed position
  | .notANode value => "Not a template node: " ++ value.written
  | .notText round kind => "sequence item " ++ toString round ++ ": expected str instance, " ++ kind ++ " found"

end Stencil
