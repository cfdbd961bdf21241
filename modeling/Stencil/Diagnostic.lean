import Stencil.Position
import Stencil.Text.Quoted

/-! What can be wrong with a template's source: a cause, the place it concerns and the source it was found in. -/

namespace Stencil
open Text

def rootName : String := "<template>"

namespace Diagnostic

/-- What a reader still wanted when the source ran out. -/
inductive Wanted where
  | character
  | literal (text : String)
  | keyword
  | expressionEnd
  deriving DecidableEq, Repr

inductive Malformation where
  | empty
  | leftOver (text : String)
  | noConnective (found : String)
  | noRightOperand (operator : String)
  | noValue
  | operatorAsValue (operator : String)
  deriving DecidableEq, Repr

inductive Imbalance where
  | outside (tag : String)
  | inside (tag construct : String) (expected : List String)
  deriving DecidableEq, Repr

inductive Category where
  | general
  | endOfInput
  | unexpectedCharacter
  | unknownKeyword
  | unknownOperator
  | unterminated
  | unbalanced
  | malformed
  | unknownPartial
  | recursivePartial
  deriving DecidableEq, Repr

inductive Cause where
  | endOfInput (wanted : Wanted)
  /-- Nothing is found at the end of the source. -/
  | unexpectedCharacter (expected found : String)
  | unknownKeyword (keyword : String) (allowed : List String)
  | unknownOperator (found expected : String)
  | unterminated (construct : String)
  | unbalanced (imbalance : Imbalance)
  | malformed (malformation : Malformation)
  | unknownPartial (name : String)
  /-- The chain of partials that leads to one that is already being expanded, which comes last. -/
  | recursivePartial (chain : List String)
  | stated (category : Category) (words : String)
  deriving DecidableEq, Repr

def Wanted.message : Wanted → String
  | .character => "Unexpected end of input"
  | .literal text => "Unexpected end of input, expected " ++ quoted text
  | .keyword => "Unexpected end of input, expected a control keyword"
  | .expressionEnd => "Unexpected end of input in `if` tag, expected '%\x7d'"

def Malformation.message : Malformation → String
  | .empty => "`if` tag does not contain a condition"
  | .leftOver text => "Unexpected " ++ quoted text ++ " in `if` condition"
  | .noConnective found => "Expected '&&' or '||' but found " ++ quoted found
  | .noRightOperand operator => "Operator " ++ quoted operator ++ " is missing its right operand"
  | .noValue => "Expected a value in `if` condition"
  | .operatorAsValue operator => "Expected a value but found operator " ++ quoted operator

def Imbalance.message : Imbalance → String
  | .outside tag => "`" ++ tag ++ "` tag without an open block"
  | .inside tag construct expected =>
    "`" ++ tag ++ "` tag is not allowed here, `" ++ construct ++ "` block expects " ++
      String.intercalate " or " (expected.map fun other => "`" ++ other ++ "`")

namespace Cause

def category : Cause → Category
  | .endOfInput _ => .endOfInput
  | .unexpectedCharacter _ _ => .unexpectedCharacter
  | .unknownKeyword _ _ => .unknownKeyword
  | .unknownOperator _ _ => .unknownOperator
  | .unterminated _ => .unterminated
  | .unbalanced _ => .unbalanced
  | .malformed _ => .malformed
  | .unknownPartial _ => .unknownPartial
  | .recursivePartial _ => .recursivePartial
  | .stated category _ => category

def message : Cause → String
  | .endOfInput wanted => wanted.message
  | .unexpectedCharacter expected found =>
    "Expected " ++ expected ++ " but found " ++ if found = "" then "end of input" else quoted found
  | .unknownKeyword keyword allowed =>
    "Unknown control keyword " ++ quoted keyword ++ ", expected one of: " ++ String.intercalate ", " allowed
  | .unknownOperator found expected => "Unknown operator " ++ quoted found ++ ", expected " ++ quoted expected
  | .unterminated construct => "Unexpected end of input while reading `" ++ construct ++ "` block started here"
  | .unbalanced imbalance => imbalance.message
  | .malformed malformation => malformation.message
  | .unknownPartial name => "No partial named " ++ quoted name ++ " is registered"
  | .recursivePartial chain =>
    "Partial " ++ quoted (chain.getLastD "") ++ " includes itself: " ++ String.intercalate " -> " chain
  | .stated _ words => words

end Cause
end Diagnostic

structure Diagnostic where
  cause : Diagnostic.Cause
  position : Option Position
  source : Option String
  deriving DecidableEq, Repr

namespace Diagnostic

def placed : Option Position → String
  | some position => " (" ++ position.text ++ ")"
  | none => ""

/-- Only a partial is named: the root is the source at hand. -/
def attributed : Option String → String
  | some name => if name = "" || name = rootName then "" else " in partial '" ++ name ++ "'"
  | none => ""

def message (diagnostic : Diagnostic) : String :=
  diagnostic.cause.message ++ placed diagnostic.position ++ attributed diagnostic.source

end Diagnostic
end Stencil
