import Stencil.Condition
import Stencil.Draft
import Stencil.Registry
import Stencil.Token.Lexer

/-! Trees from tokens. Tokens come one at a time and the first fault ends the work, so a fault further on in the source
is not seen. A partial is parsed in the place of its tag, by itself: its tags balance among themselves. -/

namespace Stencil
open Diagnostic

class TokenStream (σ : Type) where
  next : EStateM Diagnostic σ (Option Token)
  atEnd : EStateM Diagnostic σ Bool
  size : σ → Nat
  next_smaller : ∀ {stream rest : σ} {token : Token}, next stream = .ok (some token) rest → size rest < size stream
  /-- To look whether there is a next token before it is taken changes nothing. -/
  look_then_next : ∀ stream, (do if ← atEnd then return none else next : EStateM Diagnostic σ (Option Token)) stream = next stream

instance : TokenStream Lexer where
  next := Lexer.next
  atEnd := Lexer.atEnd
  size := Lexer.size
  next_smaller := Lexer.next_smaller
  look_then_next := Lexer.look_then_next

instance : TokenStream (List Token) where
  next := fun tokens => .ok tokens.head? tokens.tail
  atEnd := fun tokens => .ok tokens.isEmpty tokens
  size := List.length
  next_smaller := by
    intro tokens rest token done
    cases tokens with
    | nil => cases done
    | cons first more => cases done; simp
  look_then_next := by
    intro tokens
    cases tokens <;> rfl

/-- The tokens that are delivered before the end or the first fault, the fault, and what is left afterwards. -/
def TokenStream.drain {σ : Type} [TokenStream σ] (stream : σ) : List Token × Option Diagnostic × σ :=
  match _taken : next stream with
  | .error diagnostic rest => ([], some diagnostic, rest)
  | .ok none rest => ([], none, rest)
  | .ok (some token) rest =>
    let (tokens, fault, rest) := drain rest
    (token :: tokens, fault, rest)
termination_by size stream
decreasing_by exact next_smaller _taken

/-- What a tag that stands for a partial becomes: from the name, and the place and the source of the tag. -/
abbrev Inclusion := String → Option Position → String → Compilation Node

namespace Draft

def accept (inclusion : Inclusion) (source : String) (draft : Draft) (token : Token) : Compilation Draft :=
  match token.form with
  | .text content => return draft.push (.text content)
  | .variable path => return draft.push (.variable path)
  | .inclusion name => do return draft.push (← inclusion name token.position source)
  | .loop iterable binding => return draft.enter (.loop iterable binding) token.position
  | .choice pieces => do
    let condition ← .ofExcept (Condition.ofPieces ⟨token.position, source⟩ pieces)
    return draft.enter (.consequence condition) token.position
  | .otherwise => draft.otherwise token.position source
  | .close => draft.close token.position source
  | .bare => .ofExcept (.error (.bareToken token.position))

variable {σ : Type} [TokenStream σ]

/-- Takes tokens until they run out or something is wrong, and tells what is left of them. -/
def complete (inclusion : Inclusion) (source : String) (draft : Draft) (stream : σ) : Compilation Node × σ :=
  match _taken : TokenStream.next stream with
  | .error diagnostic rest => (.ofExcept (.error (.diagnosed diagnostic)), rest)
  | .ok none rest => (draft.finish source, rest)
  | .ok (some token) rest =>
    let accepted := draft.accept inclusion source token
    match accepted.result with
    | .error failure => (⟨accepted.expansions, .error failure⟩, rest)
    | .ok draft =>
      let (completed, rest) := draft.complete inclusion source rest
      (⟨accepted.expansions ++ completed.expansions, completed.result⟩, rest)
termination_by TokenStream.size stream
decreasing_by exact TokenStream.next_smaller _taken

end Draft

/-- The tree of a partial, for a chain of partials that are being expanded. The chain holds no registered name twice,
so it ends. -/
def expand (registry : Registry) (chain : List String) : Inclusion := fun name position source =>
  match _found : registry.find? name with
  | none => .diagnose (.unknownPartial name) position source
  | some content =>
    if _used : name ∈ chain then .diagnose (.recursivePartial (chain ++ [name])) position source
    else do
      .note ⟨name, source⟩
      (Draft.empty.complete (fun inner => expand registry (chain ++ [name]) inner) name
        (Lexer.ofSource name content)).1
termination_by (registry.unused chain).length
decreasing_by exact Registry.unused_shorter (Registry.mem_names_of_find _found) _used

def parse {σ : Type} [TokenStream σ] (registry : Registry) (chain : List String) (source : String) (stream : σ) :
    Compilation Node × σ :=
  Draft.empty.complete (expand registry chain) source stream

def parseSource (registry : Registry) (content : String) : Compilation Node :=
  (parse registry [] rootName (Lexer.ofSource rootName content)).1

end Stencil
