import Stencil.Parsing

/-! Trees by recursive descent. The nodes of all open blocks stand on one stack: a block keeps in mind how high the stack was
when it began and takes what stands above that when its end tag comes. What fails leaves its nodes on the stack and its source
where it stopped, and the parser can be used again as it is. -/

namespace Stencil
open Diagnostic

/-- A tag that ends a block or a part of one. -/
inductive Ending where
  | otherwise
  | close
  deriving DecidableEq, Repr

def Ending.keyword : Ending → String
  | .otherwise => "else"
  | .close => "end"

def Token.ending? (token : Token) : Option Ending :=
  match token.form with
  | .otherwise => some .otherwise
  | .close => some .close
  | _ => none

structure Descent (σ : Type) where
  stream : σ
  /-- The topmost last. -/
  stack : List Node

namespace Descent
open TokenStream (size next_smaller)
variable {σ : Type} [TokenStream σ]

abbrev push (descent : Descent σ) (node : Node) : Descent σ := { descent with stack := descent.stack ++ [node] }

/-- What comes of one construct and what it leaves. If it can be read, it puts nothing back into the stream. -/
structure Step (σ : Type) [TokenStream σ] (bound : Nat) (α : Type) where
  outcome : Compilation α
  after : Descent σ
  shorter : ∀ value, outcome.result = .ok value → size after.stream ≤ bound

namespace Step
variable {α β : Type} {bound : Nat}

def done (value : α) (after : Descent σ) (within : size after.stream ≤ bound) : Step σ bound α :=
  ⟨pure value, after, fun _ _ => within⟩

def fail (failure : CompileFailure) (after : Descent σ) : Step σ bound α := ⟨.ofExcept (.error failure), after, nofun⟩

def weaken {less : Nat} (within : less ≤ bound) (step : Step σ less α) : Step σ bound α :=
  ⟨step.outcome, step.after, fun value made => Nat.le_trans (step.shorter value made) within⟩

def bind (first : Step σ bound α) (next : α → (after : Descent σ) → size after.stream ≤ bound → Step σ bound β) :
    Step σ bound β :=
  match made : first.outcome.result with
  | .error failure => ⟨⟨first.outcome.expansions, .error failure⟩, first.after, nofun⟩
  | .ok value =>
    let second := next value first.after (first.shorter value made)
    ⟨⟨first.outcome.expansions ++ second.outcome.expansions, second.outcome.result⟩, second.after, second.shorter⟩

end Step

variable (inclusion : Inclusion) (source : String)

mutual
/-- The node that a token stands for or begins. -/
def node (token : Token) (descent : Descent σ) : Step σ (size descent.stream) Node :=
  match token.form with
  | .text content => .done (.text content) descent (Nat.le_refl _)
  | .variable path => .done (.variable path) descent (Nat.le_refl _)
  | .inclusion name => ⟨inclusion name token.position source, descent, fun _ _ => Nat.le_refl _⟩
  | .loop iterable binding =>
    (collect token "for" [.close] descent.stack.length descent).bind fun (body, _) after within =>
      .done (.loop iterable binding body token.position) after within
  | .choice pieces =>
    match Condition.ofPieces ⟨token.position, source⟩ pieces with
    | .error failure => .fail failure descent
    | .ok condition =>
      (collect token "if" [.otherwise, .close] descent.stack.length descent).bind fun (consequence, ending) after within =>
        match ending with
        | .close => .done (.choice condition consequence .emptyBlock) after within
        | .otherwise =>
          ((collect token "if" [.close] after.stack.length after).weaken within).bind fun (alternative, _) after within =>
            .done (.choice condition consequence alternative) after within
  -- Tags that end a block do not come here: whoever takes one decides whether it may stand there.
  | .otherwise | .close | .bare => .fail (.bareToken token.position) descent
termination_by 2 * size descent.stream + 1

/-- Goes on with a block that began when the stack was as high as the mark. -/
def collect (opened : Token) (construct : String) (endings : List Ending) (mark : Nat) (descent : Descent σ) :
    Step σ (size descent.stream) (Node × Ending) :=
  match _taken : TokenStream.next descent.stream with
  | .error diagnostic stream => .fail (.diagnosed diagnostic) { descent with stream }
  | .ok none stream => .fail (.diagnosed ⟨.unterminated construct, opened.position, source⟩) { descent with stream }
  | .ok (some token) stream =>
    have smaller := next_smaller _taken
    match token.ending? with
    | some ending =>
      if ending ∈ endings then
        .done (.block (descent.stack.drop mark), ending) ⟨stream, descent.stack.take mark⟩ (Nat.le_of_lt smaller)
      else
        .fail (.diagnosed ⟨.unbalanced (.inside ending.keyword construct (endings.map Ending.keyword)), token.position, source⟩)
          { descent with stream }
    | none =>
      ((node token { descent with stream }).bind fun child after (within : size after.stream ≤ size stream) =>
        (collect opened construct endings mark (after.push child)).weaken within).weaken (Nat.le_of_lt smaller)
termination_by 2 * size descent.stream
end

/-- The next token, which is taken only if there is one. -/
def upcoming : EStateM Diagnostic σ (Option Token) := do
  if ← TokenStream.atEnd then return none else TokenStream.next

theorem upcoming_eq : (upcoming : EStateM Diagnostic σ (Option Token)) = TokenStream.next :=
  funext TokenStream.look_then_next

/-- The blocks outside of all others. They are not put on the stack. -/
def blocks (children : List Node) (descent : Descent σ) : Compilation Node × Descent σ :=
  match _taken : upcoming descent.stream with
  | .error diagnostic stream => (.ofExcept (.error (.diagnosed diagnostic)), { descent with stream })
  | .ok none stream => (return .block children, { descent with stream })
  | .ok (some token) stream =>
    have _smaller := next_smaller (upcoming_eq (σ := σ) ▸ _taken)
    match token.ending? with
    | some ending => (.diagnose (.unbalanced (.outside ending.keyword)) token.position source, { descent with stream })
    | none =>
      let step := node inclusion source token { descent with stream }
      match _made : step.outcome.result with
      | .error failure => (⟨step.outcome.expansions, .error failure⟩, step.after)
      | .ok child =>
        let (outcome, after) := blocks (children ++ [child]) step.after
        (⟨step.outcome.expansions ++ outcome.expansions, outcome.result⟩, after)
termination_by size descent.stream
decreasing_by exact Nat.lt_of_le_of_lt (step.shorter child _made) _smaller

end Descent

/-- A parser for one stream of tokens and the source that it is of, with the partials that it may expand and the chain of those
it is in. -/
structure Parser (σ : Type) extends Descent σ where
  source : String
  registry : Registry
  chain : List String

namespace Parser

abbrev lexer (parser : Parser Lexer) : Lexer := parser.stream

def ofSource (registry : Registry) (chain : List String) (source content : String) : Parser Lexer :=
  ⟨⟨.ofSource source content, []⟩, source, registry, chain⟩

/-- The tree of a partial, which a parser of its own makes. -/
def including (registry : Registry) (chain : List String) : Inclusion := fun name position source =>
  match _found : registry.find? name with
  | none => .diagnose (.unknownPartial name) position source
  | some content =>
    if _used : name ∈ chain then .diagnose (.recursivePartial (chain ++ [name])) position source
    else do
      .note ⟨name, source⟩
      ((ofSource registry (chain ++ [name]) name content).blocks
        (fun inner => including registry (chain ++ [name]) inner) name []).1
termination_by (registry.unused chain).length
decreasing_by exact Registry.unused_shorter (Registry.mem_names_of_find _found) _used

variable {σ : Type} [TokenStream σ]

def parse (parser : Parser σ) : Compilation Node × Parser σ :=
  let (outcome, after) := parser.blocks (including parser.registry parser.chain) parser.source []
  (outcome, { parser with toDescent := after })

end Parser
end Stencil
