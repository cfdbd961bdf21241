import Stencil.Bindings
import Stencil.Evaluation
import Stencil.Parsing

/-! Templates: trees compiled once, to be rendered any number of times. -/

namespace Stencil

structure Template where
  root : Node
  partials : Registry
  /-- The outermost bindings, which the data of a render hide. -/
  globals : Value

inductive BuildFailure where
  | compile (failure : CompileFailure)
  | globals (fault : BindingFault)
  deriving DecidableEq, Repr

namespace Template

def compile (content : String) (partials : Registry) (globals : Value) : Compilation Template := do
  return ⟨← parseSource partials content, partials, globals⟩

/-- A template over the bindings that a value gives. A fault in the source comes before one in the value. -/
def build (content : String) (partials : Registry) (globals : Value) : EStateM BuildFailure Session Template := do
  match (compile content partials (.dict [])).result with
  | .error failure => throw (.compile failure)
  | .ok template =>
    let bindings ← EStateM.adaptExcept BuildFailure.globals (Binding.ofValue globals)
    return { template with globals := bindings }

def render (template : Template) (data : Value) : Evaluating Value :=
  template.root.evaluate (.forRender data template.globals)

def nodeCount (template : Template) : Nat := template.root.count

end Template
end Stencil
