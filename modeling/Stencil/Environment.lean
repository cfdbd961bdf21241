import Stencil.Path

/-! Layers of bindings, the innermost first. A path is looked up in one layer after another, in each as a whole. -/

namespace Stencil

structure Environment where
  frames : List Value
  deriving Repr

namespace Environment

/-- A render sees its data first and then the globals of its template. -/
def forRender (data globals : Value) : Environment := ⟨[data, globals]⟩

def resolve (environment : Environment) (path : String) : Value :=
  ((environment.frames.map fun frame => frame.lookup path).find? fun value => !value.isMissing).getD .missing

def bind (environment : Environment) (name : String) (value : Value) : Environment :=
  ⟨.dict [(.text name, value)] :: environment.frames⟩

def depth (environment : Environment) : Nat := environment.frames.length

end Environment
end Stencil
