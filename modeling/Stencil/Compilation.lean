import Stencil.Failure

/-! What comes of compiling: a result or a failure and, either way, the partials that were expanded on the way. -/

namespace Stencil

/-- A partial that was put in place of a tag in some source. -/
structure Expansion where
  name : String
  source : String
  deriving DecidableEq, Repr

structure Compilation (α : Type) where
  expansions : List Expansion
  result : Except CompileFailure α

namespace Compilation
variable {α β : Type}

def ofExcept (result : Except CompileFailure α) : Compilation α := ⟨[], result⟩

def bind (first : Compilation α) (next : α → Compilation β) : Compilation β :=
  match first.result with
  | .error failure => ⟨first.expansions, .error failure⟩
  | .ok value => ⟨first.expansions ++ (next value).expansions, (next value).result⟩

instance : Monad Compilation where
  pure value := ⟨[], .ok value⟩
  bind := bind

def diagnose (cause : Diagnostic.Cause) (position : Option Position) (source : String) : Compilation α :=
  .ofExcept (.error (.diagnosed ⟨cause, position, some source⟩))

def note (expansion : Expansion) : Compilation Unit := ⟨[expansion], .ok ()⟩

@[simp] theorem result_pure (value : α) : (pure value : Compilation α).result = .ok value := rfl

@[simp] theorem result_bind (first : Compilation α) (next : α → Compilation β) :
    (first >>= next).result = first.result >>= fun value => (next value).result := by
  obtain ⟨expansions, result⟩ := first
  cases result <;> rfl

@[simp] theorem result_ofExcept (result : Except CompileFailure α) : (ofExcept result).result = result := rfl

end Compilation
end Stencil
